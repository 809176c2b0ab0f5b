import Ranger.Audit.SpoolConsistency

/-! # Spooled audits are not lost unless a call throws

A line position speaks of lines the consumer has accepted. As long as no call
throws, the destination thread keeps in step with the position of its record, and
a file leaves the index only when all its lines were accepted.
-/

namespace Ranger

open Foundation

/-- The number of lines of the file before those of the call. -/
def LogCall.firstLine (call : LogCall) : Nat := call.currLine - call.lines.length

/-- The call is for a line of a file, given by the number of lines before it. -/
def LogCall.IsFor (call : LogCall) (filePath : String) (index : Nat) : Prop :=
  call.filePath = filePath ∧ call.firstLine ≤ index ∧ index < call.currLine

namespace AuditFileSpool

/-- The consumer accepted a batch with the line. -/
def Accepted (spool : AuditFileSpool) (filePath : String) (index : Nat) : Prop :=
  ∃ call ∈ spool.calls, call.result = .accepted ∧ call.IsFor filePath index

/-- A record with the path and the line position of an earlier one, or of a new file. -/
def ComesFrom (spool : AuditFileSpool) (source : AuditIndexRecord → Prop)
    (record : AuditIndexRecord) : Prop :=
  (record.linePosition = 0 ∧ spool.files.get? record.filePath = none) ∨
    ∃ before, source before ∧ before.filePath = record.filePath ∧
      before.linePosition = record.linePosition

theorem ComesFrom.same {spool : AuditFileSpool} {source : AuditIndexRecord → Prop}
    {record : AuditIndexRecord} (listed : source record) : spool.ComesFrom source record :=
  Or.inr ⟨record, listed, rfl, rfl⟩

theorem ComesFrom.trans {spool middle : AuditFileSpool} {source between : AuditIndexRecord → Prop}
    {record : AuditIndexRecord}
    (kept : ∀ path file, spool.files.get? path = some file →
      ∃ other, middle.files.get? path = some other)
    (second : middle.ComesFrom between record)
    (first : ∀ before, between before → spool.ComesFrom source before) :
    spool.ComesFrom source record := by
  obtain ⟨position, absent⟩ | ⟨before, listed, path, position⟩ := second
  · refine Or.inl ⟨position, ?_⟩
    cases stored : spool.files.get? record.filePath with
    | none => rfl
    | some file =>
        obtain ⟨other, still⟩ := kept _ file stored
        rw [absent] at still
        cases still
  · obtain ⟨zero, absent⟩ | ⟨origin, found, samePath, samePosition⟩ := first before listed
    · exact Or.inl ⟨position ▸ zero, path ▸ absent⟩
    · exact Or.inr ⟨origin, found, samePath.trans path, samePosition.trans position⟩

/-- What stashing leaves as it is, and where the records come from. -/
structure Unread (spool next : AuditFileSpool) : Prop where
  thread : next.destinationThread = spool.destinationThread
  current : next.currentConsumerIndexRecord = spool.currentConsumerIndexRecord
  calls : next.calls = spool.calls
  done : next.indexDoneFile = spool.indexDoneFile
  memory : ∀ id record, next.indexRecords.get? id = some record →
    spool.ComesFrom (fun before => spool.indexRecords.get? id = some before) record
  listed : ∀ id record, next.Listed id record → spool.ComesFrom (spool.Listed id) record
  record : ∀ id, spool.currentConsumerIndexRecord = some id →
    next.indexRecords.get? id = spool.indexRecords.get? id
  stored : ∀ id record, spool.currentConsumerIndexRecord = some id →
    spool.indexRecords.get? id = some record →
      next.files.get? record.filePath = spool.files.get? record.filePath
  kept : ∀ path file, spool.files.get? path = some file → ∃ other, next.files.get? path = some other
  archived : ∀ path file, file.archived = true →
    (next.files.get? path = some file ↔ spool.files.get? path = some file)

section Stashing

variable {spool : AuditFileSpool}

theorem Unread.refl (spool : AuditFileSpool) : Unread spool spool where
  thread := rfl
  current := rfl
  calls := rfl
  done := rfl
  memory := fun _ _ found => .same found
  listed := fun _ _ listed => .same listed
  record := fun _ _ => rfl
  stored := fun _ _ _ _ => rfl
  kept := fun _ file stored => ⟨file, stored⟩
  archived := fun _ _ _ => Iff.rfl

theorem Unread.trans {middle next : AuditFileSpool} (first : Unread spool middle)
    (second : Unread middle next) : Unread spool next where
  thread := second.thread.trans first.thread
  current := second.current.trans first.current
  calls := second.calls.trans first.calls
  done := second.done.trans first.done
  memory := fun id record found =>
    (second.memory id record found).trans first.kept (first.memory id)
  listed := fun id record member =>
    (second.listed id record member).trans first.kept (first.listed id)
  record := by
    intro id current
    exact (second.record id (first.current.trans current)).trans (first.record id current)
  stored := by
    intro id record current found
    have middleFound := (first.record id current).trans found
    exact (second.stored id record (first.current.trans current) middleFound).trans
      (first.stored id record current found)
  kept := by
    intro path file stored
    obtain ⟨other, still⟩ := first.kept path file stored
    exact second.kept path other still
  archived := by
    intro path file flag
    exact (second.archived path file flag).trans (first.archived path file flag)

theorem Consistent.unread_closeFileIfNeeded (consistent : spool.Consistent) (expired : Bool) :
    Unread spool (spool.closeFileIfNeeded expired) := by
  obtain unchanged | ⟨id, writer, closed⟩ := closeFileIfNeeded_cases expired spool
  · rw [unchanged]
    exact .refl spool
  · obtain ⟨record, found, status⟩ := consistent.writer id writer
    rw [closed, changeRecord_of_found found]
    have memory : ∀ other otherRecord,
        (spool.indexRecords.put id { record with status := .pending }).get? other =
          some otherRecord →
        spool.ComesFrom (fun before => spool.indexRecords.get? other = some before)
          otherRecord := by
      intro other otherRecord now
      rw [AssocMap.get?_put] at now
      split at now
      · next same =>
          rw [same, ← Option.some.inj now]
          exact Or.inr ⟨record, found, rfl, rfl⟩
      · exact .same now
    refine ⟨rfl, rfl, rfl, rfl, memory, ?_, ?_, fun _ _ _ _ => rfl,
      fun _ file stored => ⟨file, stored⟩, fun _ _ _ => Iff.rfl⟩
    · intro other otherRecord listed
      obtain zero | ⟨before, origin, same⟩ :=
        memory other otherRecord (listed.elim (fun memory => memory) fun disk => disk)
      · exact Or.inl zero
      · exact Or.inr ⟨before, Or.inl origin, same⟩
    · intro other current
      have apart : other ≠ id := fun same => consistent.unwritten current (same ▸ writer)
      exact (AssocMap.get?_put ..).trans (if_neg apart)

theorem Consistent.unread_openFile (consistent : spool.Consistent) {id fileName : String}
    (unused : spool.isUnused id fileName = true) : Unread spool (spool.openFile id fileName) := by
  simp only [isUnused, Bool.and_eq_true, Bool.not_eq_true', Bool.eq_false_iff, ne_eq,
    AssocMap.containsKey_iff, ← AssocMap.get?_eq_none_iff, bne_iff_ne] at unused
  obtain ⟨⟨⟨⟨noFile, noMemory⟩, _⟩, _⟩, unread⟩ := unused
  have memory : ∀ other record,
      (spool.indexRecords.put id { filePath := fileName, lastAttempt := true }).get? other =
        some record →
      spool.ComesFrom (fun before => spool.indexRecords.get? other = some before) record := by
    intro other record now
    rw [AssocMap.get?_put] at now
    split at now
    · rw [← Option.some.inj now]
      exact Or.inl ⟨rfl, noFile⟩
    · exact .same now
  refine ⟨rfl, rfl, rfl, rfl, memory, ?_, ?_, ?_, ?_, ?_⟩
  · intro other record listed
    obtain zero | ⟨before, origin, same⟩ :=
      memory other record (listed.elim (fun memory => memory) fun disk => disk)
    · exact Or.inl zero
    · exact Or.inr ⟨before, Or.inl origin, same⟩
  · intro other current
    have apart : other ≠ id := fun same => unread (same ▸ current)
    exact (AssocMap.get?_put ..).trans (if_neg apart)
  · intro other record _ found
    obtain ⟨file, stored, _⟩ := consistent.filed other record (Or.inl found)
    have apart : record.filePath ≠ fileName := by
      intro same
      rw [same, noFile] at stored
      cases stored
    exact (AssocMap.get?_put ..).trans (if_neg apart)
  · intro path file stored
    have apart : path ≠ fileName := by
      intro same
      rw [same, noFile] at stored
      cases stored
    exact ⟨file, ((AssocMap.get?_put ..).trans (if_neg apart)).trans stored⟩
  · intro path file flag
    change (spool.files.put fileName {}).get? path = some file ↔ _
    rw [AssocMap.get?_put]
    by_cases same : path = fileName
    · rw [if_pos same, same, noFile]
      constructor
      · intro now
        rw [← Option.some.inj now] at flag
        cases flag
      · intro impossible
        cases impossible
    · rw [if_neg same]

theorem Consistent.unread_append (consistent : spool.Consistent) {id : String}
    {record : AuditIndexRecord} (found : spool.indexRecords.get? id = some record)
    (status : record.status = .write_inprogress) (lines : List String) :
    Unread spool (spool.append record.filePath lines) := by
  obtain ⟨file, stored, _⟩ := consistent.filed id record (Or.inl found)
  obtain ⟨_, unread, present⟩ := consistent.writing id record (Or.inl found) status
  have flag := present file stored
  unfold AuditFileSpool.append
  rw [stored, Option.getD_some]
  refine ⟨rfl, rfl, rfl, rfl, fun _ _ now => .same now, fun _ _ listed => .same listed,
    fun _ _ => rfl, ?_, ?_, ?_⟩
  · intro other otherRecord current memory
    have apart : otherRecord.filePath ≠ record.filePath := by
      intro same
      have alike := consistent.own _ _ _ _ (Or.inl memory) (Or.inl found) same
      exact unread (alike ▸ current)
    exact (AssocMap.get?_put ..).trans (if_neg apart)
  · intro path known same
    by_cases written : path = record.filePath
    · exact ⟨_, (AssocMap.get?_put ..).trans (if_pos written)⟩
    · exact ⟨known, ((AssocMap.get?_put ..).trans (if_neg written)).trans same⟩
  · intro path other archived
    change (spool.files.put record.filePath _).get? path = some other ↔ _
    rw [AssocMap.get?_put]
    by_cases written : path = record.filePath
    · rw [if_pos written, written, stored]
      constructor
      · intro now
        rw [← Option.some.inj now] at archived
        exact absurd archived (by simp [flag])
      · intro now
        rw [← Option.some.inj now] at archived
        exact absurd archived (by simp [flag])
    · rw [if_neg written]

/-- Stashing does not touch the file that is read, nor an archived one. -/
theorem Consistent.unread_stashLogs (consistent : spool.Consistent) {id fileName : String}
    (unused : spool.isUnused id fileName = true) (lines : List String) (expired : Bool) :
    Unread spool (spool.stashLogs lines expired id fileName) := by
  have closed := consistent.unread_closeFileIfNeeded expired
  have stream : Unread spool (spool.getLogFileStream expired id fileName) ∧
      (spool.getLogFileStream expired id fileName).Consistent := by
    have consistentClosed := consistent.closeFileIfNeeded expired
    have still := isUnused_closeFileIfNeeded consistent.writer unused expired
    unfold getLogFileStream
    dsimp only
    split
    · exact ⟨closed.trans (consistentClosed.unread_openFile still), consistentClosed.openFile still⟩
    · exact ⟨closed, consistentClosed⟩
  unfold AuditFileSpool.stashLogs
  generalize spool.getLogFileStream expired id fileName = opened at stream
  dsimp only
  cases writer : opened.currentWriterIndexRecord with
  | none => exact stream.1
  | some current =>
      obtain ⟨record, found, status⟩ := stream.2.writer current writer
      simp only [Option.bind_some, found]
      exact stream.1.trans (stream.2.unread_append found status lines)

end Stashing

section Positions

/-- The thread sends the lines behind the line position of its record, give or take
the last one, and removes the record of a file that was accepted to its end. -/
structure InStep (spool : AuditFileSpool) (record : AuditIndexRecord) (file : SpoolFile) :
    Prop where
  sending : ∀ reader, spool.destinationThread = .sending reader →
    reader.first ≤ record.linePosition ∧ record.linePosition ≤ reader.first + 1
  saving : ∀ reader, spool.destinationThread = .saving reader →
    reader.currLine = record.linePosition
  removing : spool.destinationThread = .removing →
    file.archived = true ∨ file.lines.length ≤ record.linePosition

/-- The thread is in step with its record and the file of the record. -/
def KeepsStep (spool : AuditFileSpool) : Prop :=
  ∀ id record file, spool.currentConsumerIndexRecord = some id →
    spool.indexRecords.get? id = some record → spool.files.get? record.filePath = some file →
      spool.InStep record file

/-- Line positions and the archive speak of accepted lines only. -/
structure Delivering (spool : AuditFileSpool) : Prop where
  positions : ∀ id record, spool.Listed id record → ∀ index < record.linePosition,
    spool.Accepted record.filePath index
  archived : ∀ path file, spool.files.get? path = some file → file.archived = true →
    ∀ index < file.lines.length, spool.Accepted path index
  done : ∀ entry ∈ spool.indexDoneFile, ∃ file,
    spool.files.get? entry.2.filePath = some file ∧ file.archived = true

variable {spool : AuditFileSpool}

theorem keepsStep_of_looping (looping : spool.destinationThread = .looping) : spool.KeepsStep := by
  intro id record file _ _ _
  refine ⟨?_, ?_, ?_⟩ <;> rw [looping]
  · exact fun _ impossible => by cases impossible
  · exact fun _ impossible => by cases impossible
  · exact fun impossible => by cases impossible

theorem KeepsStep.unread (keeps : spool.KeepsStep) {next : AuditFileSpool}
    (unread : Unread spool next) : next.KeepsStep := by
  intro id record file current found stored
  rw [unread.current] at current
  rw [unread.record id current] at found
  rw [unread.stored id record current found] at stored
  obtain ⟨sending, saving, removing⟩ := keeps id record file current found stored
  exact ⟨unread.thread ▸ sending, unread.thread ▸ saving, unread.thread ▸ removing⟩

/-- Reading on from the line position keeps the thread in step. -/
theorem keepsStep_readOn (maxBatchSize : Nat) {id : String} {record : AuditIndexRecord}
    {file : SpoolFile} (read : spool.IsRead id record file) {startLine currLine : Nat}
    {unread : List String} (reads : Reader.Reads ⟨startLine, currLine, [], unread⟩ file.lines)
    (low : max currLine (startLine - 1) ≤ record.linePosition)
    (high : record.linePosition ≤ max currLine (startLine - 1) + 1) :
    (spool.readOn maxBatchSize startLine currLine unread).KeepsStep := by
  obtain ⟨_, _, first, complete⟩ := Reader.fill_reads maxBatchSize _ _ _ _ reads
  have begins : (Reader.fill maxBatchSize startLine currLine [] unread).first =
      max currLine (startLine - 1) := first
  obtain ⟨_, sending⟩ | ⟨empty, finished⟩ :=
    readOn_cases maxBatchSize startLine currLine unread read.current
  · rw [sending]
    intro other otherRecord otherFile current found _
    have same : id = other := Option.some.inj (read.current.symm.trans current)
    subst same
    have alike : record = otherRecord := Option.some.inj (read.listed.symm.trans found)
    subst alike
    refine ⟨?_, ?_, ?_⟩
    · intro reader now
      rw [← DestinationThread.sending.inj now, begins]
      exact ⟨low, high⟩
    · exact fun _ impossible => by cases impossible
    · exact fun impossible => by cases impossible
  · rw [finished, changeRecord_of_found read.listed]
    intro other otherRecord otherFile current found stored
    have same : id = other := Option.some.inj (read.current.symm.trans current)
    subst same
    have now := (AssocMap.get?_put spool.indexRecords id id _).symm.trans found
    rw [if_pos rfl] at now
    obtain rfl := Option.some.inj now
    have sameFile : file = otherFile := Option.some.inj (read.stored.symm.trans stored)
    subst sameFile
    refine ⟨?_, ?_, ?_⟩
    · exact fun _ impossible => by cases impossible
    · exact fun _ impossible => by cases impossible
    · intro _
      have whole := complete empty
      simp only [Reader.first, empty, ↓reduceIte] at begins
      change file.archived = true ∨ file.lines.length ≤ record.linePosition
      omega

theorem keepsStep_turn (looping : spool.destinationThread = .looping) (maxBatchSize : Nat)
    (expired : Bool) (consistent : spool.Consistent) :
    (spool.turn maxBatchSize expired).KeepsStep := by
  have polled := consistent.poll looping
  have idle : spool.poll.destinationThread = .looping := poll_destinationThread.trans looping
  obtain ⟨_, closed⟩ | ⟨id, record, current, memory, ⟨file, read, opened⟩ | ⟨gone, missing⟩⟩ :=
    turn_cases maxBatchSize expired spool
  · rw [closed]
    exact (keepsStep_of_looping idle).unread (polled.unread_closeFileIfNeeded expired)
  · rw [opened]
    exact keepsStep_readOn maxBatchSize read (reads_opened _ _) (by omega) (by omega)
  · rw [missing]
    intro other otherRecord otherFile now found stored
    have same : id = other := Option.some.inj (current.symm.trans now)
    subst same
    have alike : record = otherRecord := Option.some.inj (memory.symm.trans found)
    subst alike
    refine ⟨?_, ?_, fun _ => Or.inl (gone otherFile stored)⟩
    · exact fun _ impossible => by cases impossible
    · exact fun _ impossible => by cases impossible

theorem keepsStep_sendEvent (consistent : spool.Consistent) {reader : Reader}
    (sending : spool.destinationThread = .sending reader) (maxBatchSize : Nat)
    {result : LogResult} (returned : result ≠ .threw) :
    (spool.sendEvent maxBatchSize reader result).KeepsStep := by
  obtain ⟨_, id, record, file, read, _⟩ := consistent.reading reader (Or.inl sending)
  rw [sendEvent_eq maxBatchSize reader result read.current read.listed]
  cases result with
  | accepted =>
      intro other otherRecord otherFile current found _
      have same : id = other := Option.some.inj (read.current.symm.trans current)
      subst same
      have now := (AssocMap.get?_put spool.indexRecords id id _).symm.trans found
      rw [if_pos rfl] at now
      obtain rfl := Option.some.inj now
      refine ⟨?_, ?_, ?_⟩
      · exact fun _ impossible => by cases impossible
      · intro batch phase
        rw [← DestinationThread.saving.inj phase]
      · exact fun impossible => by cases impossible
  | refused => exact keepsStep_of_looping rfl
  | threw => exact absurd rfl returned

theorem KeepsStep.saveBatch (keeps : spool.KeepsStep) (consistent : spool.Consistent)
    {reader : Reader} (saving : spool.destinationThread = .saving reader) (maxBatchSize : Nat) :
    (spool.saveBatch maxBatchSize reader).KeepsStep := by
  obtain ⟨nonempty, id, record, file, read, reads⟩ := consistent.reading reader (Or.inr saving)
  have position := (keeps id record file read.current read.listed read.stored).saving reader saving
  have started := reads.started nonempty
  have saved : spool.saveIndexFile.IsRead id record file :=
    ⟨read.current, read.listed, read.stored, read.present⟩
  exact keepsStep_readOn maxBatchSize saved reads.cleared (by omega) (by omega)

/-- Unless a call throws, the thread stays in step. -/
theorem KeepsStep.step (keeps : spool.KeepsStep) (consistent : spool.Consistent)
    (maxBatchSize : Nat) {event : Event} (returned : event ≠ .logJSON .threw) :
    (spool.step maxBatchSize event).KeepsStep := by
  unfold AuditFileSpool.step
  split
  · exact keepsStep_of_looping rfl
  · exact keeps
  · next _ lines expired id fileName _ =>
      split
      · next unused => exact keeps.unread (consistent.unread_stashLogs unused lines expired)
      · exact keeps
  · next looping => exact keepsStep_turn looping maxBatchSize _ consistent
  · next sending =>
      refine keepsStep_sendEvent consistent sending maxBatchSize ?_
      exact fun threw => returned (threw ▸ rfl)
  · next saving => exact keeps.saveBatch consistent saving maxBatchSize
  · next removing =>
      obtain unchanged | ⟨id, record, _, _, removed⟩ := appendToDoneFile_cases spool
      · rwa [unchanged]
      · rw [removed]
        intro other otherRecord otherFile _ _ _
        refine ⟨?_, ?_, ?_⟩
        · exact fun _ impossible => by cases impossible
        · exact fun _ impossible => by cases impossible
        · exact fun impossible => by cases impossible
  · next removed =>
      have idle : { spool.saveIndexFile with
          currentConsumerIndexRecord := none
          destinationThread := .looping }.Consistent := consistent.removed
      exact (keepsStep_of_looping rfl).unread (idle.unread_closeFileIfNeeded _)
  · exact keeps

end Positions

section Delivery

variable {spool : AuditFileSpool}

theorem Delivering.mono (delivering : spool.Delivering) {next : AuditFileSpool}
    (calls : next.calls = spool.calls)
    (listed : ∀ id record, next.Listed id record → record.linePosition = 0 ∨
      ∃ before, spool.Listed id before ∧ before.filePath = record.filePath ∧
        before.linePosition = record.linePosition)
    (archived : ∀ path file, file.archived = true →
      (next.files.get? path = some file ↔ spool.files.get? path = some file))
    (done : next.indexDoneFile = spool.indexDoneFile) : next.Delivering where
  positions := by
    intro id record member index below
    obtain zero | ⟨before, found, path, position⟩ := listed id record member
    · omega
    · obtain ⟨call, seen, accepted, isFor⟩ :=
        delivering.positions id before found index (position ▸ below)
      exact ⟨call, calls ▸ seen, accepted, path ▸ isFor⟩
  archived := by
    intro path file stored flag index below
    obtain ⟨call, seen, accepted, isFor⟩ :=
      delivering.archived path file ((archived path file flag).mp stored) flag index below
    exact ⟨call, calls ▸ seen, accepted, isFor⟩
  done := by
    intro entry member
    rw [done] at member
    obtain ⟨file, stored, flag⟩ := delivering.done entry member
    exact ⟨file, (archived _ file flag).mpr stored, flag⟩

theorem Delivering.unread (delivering : spool.Delivering) {next : AuditFileSpool}
    (unread : Unread spool next) : next.Delivering := by
  refine delivering.mono unread.calls ?_ unread.archived unread.done
  intro id record listed
  exact (unread.listed id record listed).imp And.left fun before => before

/-- Changes of the index that leave paths and line positions alone. -/
theorem Delivering.reindex (delivering : spool.Delivering) {next : AuditFileSpool}
    (calls : next.calls = spool.calls) (files : next.files = spool.files)
    (done : next.indexDoneFile = spool.indexDoneFile)
    (listed : ∀ id record, next.Listed id record →
      ∃ before, spool.Listed id before ∧ before.filePath = record.filePath ∧
        before.linePosition = record.linePosition) : next.Delivering := by
  refine delivering.mono calls (fun id record member => Or.inr (listed id record member)) ?_ done
  intro path file _
  rw [files]

/-- Where a record comes from when one was changed. -/
theorem listed_put {id : String} {record : AuditIndexRecord} (changed : AuditIndexRecord)
    (found : spool.indexRecords.get? id = some record) (path : changed.filePath = record.filePath)
    (position : changed.linePosition = record.linePosition) {other : String}
    {otherRecord : AuditIndexRecord}
    (listed : (spool.indexRecords.put id changed).get? other = some otherRecord ∨
      spool.indexFile.get? other = some otherRecord) :
    ∃ before, spool.Listed other before ∧ before.filePath = otherRecord.filePath ∧
      before.linePosition = otherRecord.linePosition := by
  obtain memory | disk := listed
  · rw [AssocMap.get?_put] at memory
    split at memory
    · next same =>
        rw [same, ← Option.some.inj memory]
        exact ⟨record, Or.inl found, path.symm, position.symm⟩
    · exact ⟨otherRecord, Or.inl memory, rfl, rfl⟩
  · exact ⟨otherRecord, Or.inr disk, rfl, rfl⟩

theorem Delivering.readOn (delivering : spool.Delivering) (maxBatchSize : Nat) {id : String}
    {record : AuditIndexRecord} {file : SpoolFile} (read : spool.IsRead id record file)
    (startLine currLine : Nat) (unread : List String) :
    (spool.readOn maxBatchSize startLine currLine unread).Delivering := by
  obtain ⟨_, sending⟩ | ⟨_, finished⟩ :=
    readOn_cases maxBatchSize startLine currLine unread read.current
  · rw [sending]
    exact delivering.reindex rfl rfl rfl fun _ other listed => ⟨other, listed, rfl, rfl⟩
  · rw [finished, changeRecord_of_found read.listed]
    exact delivering.reindex rfl rfl rfl fun _ _ listed =>
      listed_put { record with status := .done, lastAttempt := true } read.listed rfl rfl listed

theorem Delivering.poll (delivering : spool.Delivering) : spool.poll.Delivering := by
  unfold AuditFileSpool.poll
  split
  · exact delivering.reindex rfl rfl rfl fun _ other listed => ⟨other, listed, rfl, rfl⟩
  · exact delivering

theorem Delivering.turn (delivering : spool.Delivering) (consistent : spool.Consistent)
    (looping : spool.destinationThread = .looping) (maxBatchSize : Nat) (expired : Bool) :
    (spool.turn maxBatchSize expired).Delivering := by
  have polled := consistent.poll looping
  obtain ⟨_, closed⟩ | ⟨id, record, _, _, ⟨file, read, opened⟩ | ⟨_, missing⟩⟩ :=
    turn_cases maxBatchSize expired spool
  · rw [closed]
    exact delivering.poll.unread (polled.unread_closeFileIfNeeded expired)
  · rw [opened]
    exact delivering.poll.readOn maxBatchSize read _ _ _
  · rw [missing]
    exact delivering.poll.reindex rfl rfl rfl fun _ other listed => ⟨other, listed, rfl, rfl⟩

/-- What was accepted stays accepted. -/
theorem Accepted.addCall {path : String} {index : Nat} (accepted : spool.Accepted path index)
    (call : LogCall) : { spool with calls := spool.calls ++ [call] }.Accepted path index := by
  obtain ⟨earlier, seen, result, isFor⟩ := accepted
  exact ⟨earlier, List.mem_append_left _ seen, result, isFor⟩

theorem Delivering.addCall (delivering : spool.Delivering) (call : LogCall) :
    { spool with calls := spool.calls ++ [call] }.Delivering where
  positions := fun id record listed index below =>
    (delivering.positions id record listed index below).addCall call
  archived := fun path file stored flag index below =>
    (delivering.archived path file stored flag index below).addCall call
  done := delivering.done

/-- An accepted batch brings the line position of its record to the current line. -/
theorem Delivering.accept (delivering : spool.Delivering) {reader : Reader} {id : String}
    {record : AuditIndexRecord} {file : SpoolFile} (read : spool.IsRead id record file)
    (nonempty : reader.lines ≠ []) (first : reader.first ≤ record.linePosition)
    (maxBatchSize : Nat) :
    (spool.sendEvent maxBatchSize reader .accepted).Delivering := by
  have called := delivering.addCall ⟨record.filePath, reader.currLine, reader.lines, .accepted⟩
  rw [sendEvent_eq maxBatchSize reader .accepted read.current read.listed]
  refine ⟨?_, called.archived, called.done⟩
  intro other otherRecord listed index below
  have source : (other = id ∧ otherRecord.filePath = record.filePath ∧
      otherRecord.linePosition = reader.currLine) ∨ spool.Listed other otherRecord := by
    obtain memory | disk := listed
    · have now := (AssocMap.get?_put spool.indexRecords id other _).symm.trans memory
      split at now
      · next same =>
          rw [← Option.some.inj now]
          exact Or.inl ⟨same, rfl, rfl⟩
      · exact Or.inr (Or.inl now)
    · exact Or.inr (Or.inr disk)
  obtain ⟨_, path, position⟩ | before := source
  · by_cases earlier : index < reader.first
    · rw [path]
      exact (delivering.positions id record (Or.inl read.listed) index (by omega)).addCall _
    · refine ⟨_, List.mem_append_right _ (List.mem_singleton.mpr rfl), rfl, path.symm, ?_, ?_⟩
      · have start : reader.first = reader.currLine - reader.lines.length := if_neg nonempty
        change reader.currLine - reader.lines.length ≤ index
        omega
      · change index < reader.currLine
        omega
  · exact (delivering.positions other otherRecord before index below).addCall _

theorem Delivering.sendEvent (delivering : spool.Delivering) (consistent : spool.Consistent)
    (keeps : spool.KeepsStep) {reader : Reader}
    (sending : spool.destinationThread = .sending reader) (maxBatchSize : Nat)
    {result : LogResult} (returned : result ≠ .threw) :
    (spool.sendEvent maxBatchSize reader result).Delivering := by
  obtain ⟨nonempty, id, record, file, read, _⟩ := consistent.reading reader (Or.inl sending)
  cases result with
  | accepted =>
      have position := (keeps id record file read.current read.listed read.stored).sending reader
        sending
      exact delivering.accept read nonempty position.1 maxBatchSize
  | refused =>
      have called := delivering.addCall ⟨record.filePath, reader.currLine, reader.lines, .refused⟩
      rw [sendEvent_eq maxBatchSize reader .refused read.current read.listed]
      refine called.reindex rfl rfl rfl fun other otherRecord listed => ?_
      exact listed_put { record with
        failedAttemptCount := record.failedAttemptCount + 1
        lastAttempt := false } read.listed rfl rfl
          (Or.inl (listed.elim (fun memory => memory) fun disk => disk))
  | threw => exact absurd rfl returned

theorem Delivering.appendToDoneFile (delivering : spool.Delivering) (consistent : spool.Consistent)
    (keeps : spool.KeepsStep) (removing : spool.destinationThread = .removing) :
    spool.appendToDoneFile.Delivering := by
  obtain unchanged | ⟨id, record, current, memory, removed⟩ := appendToDoneFile_cases spool
  · rwa [unchanged]
  · obtain ⟨file, stored, _⟩ := consistent.filed id record (Or.inl memory)
    have whole : ∀ index < file.lines.length, spool.Accepted record.filePath index := by
      intro index below
      obtain flag | position := (keeps id record file current memory stored).removing removing
      · exact delivering.archived _ file stored flag index below
      · exact delivering.positions id record (Or.inl memory) index (by omega)
    have renamed : ∀ path, (spool.renameToArchive record.filePath).get? path =
        if path = record.filePath then some { file with archived := true }
        else spool.files.get? path := by
      intro path
      simp only [renameToArchive, stored, AssocMap.get?_put]
    rw [removed]
    refine ⟨?_, ?_, ?_⟩
    · intro other otherRecord listed
      obtain kept | disk := listed
      · have found := (AssocMap.get?_filterKeys ..).symm.trans kept
        split at found
        · exact delivering.positions other otherRecord (Or.inl found)
        · cases found
      · exact delivering.positions other otherRecord (Or.inr disk)
    · intro path other now flag
      have found := (renamed path).symm.trans now
      split at found
      · next same =>
          rw [← Option.some.inj found, same]
          exact whole
      · exact delivering.archived path other found flag
    · intro entry member
      obtain before | last := List.mem_append.mp member
      · obtain ⟨other, found, flag⟩ := delivering.done entry before
        by_cases same : entry.2.filePath = record.filePath
        · exact ⟨_, (renamed _).trans (if_pos same), rfl⟩
        · exact ⟨other, ((renamed _).trans (if_neg same)).trans found, flag⟩
      · rw [List.mem_singleton.mp last]
        exact ⟨_, (renamed _).trans (if_pos rfl), rfl⟩

/-- Unless a call throws, positions and the archive go on speaking of accepted lines. -/
theorem Delivering.step (delivering : spool.Delivering) (consistent : spool.Consistent)
    (keeps : spool.KeepsStep) (maxBatchSize : Nat) {event : Event}
    (returned : event ≠ .logJSON .threw) : (spool.step maxBatchSize event).Delivering := by
  unfold AuditFileSpool.step
  split
  · exact delivering.reindex rfl rfl rfl fun id record listed =>
      ⟨record, Or.inr (listed.elim (fun disk => disk) fun disk => disk), rfl, rfl⟩
  · exact delivering
  · next _ lines expired id fileName _ =>
      split
      · next unused => exact delivering.unread (consistent.unread_stashLogs unused lines expired)
      · exact delivering
  · next looping => exact delivering.turn consistent looping maxBatchSize _
  · next sending =>
      refine delivering.sendEvent consistent keeps sending maxBatchSize ?_
      exact fun threw => returned (threw ▸ rfl)
  · next reader saving =>
      obtain ⟨_, id, record, file, read, _⟩ := consistent.reading reader (Or.inr saving)
      have saved : spool.saveIndexFile.Delivering :=
        delivering.reindex rfl rfl rfl fun other otherRecord listed =>
          ⟨otherRecord, Or.inl (listed.elim (fun memory => memory) fun disk => disk), rfl, rfl⟩
      have savedRead : spool.saveIndexFile.IsRead id record file :=
        ⟨read.current, read.listed, read.stored, read.present⟩
      exact saved.readOn maxBatchSize savedRead _ _ _
  · next removing => exact delivering.appendToDoneFile consistent keeps removing
  · next removed =>
      have finished : { spool.saveIndexFile with
          currentConsumerIndexRecord := none
          destinationThread := .looping }.Delivering :=
        delivering.reindex rfl rfl rfl fun other otherRecord listed =>
          ⟨otherRecord, Or.inl (listed.elim (fun memory => memory) fun disk => disk), rfl, rfl⟩
      exact finished.unread (consistent.removed.unread_closeFileIfNeeded _)
  · exact delivering

/-- Every line of a file that left the index as done was in a batch the consumer
accepted. -/
def DoneFilesAccepted (spool : AuditFileSpool) : Prop :=
  ∀ entry ∈ spool.indexDoneFile, ∃ file, spool.files.get? entry.2.filePath = some file ∧
    ∀ index line, file.lines[index]? = some line →
      ∃ call ∈ spool.calls, call.result = .accepted ∧ call.filePath = entry.2.filePath ∧
        call.firstLine ≤ index ∧ call.lines[index - call.firstLine]? = some line

theorem Delivering.doneFilesAccepted (delivering : spool.Delivering)
    (consistent : spool.Consistent) : spool.DoneFilesAccepted := by
  intro entry member
  obtain ⟨file, stored, flag⟩ := delivering.done entry member
  refine ⟨file, stored, fun index line written => ?_⟩
  obtain ⟨below, _⟩ := List.getElem?_eq_some_iff.mp written
  obtain ⟨call, seen, accepted, path, first, last⟩ :=
    delivering.archived _ file stored flag index below
  refine ⟨call, seen, accepted, path, first, ?_⟩
  obtain ⟨source, sameFile, bounded, front, split⟩ := consistent.called call seen
  rw [path, stored] at sameFile
  rw [← Option.some.inj sameFile] at bounded split
  have sizes := congrArg List.length split
  simp only [List.length_append, List.length_take, Nat.min_eq_left bounded] at sizes
  have start : call.firstLine = front.length := by
    unfold LogCall.firstLine
    omega
  have read : (file.lines.take call.currLine)[index]? = some line := by
    rw [List.getElem?_take_of_lt last]
    exact written
  rw [← split, List.getElem?_append_right (start ▸ first)] at read
  rw [start]
  exact read

theorem delivering_new : ({} : AuditFileSpool).Delivering where
  positions := by
    intro id record listed
    obtain impossible | impossible := listed <;> cases impossible
  archived := by
    intro path file impossible
    cases impossible
  done := by
    intro entry impossible
    cases impossible

/-- **No audit is lost.** In a run in which no call of `logJSON` throws, a file
leaves the index as done only when the consumer accepted every line of it,
wherever the process is restarted. -/
theorem doneFilesAccepted_of_returned (maxBatchSize : Nat) (events : List Event)
    (returned : ∀ event ∈ events, event ≠ .logJSON .threw) :
    ∀ done rest, events = done ++ rest → (run maxBatchSize done).DoneFilesAccepted := by
  have within : ∀ done event rest, events = done ++ event :: rest → event ≠ .logJSON .threw :=
    fun _ event _ split => returned event (split ▸ List.mem_append_right _ List.mem_cons_self)
  have always := @Run.forall_prefix_of_allowed _ _ _
    (fun spool event => ((), AuditFileSpool.step maxBatchSize spool event))
    (fun spool => spool.Consistent ∧ spool.KeepsStep ∧ spool.Delivering)
    (fun _ event => event ≠ .logJSON .threw)
    (fun _ event ⟨consistent, keeps, delivering⟩ last =>
      ⟨consistent.step maxBatchSize event, keeps.step consistent maxBatchSize last,
        delivering.step consistent keeps maxBatchSize last⟩)
    {} ⟨consistent_new, keepsStep_of_looping rfl, delivering_new⟩ events within
  intro done rest split
  obtain ⟨consistent, _, delivering⟩ := always done rest split
  exact delivering.doneFilesAccepted consistent

end Delivery

section Lost

/-- Three lines in batches of two: the consumer throws at the first batch and takes
the second one. -/
def exceptionRun : List Event :=
  [.stashLogs ["login", "read", "logout"] false "1" "spool.log", .turn true, .turn false,
    .logJSON .threw, .logJSON .accepted, .saveIndexFile, .appendToDoneFile]

/-- The file is done although the consumer took its last line only. -/
theorem exception_loses_lines : ¬ (run 2 exceptionRun).DoneFilesAccepted := by
  intro delivered
  have done : (run 2 exceptionRun).indexDoneFile =
      [("1", ⟨"spool.log", 3, .done, 0, true⟩)] := by decide
  have written : (run 2 exceptionRun).files.get? "spool.log" =
      some ⟨["login", "read", "logout"], true⟩ := by decide
  have taken : ∀ call ∈ (run 2 exceptionRun).calls, call.result = .accepted →
      ∀ index : Fin 3, call.lines[index]? ≠ some "login" := by decide
  obtain ⟨file, stored, accepted⟩ := delivered _ (done ▸ List.mem_singleton.mpr rfl)
  rw [written] at stored
  obtain ⟨call, seen, result, _, _, line⟩ := accepted 0 "login" (Option.some.inj stored ▸ rfl)
  exact taken call seen result ⟨0, by omega⟩ (by simpa using line)

/-- Both batches are taken behind a restart that loses the first answer. -/
theorem restart_loses_nothing :
    (run 2
      [.stashLogs ["login", "read", "logout"] false "1" "spool.log", .turn true, .turn false,
        .logJSON .accepted, .restart, .turn false, .logJSON .refused, .turn false,
        .logJSON .accepted, .saveIndexFile, .logJSON .accepted, .saveIndexFile,
        .appendToDoneFile]).DoneFilesAccepted :=
  doneFilesAccepted_of_returned 2 _ (by decide) _ [] (List.append_nil _).symm

end Lost

end AuditFileSpool

end Ranger

import Ranger.Audit.SpoolDelivery

/-! # Spooled audits are sent once unless a file is resumed

The line position of a record counts the lines of its file the consumer has
accepted. A file that is opened again is read from the last accepted line on, so
a line is sent twice exactly when a file is opened behind an accepted line.
-/

namespace Ranger

open Foundation

namespace AuditFileSpool

section Resuming

variable {spool : AuditFileSpool}

/-- The line position of a record counts the accepted lines of its file. -/
def CountsAccepted (spool : AuditFileSpool) (record : AuditIndexRecord) : Prop :=
  ∀ index, spool.Accepted record.filePath index ↔ index < record.linePosition

/-- Line positions are exact, on disk too unless an accepted batch is still to be
saved. -/
structure Exact (spool : AuditFileSpool) : Prop where
  memory : ∀ id record, spool.indexRecords.get? id = some record → spool.CountsAccepted record
  disk : (∀ reader, spool.destinationThread ≠ .saving reader) →
    ∀ id record, spool.indexFile.get? id = some record → spool.CountsAccepted record

/-- No line was in two accepted batches. -/
def SentOnce (spool : AuditFileSpool) : Prop :=
  spool.calls.Pairwise fun earlier later => earlier.result = .accepted →
    later.result = .accepted → ∀ filePath index,
      ¬ (earlier.IsFor filePath index ∧ later.IsFor filePath index)

/-- The batch about to be sent begins with the first line that was not accepted. -/
def SendsFirstUnaccepted (spool : AuditFileSpool) : Prop :=
  ∀ reader record, spool.destinationThread = .sending reader →
    spool.consumerRecord = some record →
      (∀ index < reader.first, spool.Accepted record.filePath index) ∧
        ¬ spool.Accepted record.filePath reader.first

theorem CountsAccepted.next {before record : AuditIndexRecord}
    (counts : spool.CountsAccepted before) {next : AuditFileSpool}
    (calls : next.calls = spool.calls) (path : before.filePath = record.filePath)
    (position : before.linePosition = record.linePosition) : next.CountsAccepted record := by
  intro index
  unfold Accepted
  rw [calls, ← path, ← position]
  exact counts index

/-- No line of a new file was accepted. -/
theorem Consistent.countsAccepted_new (consistent : spool.Consistent) {record : AuditIndexRecord}
    (position : record.linePosition = 0)
    (absent : spool.files.get? record.filePath = none) : spool.CountsAccepted record := by
  intro index
  constructor
  · intro ⟨call, seen, _, path, _⟩
    obtain ⟨file, stored, _⟩ := consistent.called call seen
    rw [path, absent] at stored
    cases stored
  · intro below
    omega

theorem Consistent.countsAccepted_from (consistent : spool.Consistent)
    {source : AuditIndexRecord → Prop} (counts : ∀ before, source before →
      spool.CountsAccepted before) {record : AuditIndexRecord}
    (comes : spool.ComesFrom source record) {next : AuditFileSpool}
    (calls : next.calls = spool.calls) : next.CountsAccepted record := by
  obtain ⟨position, absent⟩ | ⟨before, found, path, position⟩ := comes
  · exact (consistent.countsAccepted_new position absent).next calls rfl rfl
  · exact (counts before found).next calls path position

theorem Exact.unread (counts : spool.Exact) (consistent : spool.Consistent)
    {next : AuditFileSpool} (unread : Unread spool next) : next.Exact where
  memory := fun id record found =>
    consistent.countsAccepted_from (counts.memory id) (unread.memory id record found) unread.calls
  disk := by
    intro saved id record found
    rw [unread.thread] at saved
    refine consistent.countsAccepted_from ?_ (unread.listed id record (Or.inr found)) unread.calls
    intro before listed
    exact listed.elim (counts.memory id before) (counts.disk saved id before)

theorem Exact.poll (counts : spool.Exact) : spool.poll.Exact := by
  unfold AuditFileSpool.poll
  split
  · exact ⟨counts.memory, counts.disk⟩
  · exact counts

/-- Reading on changes a status only. -/
theorem exact_readOn (maxBatchSize : Nat) {id : String} {record : AuditIndexRecord}
    {file : SpoolFile} (read : spool.IsRead id record file)
    (memory : ∀ id record, spool.indexRecords.get? id = some record → spool.CountsAccepted record)
    (disk : ∀ id record, spool.indexFile.get? id = some record → spool.CountsAccepted record)
    (startLine currLine : Nat) (unread : List String) :
    (spool.readOn maxBatchSize startLine currLine unread).Exact := by
  obtain ⟨_, sending⟩ | ⟨_, finished⟩ :=
    readOn_cases maxBatchSize startLine currLine unread read.current
  · rw [sending]
    exact ⟨memory, fun _ => disk⟩
  · rw [finished, changeRecord_of_found read.listed]
    refine ⟨?_, fun _ => disk⟩
    intro other otherRecord found
    have now := (AssocMap.get?_put spool.indexRecords id other _).symm.trans found
    split at now
    · rw [← Option.some.inj now]
      exact (memory id record read.listed).next rfl rfl rfl
    · exact memory other otherRecord now

theorem Exact.turn (counts : spool.Exact) (consistent : spool.Consistent)
    (looping : spool.destinationThread = .looping) (maxBatchSize : Nat) (expired : Bool) :
    (spool.turn maxBatchSize expired).Exact := by
  have polled := consistent.poll looping
  have idle : ∀ reader, spool.poll.destinationThread ≠ .saving reader := by
    intro reader saving
    rw [poll_destinationThread, looping] at saving
    cases saving
  obtain ⟨_, closed⟩ | ⟨id, record, _, _, ⟨file, read, opened⟩ | ⟨_, missing⟩⟩ :=
    turn_cases maxBatchSize expired spool
  · rw [closed]
    exact counts.poll.unread polled (polled.unread_closeFileIfNeeded expired)
  · rw [opened]
    exact exact_readOn maxBatchSize read counts.poll.memory (counts.poll.disk idle) _ _ _
  · rw [missing]
    exact ⟨counts.poll.memory, fun _ => counts.poll.disk idle⟩

/-- The lines accepted with one more accepted call. -/
theorem accepted_addCall_iff (call : LogCall) (path : String) (index : Nat) :
    { spool with calls := spool.calls ++ [call] }.Accepted path index ↔
      spool.Accepted path index ∨ (call.result = .accepted ∧ call.IsFor path index) := by
  unfold Accepted
  simp only [List.mem_append, List.mem_singleton]
  constructor
  · intro ⟨other, seen, accepted, isFor⟩
    obtain before | rfl := seen
    · exact Or.inl ⟨other, before, accepted, isFor⟩
    · exact Or.inr ⟨accepted, isFor⟩
  · intro either
    obtain ⟨other, before, rest⟩ | last := either
    · exact ⟨other, Or.inl before, rest⟩
    · exact ⟨call, Or.inr rfl, last⟩

theorem Exact.sendEvent (counts : spool.Exact) (consistent : spool.Consistent)
    (keeps : spool.KeepsStep) {reader : Reader}
    (sending : spool.destinationThread = .sending reader) (maxBatchSize : Nat)
    {result : LogResult} (returned : result ≠ .threw) :
    (spool.sendEvent maxBatchSize reader result).Exact := by
  obtain ⟨nonempty, id, record, file, read, reads⟩ := consistent.reading reader (Or.inl sending)
  have position := (keeps id record file read.current read.listed read.stored).sending
    reader sending
  have step := reads.first_lt nonempty
  have start : reader.first = reader.currLine - reader.lines.length := if_neg nonempty
  rw [sendEvent_eq maxBatchSize reader result read.current read.listed]
  cases result with
  | accepted =>
      refine ⟨?_, fun saved => absurd rfl (saved reader)⟩
      intro other otherRecord found index
      refine (accepted_addCall_iff ⟨record.filePath, reader.currLine, reader.lines, .accepted⟩
        otherRecord.filePath index).trans ?_
      have now := (AssocMap.get?_put spool.indexRecords id other _).symm.trans found
      split at now
      · rw [← Option.some.inj now]
        change spool.Accepted record.filePath index ∨
          (LogResult.accepted = .accepted ∧ record.filePath = record.filePath ∧
            reader.currLine - reader.lines.length ≤ index ∧ index < reader.currLine) ↔
          index < reader.currLine
        rw [counts.memory id record read.listed index]
        simp only [true_and]
        omega
      · next different =>
          have apart : record.filePath ≠ otherRecord.filePath := by
            intro same
            exact different
              (consistent.own _ _ _ _ (Or.inl read.listed) (Or.inl now) same).symm
          rw [counts.memory other otherRecord now index]
          simp [LogCall.IsFor, apart]
  | refused =>
      let call : LogCall := ⟨record.filePath, reader.currLine, reader.lines, .refused⟩
      have unchanged : ∀ path index,
          { spool with calls := spool.calls ++ [call] }.Accepted path index ↔
            spool.Accepted path index := by
        intro path index
        rw [accepted_addCall_iff]
        simp [call]
      have memory : ∀ other otherRecord,
          (spool.indexRecords.put id { record with
            failedAttemptCount := record.failedAttemptCount + 1
            lastAttempt := false }).get? other = some otherRecord →
          ∀ index, spool.Accepted otherRecord.filePath index ↔
            index < otherRecord.linePosition := by
        intro other otherRecord found
        rw [AssocMap.get?_put] at found
        split at found
        · rw [← Option.some.inj found]
          exact counts.memory id record read.listed
        · exact counts.memory other otherRecord found
      refine ⟨?_, fun _ => ?_⟩
      · exact fun other otherRecord found index =>
          (unchanged _ index).trans (memory other otherRecord found index)
      · exact fun other otherRecord found index =>
          (unchanged _ index).trans (memory other otherRecord found index)
  | threw => exact absurd rfl returned

/-- The steps in question: calls return, and a process is restarted once an accepted
batch has been saved. -/
def ReturnsAndSaves (spool : AuditFileSpool) (event : Event) : Prop :=
  event ≠ .logJSON .threw ∧
    (event = .restart → ∀ reader, spool.destinationThread ≠ .saving reader)

theorem Exact.step (counts : spool.Exact) (consistent : spool.Consistent)
    (keeps : spool.KeepsStep) (maxBatchSize : Nat) {event : Event}
    (allowed : spool.ReturnsAndSaves event) : (spool.step maxBatchSize event).Exact := by
  obtain ⟨returned, saved⟩ := allowed
  unfold AuditFileSpool.step
  split
  · exact ⟨counts.disk (saved rfl), fun _ => counts.disk (saved rfl)⟩
  · exact counts
  · next _ lines expired id fileName _ =>
      split
      · next unused =>
          exact counts.unread consistent (consistent.unread_stashLogs unused lines expired)
      · exact counts
  · next looping => exact counts.turn consistent looping maxBatchSize _
  · next sending =>
      refine counts.sendEvent consistent keeps sending maxBatchSize ?_
      exact fun threw => returned (threw ▸ rfl)
  · next saving =>
      obtain ⟨_, id, record, file, read, _⟩ := consistent.reading _ (Or.inr saving)
      have savedRead : spool.saveIndexFile.IsRead id record file :=
        ⟨read.current, read.listed, read.stored, read.present⟩
      exact exact_readOn maxBatchSize savedRead counts.memory counts.memory _ _ _
  · next removing =>
      have idle : ∀ reader, spool.destinationThread ≠ .saving reader := by
        intro reader saving
        rw [removing] at saving
        cases saving
      obtain unchanged | ⟨id, record, _, _, removed⟩ := appendToDoneFile_cases spool
      · rwa [unchanged]
      · rw [removed]
        refine ⟨?_, fun _ => counts.disk idle⟩
        intro other otherRecord found
        have now := (AssocMap.get?_filterKeys ..).symm.trans found
        split at now
        · exact counts.memory other otherRecord now
        · cases now
  · next removed =>
      have finished : { spool.saveIndexFile with
          currentConsumerIndexRecord := none
          destinationThread := .looping }.Exact := ⟨counts.memory, fun _ => counts.memory⟩
      exact finished.unread consistent.removed (consistent.removed.unread_closeFileIfNeeded _)
  · exact counts

/-- The batch about to be sent begins at the line position of the record. -/
def SendsFromPosition (spool : AuditFileSpool) : Prop :=
  ∀ reader record, spool.destinationThread = .sending reader →
    spool.consumerRecord = some record → reader.first = record.linePosition

theorem Exact.sendsFirstUnaccepted_iff (counts : spool.Exact) :
    spool.SendsFirstUnaccepted ↔ spool.SendsFromPosition := by
  refine forall₂_congr fun reader record => forall₂_congr fun _ current => ?_
  obtain ⟨id, _, found⟩ := consumerRecord_eq_some current
  have exactly := counts.memory id record found
  constructor
  · intro ⟨before, here⟩
    rw [exactly] at here
    by_contra different
    have below : reader.first - 1 < reader.first := by omega
    have accepted := (exactly _).mp (before _ below)
    omega
  · intro same
    rw [exactly, same]
    exact ⟨fun index below => (exactly index).mpr below, Nat.lt_irrefl _⟩

/-- A file is opened for reading only before the first of its batches is accepted. -/
def OpensAtStart (spool : AuditFileSpool) (event : Event) : Prop :=
  ∀ expired record, event = .turn expired → spool.destinationThread = .looping →
    spool.poll.consumerRecord = some record → spool.poll.fileExists record.filePath = true →
      record.linePosition = 0

theorem SendsFromPosition.unread (sends : spool.SendsFromPosition) {next : AuditFileSpool}
    (unread : Unread spool next) : next.SendsFromPosition := by
  intro reader record sending current
  obtain ⟨id, now, found⟩ := consumerRecord_eq_some current
  rw [unread.current] at now
  rw [unread.record id now] at found
  apply sends reader record (unread.thread ▸ sending)
  simp only [consumerRecord, now, Option.bind_some, found]

theorem sendsFromPosition_of_thread {thread : DestinationThread}
    (now : spool.destinationThread = thread) (other : ∀ reader, thread ≠ .sending reader) :
    spool.SendsFromPosition := by
  intro reader _ sending
  exact absurd (now.symm.trans sending) (other reader)

/-- Reading on sends from the line position exactly when it is where reading begins. -/
theorem sendsFromPosition_readOn_iff (maxBatchSize : Nat) {id : String}
    {record : AuditIndexRecord} {file : SpoolFile} (read : spool.IsRead id record file)
    {startLine currLine : Nat} {unread : List String}
    (reads : Reader.Reads ⟨startLine, currLine, [], unread⟩ file.lines)
    (bounded : record.linePosition ≤ file.lines.length)
    (low : max currLine (startLine - 1) ≤ record.linePosition) :
    (spool.readOn maxBatchSize startLine currLine unread).SendsFromPosition ↔
      max currLine (startLine - 1) = record.linePosition := by
  obtain ⟨_, _, first, complete⟩ := Reader.fill_reads maxBatchSize _ _ _ _ reads
  have begins : (Reader.fill maxBatchSize startLine currLine [] unread).first =
      max currLine (startLine - 1) := first
  obtain ⟨_, sending⟩ | ⟨empty, finished⟩ :=
    readOn_cases maxBatchSize startLine currLine unread read.current
  · have current : spool.consumerRecord = some record := by
      simp only [consumerRecord, read.current, Option.bind_some, read.listed]
    rw [sending, ← begins]
    constructor
    · intro sends
      exact sends _ record rfl current
    · intro same reader other now found
      rw [← DestinationThread.sending.inj now, same]
      exact congrArg _ (Option.some.inj (current.symm.trans found))
  · have whole := complete empty
    simp only [Reader.first, empty, ↓reduceIte] at begins
    rw [finished]
    refine iff_of_true (sendsFromPosition_of_thread rfl (by simp)) ?_
    omega

/-- A turn goes on sending from the line position exactly when it opens a file at its
start. -/
theorem sendsFromPosition_turn_iff (consistent : spool.Consistent)
    (looping : spool.destinationThread = .looping) (maxBatchSize : Nat) (expired : Bool) :
    (spool.turn maxBatchSize expired).SendsFromPosition ↔ spool.OpensAtStart (.turn expired) := by
  have polled := consistent.poll looping
  obtain ⟨idle, closed⟩ | ⟨id, record, current, memory, ⟨file, read, opened⟩ | ⟨gone, missing⟩⟩ :=
    turn_cases maxBatchSize expired spool
  · rw [closed]
    apply iff_of_true
    · have still := (polled.unread_closeFileIfNeeded expired).thread
      rw [poll_destinationThread, looping] at still
      exact sendsFromPosition_of_thread still (by simp)
    · intro _ record _ _ found
      rw [idle] at found
      cases found
  · have now : spool.poll.consumerRecord = some record := by
      simp only [consumerRecord, current, Option.bind_some, memory]
    have present : spool.poll.fileExists record.filePath = true := by
      simp [fileExists, read.stored, read.present]
    rw [opened, sendsFromPosition_readOn_iff maxBatchSize read (reads_opened _ _)
      (polled.position_le (Or.inl memory) file read.stored) (by omega)]
    constructor
    · intro same _ other _ _ found _
      rw [← Option.some.inj (now.symm.trans found)]
      omega
    · intro starts
      have zero := starts expired record rfl looping now present
      omega
  · rw [missing]
    refine iff_of_true (sendsFromPosition_of_thread rfl (by simp)) ?_
    intro _ other _ _ found present
    have now : spool.poll.consumerRecord = some record := by
      simp only [consumerRecord, current, Option.bind_some, memory]
    rw [← Option.some.inj (now.symm.trans found)] at present
    unfold fileExists at present
    cases stored : spool.poll.files.get? record.filePath with
    | none => simp [stored] at present
    | some file => simp [stored, gone file stored] at present

/-- A step that opens no file leaves the thread sending from the line position. -/
theorem SendsFromPosition.step_iff (sends : spool.SendsFromPosition)
    (consistent : spool.Consistent) (keeps : spool.KeepsStep) (maxBatchSize : Nat) {event : Event}
    (allowed : spool.ReturnsAndSaves event) :
    (spool.step maxBatchSize event).SendsFromPosition ↔ spool.OpensAtStart event := by
  have closed : (∀ expired, event ≠ .turn expired) → spool.OpensAtStart event :=
    fun other expired _ same => absurd same (other expired)
  unfold AuditFileSpool.step
  split
  · exact iff_of_true (sendsFromPosition_of_thread rfl nofun) (closed nofun)
  · exact iff_of_true sends (closed nofun)
  · next _ lines expired id fileName _ =>
      refine iff_of_true ?_ (closed nofun)
      split
      · next unused => exact sends.unread (consistent.unread_stashLogs unused lines expired)
      · exact sends
  · next looping => exact sendsFromPosition_turn_iff consistent looping maxBatchSize _
  · next result reader sending =>
      refine iff_of_true ?_ (closed nofun)
      obtain ⟨_, id, record, file, read, _⟩ := consistent.reading reader (Or.inl sending)
      rw [sendEvent_eq maxBatchSize reader result read.current read.listed]
      cases result with
      | accepted => exact sendsFromPosition_of_thread rfl nofun
      | refused => exact sendsFromPosition_of_thread rfl nofun
      | threw => exact absurd rfl allowed.1
  · next reader saving =>
      refine iff_of_true ?_ (closed nofun)
      obtain ⟨nonempty, id, record, file, read, reads⟩ := consistent.reading reader (Or.inr saving)
      have position := (keeps id record file read.current read.listed read.stored).saving reader
        saving
      have started := reads.started nonempty
      have savedRead : spool.saveIndexFile.IsRead id record file :=
        ⟨read.current, read.listed, read.stored, read.present⟩
      exact (sendsFromPosition_readOn_iff maxBatchSize savedRead reads.cleared
        (position ▸ reads.bounded) (by omega)).mpr (by omega)
  · next removing =>
      refine iff_of_true ?_ (closed nofun)
      obtain unchanged | ⟨_, _, _, _, removed⟩ := appendToDoneFile_cases spool
      · rwa [unchanged]
      · rw [removed]
        exact sendsFromPosition_of_thread rfl nofun
  · next expired removed =>
      refine iff_of_true ?_ (closed nofun)
      have still := (consistent.removed.unread_closeFileIfNeeded expired).thread
      exact sendsFromPosition_of_thread still nofun
  · next noTurn _ _ _ _ =>
      exact iff_of_true sends fun expired _ same looping => (noTurn expired same looping).elim

theorem calls_closeFileIfNeeded (expired : Bool) :
    (spool.closeFileIfNeeded expired).calls = spool.calls := by
  obtain unchanged | ⟨id, _, closed⟩ := closeFileIfNeeded_cases expired spool
  · rw [unchanged]
  · rw [closed]
    unfold changeRecord
    split <;> rfl

theorem calls_readOn (maxBatchSize startLine currLine : Nat) (unread : List String) :
    (spool.readOn maxBatchSize startLine currLine unread).calls = spool.calls := by
  unfold readOn changeRecord
  dsimp only
  split
  · split
    · rfl
    · split <;> rfl
  · rfl

theorem calls_turn (maxBatchSize : Nat) (expired : Bool) :
    (spool.turn maxBatchSize expired).calls = spool.calls := by
  have polled : spool.poll.calls = spool.calls := by
    unfold poll
    split <;> rfl
  obtain ⟨_, closed⟩ | ⟨_, _, _, _, ⟨_, _, opened⟩ | ⟨_, missing⟩⟩ :=
    turn_cases maxBatchSize expired spool
  · rw [closed, calls_closeFileIfNeeded, polled]
  · rw [opened, calls_readOn, polled]
  · rw [missing, polled]

/-- Another call, or none: batches that begin behind the accepted lines are new. -/
theorem SentOnce.sendEvent (once : spool.SentOnce) (counts : spool.Exact)
    (sends : spool.SendsFromPosition) (consistent : spool.Consistent) {reader : Reader}
    (sending : spool.destinationThread = .sending reader) (maxBatchSize : Nat)
    {result : LogResult} (returned : result ≠ .threw) :
    (spool.sendEvent maxBatchSize reader result).SentOnce := by
  obtain ⟨nonempty, id, record, file, read, _⟩ := consistent.reading reader (Or.inl sending)
  have current : spool.consumerRecord = some record := by
    simp only [consumerRecord, read.current, Option.bind_some, read.listed]
  have first := sends reader record sending current
  have start : reader.first = reader.currLine - reader.lines.length := if_neg nonempty
  have called : (spool.sendEvent maxBatchSize reader result).calls =
      spool.calls ++ [⟨record.filePath, reader.currLine, reader.lines, result⟩] := by
    rw [sendEvent_eq maxBatchSize reader result read.current read.listed]
    cases result with
    | accepted => rfl
    | refused => rfl
    | threw => exact absurd rfl returned
  unfold SentOnce
  rw [called]
  refine List.pairwise_append.mpr ⟨once, List.pairwise_singleton _ _, ?_⟩
  intro earlier seen later last accepted _ filePath index
  rw [List.mem_singleton.mp last]
  intro sent
  obtain ⟨before, path, behind, _⟩ := sent
  have samePath : record.filePath = filePath := path
  have already := (counts.memory id record read.listed index).mp
    ⟨earlier, seen, accepted, samePath ▸ before⟩
  change reader.currLine - reader.lines.length ≤ index at behind
  omega

theorem SentOnce.step (once : spool.SentOnce) (counts : spool.Exact)
    (sends : spool.SendsFromPosition) (consistent : spool.Consistent) (maxBatchSize : Nat)
    {event : Event} (allowed : spool.ReturnsAndSaves event) :
    (spool.step maxBatchSize event).SentOnce := by
  have same : ∀ next : AuditFileSpool, next.calls = spool.calls → next.SentOnce := by
    intro next calls
    unfold SentOnce
    rwa [calls]
  unfold AuditFileSpool.step
  split
  · exact once
  · exact once
  · next _ lines expired id fileName _ =>
      split
      · next unused => exact same _ (consistent.unread_stashLogs unused lines expired).calls
      · exact once
  · exact same _ (calls_turn maxBatchSize _)
  · next sending =>
      refine once.sendEvent counts sends consistent sending maxBatchSize ?_
      exact fun threw => allowed.1 (threw ▸ rfl)
  · exact same _ (calls_readOn maxBatchSize _ _ _)
  · obtain unchanged | ⟨_, _, _, _, removed⟩ := appendToDoneFile_cases spool
    · rwa [unchanged]
    · rw [removed]
      exact once
  · exact same _ (calls_closeFileIfNeeded _)
  · exact once

/-- **No audit is sent twice.** In a run whose calls return and whose restarts find
the accepted batches saved, no line is accepted twice and every batch begins with
the first line that was not accepted, exactly when no file is opened behind an
accepted batch. -/
theorem sentOnce_iff (maxBatchSize : Nat) (events : List Event)
    (allowed : ∀ done event rest, events = done ++ event :: rest →
      (run maxBatchSize done).ReturnsAndSaves event) :
    (∀ done rest, events = done ++ rest →
      (run maxBatchSize done).SentOnce ∧ (run maxBatchSize done).SendsFirstUnaccepted) ↔
      ∀ done event rest, events = done ++ event :: rest →
        (run maxBatchSize done).OpensAtStart event := by
  have exact_new : ({} : AuditFileSpool).Exact := by
    refine ⟨?_, fun _ => ?_⟩
    · intro id record impossible
      cases impossible
    · intro id record impossible
      cases impossible
  refine @Run.forall_prefix_iff_of_allowed _ _ _
    (fun spool event => ((), AuditFileSpool.step maxBatchSize spool event))
    (fun spool => spool.Consistent ∧ spool.KeepsStep ∧ spool.Exact)
    (fun spool => spool.SentOnce ∧ spool.SendsFirstUnaccepted)
    ReturnsAndSaves OpensAtStart ?_ ?_ {} ?_ ?_ events allowed
  · intro spool event ⟨consistent, keeps, counts⟩ last
    exact ⟨consistent.step maxBatchSize event, keeps.step consistent maxBatchSize last.1,
      counts.step consistent keeps maxBatchSize last⟩
  · intro spool event ⟨consistent, keeps, counts⟩ last ⟨once, first⟩
    have sends := counts.sendsFirstUnaccepted_iff.mp first
    have next := counts.step consistent keeps maxBatchSize last
    change (spool.step maxBatchSize event).SentOnce ∧
      (spool.step maxBatchSize event).SendsFirstUnaccepted ↔ spool.OpensAtStart event
    rw [next.sendsFirstUnaccepted_iff, ← sends.step_iff consistent keeps maxBatchSize last]
    exact and_iff_right (once.step counts sends consistent maxBatchSize last)
  · exact ⟨consistent_new, keepsStep_of_looping rfl, exact_new⟩
  · refine ⟨List.Pairwise.nil, exact_new.sendsFirstUnaccepted_iff.mpr ?_⟩
    exact sendsFromPosition_of_thread rfl nofun

end Resuming

section Retry

/-- Three lines in batches of two: the first batch is taken, the second one is
refused and tried again. -/
def retryRun : List Event :=
  [.stashLogs ["login", "read", "logout"] false "1" "spool.log", .turn true, .turn false,
    .logJSON .accepted, .saveIndexFile, .logJSON .refused, .turn false, .logJSON .accepted]

/-- The second line of the file is in both accepted batches. -/
theorem retry_sends_line_twice : ¬ (run 2 retryRun).SentOnce := by
  have calls : (run 2 retryRun).calls =
      [⟨"spool.log", 2, ["login", "read"], .accepted⟩,
        ⟨"spool.log", 3, ["logout"], .refused⟩,
        ⟨"spool.log", 3, ["read", "logout"], .accepted⟩] := by decide
  intro once
  unfold SentOnce at once
  rw [calls] at once
  obtain ⟨first, _⟩ := List.pairwise_cons.mp once
  refine first ⟨"spool.log", 3, ["read", "logout"], .accepted⟩ (by simp) rfl rfl "spool.log" 1 ?_
  unfold LogCall.IsFor LogCall.firstLine
  decide

theorem retry_sentOnce_iff :
    (∀ done rest, retryRun = done ++ rest →
      (run 2 done).SentOnce ∧ (run 2 done).SendsFirstUnaccepted) ↔
      ∀ done event rest, retryRun = done ++ event :: rest → (run 2 done).OpensAtStart event := by
  have events : ∀ event ∈ retryRun, event ≠ .logJSON .threw ∧ event ≠ .restart := by decide
  refine sentOnce_iff 2 retryRun fun done event rest split => ?_
  obtain ⟨returned, runs⟩ :=
    events event (split ▸ List.mem_append_right _ List.mem_cons_self)
  exact ⟨returned, fun restarted => absurd restarted runs⟩

end Retry

end AuditFileSpool

end Ranger

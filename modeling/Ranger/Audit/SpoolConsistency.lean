import Ranger.Audit.FileSpool

/-! # What holds of a spool in every run

Records lead to files of their own, the file that is written is neither queued
nor read, and a batch consists of the lines up to the current one. None of this
depends on what the consumer answers or on where the process is restarted.
-/

namespace Ranger

open Foundation

namespace Reader

/-- The variables of the loop after reading some lines of a file. -/
structure Reads (reader : Reader) (written : List String) : Prop where
  bounded : reader.currLine ≤ written.length
  unread : reader.unread = written.drop reader.currLine
  lines : reader.lines <:+ written.take reader.currLine
  started : reader.lines ≠ [] → reader.startLine ≤ reader.currLine

/-- The number of lines before those of the next batch. -/
def first (reader : Reader) : Nat :=
  if reader.lines = [] then max reader.currLine (reader.startLine - 1)
  else reader.currLine - reader.lines.length

/-- Filling a batch leaves off where lines are read, and does not move its first line. -/
theorem fill_reads (maxBatchSize : Nat) {written : List String} (startLine currLine : Nat)
    (lines unread : List String) (reads : Reads ⟨startLine, currLine, lines, unread⟩ written) :
    let filled := fill maxBatchSize startLine currLine lines unread
    filled.Reads written ∧ filled.startLine = startLine ∧
      filled.first = first ⟨startLine, currLine, lines, unread⟩ ∧
      (filled.lines = [] → filled.currLine = written.length) := by
  induction unread generalizing currLine lines with
  | nil =>
      refine ⟨reads, rfl, rfl, fun _ => ?_⟩
      have rest : written.drop currLine = [] := reads.unread.symm
      have bounded : currLine ≤ written.length := reads.bounded
      exact Nat.le_antisymm bounded (List.drop_eq_nil_iff.mp rest)
  | cons line rest ih =>
      have more : line :: rest = written.drop currLine := reads.unread
      have inside : currLine < written.length := by
        by_contra outside
        rw [List.drop_eq_nil_of_le (Nat.le_of_not_lt outside)] at more
        cases more
      rw [List.drop_eq_getElem_cons inside] at more
      obtain ⟨rfl, rfl⟩ := List.cons.inj more
      have longer : written.take (currLine + 1) = written.take currLine ++ [written[currLine]] :=
        List.take_succ_eq_append_getElem inside
      unfold fill
      by_cases skipped : currLine + 1 < startLine
      · rw [if_pos skipped]
        have noLines : lines = [] := by
          by_contra some_lines
          have started : startLine ≤ currLine := reads.started some_lines
          omega
        subst noLines
        obtain ⟨last, start, kept, complete⟩ := ih (currLine + 1) []
          ⟨inside, rfl, List.nil_suffix, fun impossible => absurd rfl impossible⟩
        refine ⟨last, start, kept.trans ?_, complete⟩
        simp only [first, ↓reduceIte]
        omega
      · rw [if_neg skipped]
        have extended : Reads ⟨startLine, currLine + 1, lines ++ [written[currLine]],
            written.drop (currLine + 1)⟩ written := by
          refine ⟨inside, rfl, ?_, fun _ => by simpa using skipped⟩
          obtain ⟨front, split⟩ := reads.lines
          refine ⟨front, ?_⟩
          change front ++ (lines ++ [written[currLine]]) = written.take (currLine + 1)
          rw [longer, ← List.append_assoc, split]
        have sameFirst : first ⟨startLine, currLine + 1, lines ++ [written[currLine]],
            written.drop (currLine + 1)⟩ =
            first ⟨startLine, currLine, lines, written[currLine] :: written.drop (currLine + 1)⟩ := by
          by_cases noLines : lines = []
          · simp only [first, noLines, List.nil_append, List.cons_ne_self, ↓reduceIte,
              List.length_singleton]
            omega
          · simp only [first, noLines, List.append_eq_nil_iff, false_and, ↓reduceIte,
              List.length_append, List.length_singleton]
            omega
        by_cases full : (lines ++ [written[currLine]]).length = maxBatchSize
        · rw [if_pos full]
          exact ⟨extended, rfl, sameFirst, fun none => by simp at none⟩
        · rw [if_neg full]
          obtain ⟨last, start, kept, complete⟩ := ih (currLine + 1) _ extended
          exact ⟨last, start, kept.trans sameFirst, complete⟩

theorem Reads.first_lt {reader : Reader} {written : List String} (reads : reader.Reads written)
    (nonempty : reader.lines ≠ []) : reader.first < reader.currLine := by
  have suffix := reads.lines.length_le
  have some_lines := List.length_pos_iff.mpr nonempty
  rw [List.length_take, Nat.min_eq_left reads.bounded] at suffix
  simp only [first, nonempty, ↓reduceIte]
  omega

/-- The loop behind a batch that was dealt with. -/
theorem Reads.cleared {reader : Reader} {written : List String} (reads : reader.Reads written) :
    Reads ⟨reader.startLine, reader.currLine, [], reader.unread⟩ written :=
  ⟨reads.bounded, reads.unread, List.nil_suffix, fun impossible => absurd rfl impossible⟩

end Reader

namespace AuditFileSpool

variable (spool : AuditFileSpool)

/-- The index has the record, in memory or on disk. -/
def Listed (id : String) (record : AuditIndexRecord) : Prop :=
  spool.indexRecords.get? id = some record ∨ spool.indexFile.get? id = some record

/-- The file the destination thread reads, with its record. -/
structure IsRead (id : String) (record : AuditIndexRecord) (file : SpoolFile) : Prop where
  current : spool.currentConsumerIndexRecord = some id
  listed : spool.indexRecords.get? id = some record
  stored : spool.files.get? record.filePath = some file
  present : file.archived = false

/-- A batch has been read from the file of the current record. -/
def ReadsFile (reader : Reader) : Prop :=
  reader.lines ≠ [] ∧ ∃ id record file, spool.IsRead id record file ∧ reader.Reads file.lines

/-- There is no batch where the destination thread has none. -/
theorem no_batch {thread : DestinationThread} {holds : Reader → Prop}
    (idle : thread = .looping ∨ thread = .removing ∨ thread = .removed) :
    ∀ reader, thread = .sending reader ∨ thread = .saving reader → holds reader := by
  intro reader phase
  obtain rfl | rfl | rfl := idle <;> obtain impossible | impossible := phase <;>
    nomatch impossible

structure Consistent : Prop where
  filed : ∀ id record, spool.Listed id record →
    ∃ file, spool.files.get? record.filePath = some file ∧ record.linePosition ≤ file.lines.length
  own : ∀ id record other otherRecord, spool.Listed id record → spool.Listed other otherRecord →
    record.filePath = otherRecord.filePath → id = other
  writing : ∀ id record, spool.Listed id record → record.status = .write_inprogress →
    id ∉ spool.indexQueue ∧ spool.currentConsumerIndexRecord ≠ some id ∧
      ∀ file, spool.files.get? record.filePath = some file → file.archived = false
  writer : ∀ id, spool.currentWriterIndexRecord = some id →
    ∃ record, spool.indexRecords.get? id = some record ∧ record.status = .write_inprogress
  called : ∀ call ∈ spool.calls, ∃ file, spool.files.get? call.filePath = some file ∧
    call.currLine ≤ file.lines.length ∧ call.lines <:+ file.lines.take call.currLine
  reading : ∀ reader,
    spool.destinationThread = .sending reader ∨ spool.destinationThread = .saving reader →
      spool.ReadsFile reader

variable {spool}

theorem ReadsFile.congr {next : AuditFileSpool} {reader : Reader} (reads : spool.ReadsFile reader)
    (current : next.currentConsumerIndexRecord = spool.currentConsumerIndexRecord)
    (records : next.indexRecords = spool.indexRecords) (files : next.files = spool.files) :
    next.ReadsFile reader := by
  obtain ⟨nonempty, id, record, file, read, lines⟩ := reads
  exact ⟨nonempty, id, record, file, ⟨current ▸ read.current, records ▸ read.listed,
    files ▸ read.stored, read.present⟩, lines⟩

theorem consistent_new : ({} : AuditFileSpool).Consistent where
  filed := by
    intro id record listed
    obtain impossible | impossible := listed <;> cases impossible
  own := by
    intro id record other otherRecord listed
    obtain impossible | impossible := listed <;> cases impossible
  writing := by
    intro id record listed
    obtain impossible | impossible := listed <;> cases impossible
  writer := by
    intro id impossible
    cases impossible
  called := by
    intro call impossible
    cases impossible
  reading := no_batch (.inl rfl)

/-- A consistent spool stays so when its index has no new records and nothing is
read, queued or written anew. -/
theorem Consistent.mono (consistent : spool.Consistent) {next : AuditFileSpool}
    (listed : ∀ id record, next.Listed id record → spool.Listed id record)
    (queue : ∀ id ∈ next.indexQueue, id ∈ spool.indexQueue)
    (current : ∀ id, next.currentConsumerIndexRecord = some id →
      id ∈ spool.indexQueue ∨ spool.currentConsumerIndexRecord = some id)
    (writer : ∀ id, next.currentWriterIndexRecord = some id →
      ∃ record, next.indexRecords.get? id = some record ∧ record.status = .write_inprogress)
    (files : next.files = spool.files) (calls : next.calls = spool.calls)
    (reading : ∀ reader,
      next.destinationThread = .sending reader ∨ next.destinationThread = .saving reader →
        next.ReadsFile reader) :
    next.Consistent where
  filed := by
    intro id record member
    rw [files]
    exact consistent.filed id record (listed id record member)
  own := by
    intro id record other otherRecord first second
    exact consistent.own id record other otherRecord (listed _ _ first) (listed _ _ second)
  writing := by
    intro id record member status
    obtain ⟨unqueued, unread, present⟩ := consistent.writing id record (listed _ _ member) status
    refine ⟨fun queued => unqueued (queue id queued), fun now => ?_, files ▸ present⟩
    exact (current id now).elim unqueued unread
  writer := writer
  called := by
    rw [files, calls]
    exact consistent.called
  reading := reading

theorem Consistent.saveIndexFile (consistent : spool.Consistent) :
    spool.saveIndexFile.Consistent := by
  apply consistent.mono
  · intro id record listed
    exact Or.inl (listed.elim (fun memory => memory) fun disk => disk)
  · exact fun _ queued => queued
  · exact fun _ now => Or.inr now
  · exact consistent.writer
  · rfl
  · rfl
  · intro reader phase
    exact (consistent.reading reader phase).congr rfl rfl rfl

/-- A record of a file that is not written may change, within the lines of the file. -/
theorem Consistent.put (consistent : spool.Consistent) {id : String}
    {record : AuditIndexRecord} (changed : AuditIndexRecord)
    (found : spool.indexRecords.get? id = some record)
    (path : changed.filePath = record.filePath) (status : changed.status ≠ .write_inprogress)
    (position : ∀ file, spool.files.get? record.filePath = some file →
      changed.linePosition ≤ file.lines.length)
    (unwritten : spool.currentWriterIndexRecord ≠ some id) :
    { spool with indexRecords := spool.indexRecords.put id changed }.Consistent := by
  have listed : ∀ other otherRecord,
      { spool with indexRecords := spool.indexRecords.put id changed }.Listed other otherRecord →
      (other = id ∧ otherRecord = changed) ∨ spool.Listed other otherRecord := by
    intro other otherRecord member
    obtain memory | disk := member
    · rw [AssocMap.get?_put] at memory
      split at memory
      · next same => exact Or.inl ⟨same, (Option.some.inj memory).symm⟩
      · exact Or.inr (Or.inl memory)
    · exact Or.inr (Or.inr disk)
  -- the record that was changed has the path it had
  have source : ∀ other otherRecord,
      { spool with indexRecords := spool.indexRecords.put id changed }.Listed other otherRecord →
      ∃ before, spool.Listed other before ∧ before.filePath = otherRecord.filePath := by
    intro other otherRecord member
    obtain ⟨rfl, rfl⟩ | before := listed other otherRecord member
    · exact ⟨record, Or.inl found, path.symm⟩
    · exact ⟨otherRecord, before, rfl⟩
  refine ⟨?_, ?_, ?_, ?_, consistent.called, ?_⟩
  · intro other otherRecord member
    obtain ⟨rfl, rfl⟩ | before := listed other otherRecord member
    · obtain ⟨file, stored, _⟩ := consistent.filed other record (Or.inl found)
      exact ⟨file, path ▸ stored, position file stored⟩
    · exact consistent.filed other otherRecord before
  · intro first firstRecord second secondRecord firstMember secondMember same
    obtain ⟨firstBefore, firstListed, firstPath⟩ := source _ _ firstMember
    obtain ⟨secondBefore, secondListed, secondPath⟩ := source _ _ secondMember
    exact consistent.own _ _ _ _ firstListed secondListed
      (firstPath.trans (same.trans secondPath.symm))
  · intro other otherRecord member written
    obtain ⟨rfl, rfl⟩ | before := listed other otherRecord member
    · exact absurd written status
    · exact consistent.writing other otherRecord before written
  · intro other now
    obtain ⟨otherRecord, memory, written⟩ := consistent.writer other now
    have apart : other ≠ id := fun same => unwritten (same ▸ now)
    exact ⟨otherRecord, by rw [AssocMap.get?_put, if_neg apart]; exact memory, written⟩
  · intro reader phase
    obtain ⟨nonempty, other, otherRecord, file, read, reads⟩ := consistent.reading reader phase
    refine ⟨nonempty, other, ?_⟩
    by_cases same : other = id
    · subst same
      have alike : record = otherRecord := Option.some.inj (found.symm.trans read.listed)
      refine ⟨changed, file, ⟨read.current, ?_, ?_, read.present⟩, reads⟩
      · rw [AssocMap.get?_put, if_pos rfl]
      · rw [path, alike]
        exact read.stored
    · refine ⟨otherRecord, file, ⟨read.current, ?_, read.stored, read.present⟩, reads⟩
      rw [AssocMap.get?_put, if_neg same]
      exact read.listed

theorem Consistent.enqueue (consistent : spool.Consistent) {id : String}
    (closed : ∀ record, spool.Listed id record → record.status ≠ .write_inprogress) :
    { spool with indexQueue := spool.indexQueue ++ [id] }.Consistent where
  filed := consistent.filed
  own := consistent.own
  writing := by
    intro other record listed written
    obtain ⟨unqueued, unread, present⟩ := consistent.writing other record listed written
    refine ⟨fun queued => ?_, unread, present⟩
    obtain before | last := List.mem_append.mp queued
    · exact unqueued before
    · exact closed record (List.mem_singleton.mp last ▸ listed) written
  writer := consistent.writer
  called := consistent.called
  reading := by
    intro reader phase
    exact (consistent.reading reader phase).congr rfl rfl rfl

/-- Closing the file that is written changes its record on disk as well, and queues it. -/
theorem closeFileIfNeeded_cases (expired : Bool) (spool : AuditFileSpool) :
    spool.closeFileIfNeeded expired = spool ∨
      ∃ id, spool.currentWriterIndexRecord = some id ∧
        spool.closeFileIfNeeded expired =
          { (spool.changeRecord id fun record =>
              { record with status := .pending }).saveIndexFile with
            indexQueue := spool.indexQueue ++ [id]
            currentWriterIndexRecord := none } := by
  unfold closeFileIfNeeded
  cases writer : spool.currentWriterIndexRecord with
  | none => exact Or.inl rfl
  | some id =>
      by_cases due : (spool.indexRecords.size = 1 || expired) = true
      · refine Or.inr ⟨id, rfl, ?_⟩
        simp only [due, ↓reduceIte, saveIndexFile]
        congr 2
        unfold changeRecord
        split <;> rfl
      · simp only [due, Bool.false_eq_true, ↓reduceIte, true_or]

theorem changeRecord_of_found {id : String} {record : AuditIndexRecord}
    (found : spool.indexRecords.get? id = some record)
    (change : AuditIndexRecord → AuditIndexRecord) :
    spool.changeRecord id change =
      { spool with indexRecords := spool.indexRecords.put id (change record) } := by
  unfold changeRecord
  rw [found]

theorem Consistent.closeFileIfNeeded (consistent : spool.Consistent) (expired : Bool) :
    (spool.closeFileIfNeeded expired).Consistent := by
  obtain unchanged | ⟨id, writer, closed⟩ := closeFileIfNeeded_cases expired spool
  · rwa [unchanged]
  · obtain ⟨record, found, written⟩ := consistent.writer id writer
    rw [closed, changeRecord_of_found found]
    have released : { spool with currentWriterIndexRecord := none }.Consistent := by
      refine consistent.mono (fun _ _ listed => listed) (fun _ queued => queued)
        (fun _ now => Or.inr now) ?_ rfl rfl ?_
      · intro _ impossible
        cases impossible
      · intro reader phase
        exact (consistent.reading reader phase).congr rfl rfl rfl
    have changed := released.put { record with status := .pending } found rfl (by simp) (by
      intro file stored
      obtain ⟨known, sameFile, position⟩ := consistent.filed id record (Or.inl found)
      exact Option.some.inj (sameFile.symm.trans stored) ▸ position) (by simp)
    refine changed.saveIndexFile.enqueue ?_
    intro other listed
    have now : (spool.indexRecords.put id { record with status := .pending }).get? id =
        some other := listed.elim (fun memory => memory) (fun disk => disk)
    rw [AssocMap.get?_put, if_pos rfl] at now
    rw [← Option.some.inj now]
    simp

/-- A file may grow and, unless it is written or read, move to the archive. -/
theorem Consistent.putFile (consistent : spool.Consistent) (path : String) (changed : SpoolFile)
    (grown : ∀ file, spool.files.get? path = some file →
      ∃ more, changed.lines = file.lines ++ more)
    (present : ∀ id record, spool.Listed id record → record.status = .write_inprogress →
      record.filePath = path → changed.archived = false)
    (reading : ∀ reader,
      spool.destinationThread = .sending reader ∨ spool.destinationThread = .saving reader →
        { spool with files := spool.files.put path changed }.ReadsFile reader) :
    { spool with files := spool.files.put path changed }.Consistent where
  filed := by
    intro id record listed
    obtain ⟨file, stored, position⟩ := consistent.filed id record listed
    by_cases same : record.filePath = path
    · rw [same] at stored
      obtain ⟨more, lines⟩ := grown file stored
      refine ⟨changed, by rw [AssocMap.get?_put, if_pos same], ?_⟩
      rw [lines, List.length_append]
      omega
    · exact ⟨file, by rw [AssocMap.get?_put, if_neg same]; exact stored, position⟩
  own := consistent.own
  writing := by
    intro id record listed written
    obtain ⟨unqueued, unread, here⟩ := consistent.writing id record listed written
    refine ⟨unqueued, unread, fun file stored => ?_⟩
    rw [AssocMap.get?_put] at stored
    split at stored
    · next same =>
        rw [← Option.some.inj stored]
        exact present id record listed written same
    · exact here file stored
  writer := consistent.writer
  called := by
    intro call member
    obtain ⟨file, stored, bounded, lines⟩ := consistent.called call member
    by_cases same : call.filePath = path
    · rw [same] at stored
      obtain ⟨more, longer⟩ := grown file stored
      refine ⟨changed, by rw [AssocMap.get?_put, if_pos same], ?_, ?_⟩
      · rw [longer, List.length_append]
        omega
      · rw [longer, List.take_append_of_le_length bounded]
        exact lines
    · exact ⟨file, by rw [AssocMap.get?_put, if_neg same]; exact stored, bounded, lines⟩
  reading := reading

/-- Another file may change while one is read. -/
theorem ReadsFile.putFile {reader : Reader} (reads : spool.ReadsFile reader) {path : String}
    (changed : SpoolFile)
    (apart : ∀ id record, spool.currentConsumerIndexRecord = some id →
      spool.indexRecords.get? id = some record → record.filePath ≠ path) :
    { spool with files := spool.files.put path changed }.ReadsFile reader := by
  obtain ⟨nonempty, id, record, file, read, lines⟩ := reads
  refine ⟨nonempty, id, record, file, ⟨read.current, read.listed, ?_, read.present⟩, lines⟩
  rw [AssocMap.get?_put, if_neg (apart id record read.current read.listed)]
  exact read.stored

/-- A file of its own may be written under an id of its own. -/
theorem Consistent.addRecord (consistent : spool.Consistent) {id : String}
    (record : AuditIndexRecord) {file : SpoolFile} (position : record.linePosition = 0)
    (status : record.status = .write_inprogress)
    (stored : spool.files.get? record.filePath = some file) (present : file.archived = false)
    (fresh : ∀ other, ¬ spool.Listed id other) (unqueued : id ∉ spool.indexQueue)
    (unread : spool.currentConsumerIndexRecord ≠ some id)
    (apart : ∀ other otherRecord, spool.Listed other otherRecord →
      otherRecord.filePath ≠ record.filePath) :
    { spool with
      indexRecords := spool.indexRecords.put id record
      currentWriterIndexRecord := some id }.Consistent := by
  have listed : ∀ other otherRecord,
      { spool with
        indexRecords := spool.indexRecords.put id record
        currentWriterIndexRecord := some id }.Listed other otherRecord →
      (other = id ∧ otherRecord = record) ∨ spool.Listed other otherRecord := by
    intro other otherRecord member
    obtain memory | disk := member
    · rw [AssocMap.get?_put] at memory
      split at memory
      · next same => exact Or.inl ⟨same, (Option.some.inj memory).symm⟩
      · exact Or.inr (Or.inl memory)
    · exact Or.inr (Or.inr disk)
  refine ⟨?_, ?_, ?_, ?_, consistent.called, ?_⟩
  · intro other otherRecord member
    obtain ⟨rfl, rfl⟩ | before := listed other otherRecord member
    · exact ⟨file, stored, position ▸ Nat.zero_le _⟩
    · exact consistent.filed other otherRecord before
  · intro first firstRecord second secondRecord firstMember secondMember same
    obtain ⟨rfl, rfl⟩ | firstBefore := listed first firstRecord firstMember
    · obtain ⟨rfl, rfl⟩ | secondBefore := listed second secondRecord secondMember
      · rfl
      · exact absurd same.symm (apart second secondRecord secondBefore)
    · obtain ⟨rfl, rfl⟩ | secondBefore := listed second secondRecord secondMember
      · exact absurd same (apart first firstRecord firstBefore)
      · exact consistent.own _ _ _ _ firstBefore secondBefore same
  · intro other otherRecord member written
    obtain ⟨rfl, rfl⟩ | before := listed other otherRecord member
    · refine ⟨unqueued, unread, fun known same => ?_⟩
      rw [stored] at same
      exact Option.some.inj same ▸ present
    · exact consistent.writing other otherRecord before written
  · intro other now
    rw [Option.some.inj now] at *
    exact ⟨record, by rw [AssocMap.get?_put, if_pos rfl], status⟩
  · intro reader phase
    obtain ⟨nonempty, other, otherRecord, known, read, reads⟩ := consistent.reading reader phase
    have different : other ≠ id := fun same => fresh otherRecord (same ▸ Or.inl read.listed)
    refine ⟨nonempty, other, otherRecord, known,
      ⟨read.current, ?_, read.stored, read.present⟩, reads⟩
    rw [AssocMap.get?_put, if_neg different]
    exact read.listed

theorem Consistent.openFile (consistent : spool.Consistent) {id fileName : String}
    (unused : spool.isUnused id fileName = true) :
    (spool.openFile id fileName).Consistent := by
  simp only [isUnused, Bool.and_eq_true, Bool.not_eq_true', Bool.eq_false_iff, ne_eq,
    AssocMap.containsKey_iff, ← AssocMap.get?_eq_none_iff, List.contains_iff_mem,
    bne_iff_ne] at unused
  obtain ⟨⟨⟨⟨noFile, noMemory⟩, noDisk⟩, unqueued⟩, unread⟩ := unused
  have otherPath : ∀ other record, spool.Listed other record → record.filePath ≠ fileName := by
    intro other record listed same
    obtain ⟨file, stored, _⟩ := consistent.filed other record listed
    rw [same, noFile] at stored
    cases stored
  have created := consistent.putFile fileName {} (fun file stored => by
    rw [noFile] at stored
    cases stored) (fun _ _ _ _ _ => rfl) (fun reader phase =>
      (consistent.reading reader phase).putFile {} fun other record _ memory =>
        otherPath other record (Or.inl memory))
  refine (created.addRecord { filePath := fileName, lastAttempt := true } rfl rfl
    (by rw [AssocMap.get?_put, if_pos rfl]) rfl ?_ unqueued unread otherPath).saveIndexFile
  intro other listed
  obtain memory | disk := listed
  · rw [noMemory] at memory
    cases memory
  · rw [noDisk] at disk
    cases disk

theorem Consistent.append (consistent : spool.Consistent) {id : String} {record : AuditIndexRecord}
    (found : spool.indexRecords.get? id = some record) (status : record.status = .write_inprogress)
    (lines : List String) : (spool.append record.filePath lines).Consistent := by
  obtain ⟨file, stored, _⟩ := consistent.filed id record (Or.inl found)
  obtain ⟨_, unread, present⟩ := consistent.writing id record (Or.inl found) status
  unfold AuditFileSpool.append
  rw [stored]
  refine consistent.putFile record.filePath _ ?_ ?_ ?_
  · intro known same
    rw [stored] at same
    exact ⟨lines, Option.some.inj same ▸ rfl⟩
  · exact fun _ _ _ _ _ => present file stored
  · intro reader phase
    refine (consistent.reading reader phase).putFile _ ?_
    intro other otherRecord current memory same
    have alike := consistent.own _ _ _ _ (Or.inl memory) (Or.inl found) same
    exact unread (alike ▸ current)

/-- Closing a file does not use an id or a name. -/
theorem isUnused_closeFileIfNeeded
    (written : ∀ id, spool.currentWriterIndexRecord = some id →
      ∃ record, spool.indexRecords.get? id = some record ∧ record.status = .write_inprogress)
    {id fileName : String} (unused : spool.isUnused id fileName = true) (expired : Bool) :
    (spool.closeFileIfNeeded expired).isUnused id fileName = true := by
  obtain unchanged | ⟨writer, now, closed⟩ := closeFileIfNeeded_cases expired spool
  · rwa [unchanged]
  · obtain ⟨record, found, _⟩ := written writer now
    rw [closed, changeRecord_of_found found]
    simp only [isUnused, saveIndexFile, Bool.and_eq_true, Bool.not_eq_true', Bool.eq_false_iff,
      ne_eq, AssocMap.containsKey_iff, ← AssocMap.get?_eq_none_iff, List.contains_iff_mem,
      bne_iff_ne, AssocMap.get?_put, List.mem_append, List.mem_singleton, not_or] at unused ⊢
    obtain ⟨⟨⟨⟨noFile, noMemory⟩, noDisk⟩, unqueued⟩, unread⟩ := unused
    have different : id ≠ writer := by
      intro same
      rw [same, found] at noMemory
      cases noMemory
    simp only [different, ↓reduceIte, not_false_eq_true, and_true]
    exact ⟨⟨⟨⟨noFile, noMemory⟩, noMemory⟩, unqueued⟩, unread⟩

theorem Consistent.stashLogs (consistent : spool.Consistent) {id fileName : String}
    (unused : spool.isUnused id fileName = true) (lines : List String) (expired : Bool) :
    (spool.stashLogs lines expired id fileName).Consistent := by
  have stream : (spool.getLogFileStream expired id fileName).Consistent := by
    unfold getLogFileStream
    have closed := consistent.closeFileIfNeeded expired
    have still := isUnused_closeFileIfNeeded consistent.writer unused expired
    dsimp only
    split
    · exact closed.openFile still
    · exact closed
  unfold AuditFileSpool.stashLogs
  generalize spool.getLogFileStream expired id fileName = opened at stream
  dsimp only
  cases writer : opened.currentWriterIndexRecord with
  | none => exact stream
  | some current =>
      obtain ⟨record, found, status⟩ := stream.writer current writer
      simp only [Option.bind_some, found]
      exact stream.append found status lines

theorem Consistent.moveTo (consistent : spool.Consistent) {thread : DestinationThread}
    (reading : ∀ reader, thread = .sending reader ∨ thread = .saving reader →
      spool.ReadsFile reader) : { spool with destinationThread := thread }.Consistent := by
  refine consistent.mono (fun _ _ listed => listed) (fun _ queued => queued)
    (fun _ now => Or.inr now) consistent.writer rfl rfl ?_
  intro reader phase
  exact (reading reader phase).congr rfl rfl rfl

theorem Consistent.addCall (consistent : spool.Consistent) (call : LogCall)
    (called : ∃ file, spool.files.get? call.filePath = some file ∧
      call.currLine ≤ file.lines.length ∧ call.lines <:+ file.lines.take call.currLine) :
    { spool with calls := spool.calls ++ [call] }.Consistent where
  filed := consistent.filed
  own := consistent.own
  writing := consistent.writing
  writer := consistent.writer
  called := by
    intro other member
    obtain before | last := List.mem_append.mp member
    · exact consistent.called other before
    · exact List.mem_singleton.mp last ▸ called
  reading := by
    intro reader phase
    exact (consistent.reading reader phase).congr rfl rfl rfl

theorem Consistent.unwritten (consistent : spool.Consistent) {id : String}
    (current : spool.currentConsumerIndexRecord = some id) :
    spool.currentWriterIndexRecord ≠ some id := by
  intro writer
  obtain ⟨record, found, status⟩ := consistent.writer id writer
  exact (consistent.writing id record (Or.inl found) status).2.1 current

/-- The current record may change, within the lines of its file. -/
theorem Consistent.changeCurrent (consistent : spool.Consistent) {id : String}
    {record : AuditIndexRecord} (current : spool.currentConsumerIndexRecord = some id)
    (found : spool.indexRecords.get? id = some record)
    (change : AuditIndexRecord → AuditIndexRecord)
    (path : (change record).filePath = record.filePath)
    (status : (change record).status ≠ .write_inprogress)
    (position : ∀ file, spool.files.get? record.filePath = some file →
      (change record).linePosition ≤ file.lines.length) :
    (spool.changeRecord id change).Consistent := by
  rw [changeRecord_of_found found]
  exact consistent.put _ found path status position (consistent.unwritten current)

theorem Consistent.position_le (consistent : spool.Consistent) {id : String}
    {record : AuditIndexRecord} (listed : spool.Listed id record) (file : SpoolFile)
    (stored : spool.files.get? record.filePath = some file) :
    record.linePosition ≤ file.lines.length := by
  obtain ⟨known, sameFile, position⟩ := consistent.filed id record listed
  exact Option.some.inj (sameFile.symm.trans stored) ▸ position

/-- Reading on fills a batch, or finishes the file. -/
theorem readOn_cases (maxBatchSize startLine currLine : Nat) (unread : List String)
    {id : String} (current : spool.currentConsumerIndexRecord = some id) :
    let filled := Reader.fill maxBatchSize startLine currLine [] unread
    (filled.lines ≠ [] ∧ spool.readOn maxBatchSize startLine currLine unread =
        { spool with destinationThread := .sending filled }) ∨
      (filled.lines = [] ∧ spool.readOn maxBatchSize startLine currLine unread =
        { spool.changeRecord id fun record =>
            { record with status := .done, lastAttempt := true } with
          destinationThread := .removing }) := by
  unfold readOn
  by_cases empty : (Reader.fill maxBatchSize startLine currLine [] unread).lines = []
  · refine Or.inr ⟨empty, ?_⟩
    simp only [empty, ↓reduceIte, current]
  · refine Or.inl ⟨empty, ?_⟩
    simp only [empty, ↓reduceIte]

theorem Consistent.readOn (consistent : spool.Consistent) (maxBatchSize : Nat) {id : String}
    {record : AuditIndexRecord} {file : SpoolFile} (read : spool.IsRead id record file)
    {startLine currLine : Nat} {unread : List String}
    (reads : Reader.Reads ⟨startLine, currLine, [], unread⟩ file.lines) :
    (spool.readOn maxBatchSize startLine currLine unread).Consistent := by
  obtain ⟨nonempty, sending⟩ | ⟨_, finished⟩ :=
    readOn_cases maxBatchSize startLine currLine unread read.current
  · rw [sending]
    apply consistent.moveTo
    intro reader phase
    obtain same | impossible := phase
    · rw [← DestinationThread.sending.inj same]
      exact ⟨nonempty, id, record, file, read, (Reader.fill_reads maxBatchSize _ _ _ _ reads).1⟩
    · cases impossible
  · rw [finished]
    have changed := consistent.changeCurrent read.current read.listed (fun record =>
      { record with status := .done, lastAttempt := true }) rfl (by simp)
      (consistent.position_le (Or.inl read.listed))
    exact changed.moveTo (no_batch (.inr (.inl rfl)))

theorem Consistent.poll (consistent : spool.Consistent)
    (looping : spool.destinationThread = .looping) : spool.poll.Consistent := by
  unfold AuditFileSpool.poll
  split
  · next id rest idle queue =>
      refine consistent.mono (fun _ _ listed => listed) ?_ ?_ consistent.writer rfl rfl ?_
      · intro other queued
        rw [queue]
        exact List.mem_cons_of_mem _ queued
      · intro other now
        rw [queue, ← Option.some.inj now]
        exact Or.inl List.mem_cons_self
      · exact no_batch (.inl looping)
  · exact consistent

theorem poll_destinationThread : spool.poll.destinationThread = spool.destinationThread := by
  unfold AuditFileSpool.poll
  split <;> rfl

theorem consumerRecord_eq_some {record : AuditIndexRecord}
    (found : spool.consumerRecord = some record) :
    ∃ id, spool.currentConsumerIndexRecord = some id ∧
      spool.indexRecords.get? id = some record :=
  Option.bind_eq_some_iff.mp found

/-- A file that is opened is read from its beginning, lines being skipped. -/
theorem reads_opened (startLine : Nat) (written : List String) :
    Reader.Reads ⟨startLine, 0, [], written⟩ written :=
  ⟨Nat.zero_le _, rfl, List.nil_suffix, fun impossible => absurd rfl impossible⟩

/-- What a turn of the destination thread comes to. -/
theorem turn_cases (maxBatchSize : Nat) (expired : Bool) (spool : AuditFileSpool) :
    (spool.poll.consumerRecord = none ∧
        spool.turn maxBatchSize expired = spool.poll.closeFileIfNeeded expired) ∨
      ∃ id record, spool.poll.currentConsumerIndexRecord = some id ∧
        spool.poll.indexRecords.get? id = some record ∧
        ((∃ file, spool.poll.IsRead id record file ∧ spool.turn maxBatchSize expired =
            spool.poll.readOn maxBatchSize record.linePosition 0 file.lines) ∨
          ((∀ file, spool.poll.files.get? record.filePath = some file → file.archived = true) ∧
            spool.turn maxBatchSize expired =
              { spool.poll with destinationThread := .removing })) := by
  unfold turn
  dsimp only
  cases found : spool.poll.consumerRecord with
  | none => exact Or.inl ⟨rfl, rfl⟩
  | some record =>
      obtain ⟨id, current, memory⟩ := consumerRecord_eq_some found
      refine Or.inr ⟨id, record, current, memory, ?_⟩
      cases stored : spool.poll.files.get? record.filePath with
      | none => simp [fileExists, stored]
      | some file =>
          cases present : file.archived with
          | true => simp [fileExists, stored, present]
          | false =>
              refine Or.inl ⟨file, ⟨current, memory, stored, present⟩, ?_⟩
              simp [fileExists, stored, present]

theorem Consistent.turn (consistent : spool.Consistent)
    (looping : spool.destinationThread = .looping) (maxBatchSize : Nat) (expired : Bool) :
    (spool.turn maxBatchSize expired).Consistent := by
  have polled := consistent.poll looping
  obtain ⟨_, closed⟩ | ⟨id, record, current, memory, ⟨file, read, opened⟩ | ⟨_, missing⟩⟩ :=
    turn_cases maxBatchSize expired spool
  · rw [closed]
    exact polled.closeFileIfNeeded expired
  · rw [opened]
    exact polled.readOn maxBatchSize read (reads_opened _ _)
  · rw [missing]
    exact polled.moveTo (no_batch (.inr (.inl rfl)))

/-- What a call of `logJSON` comes to, by its result. -/
theorem sendEvent_eq (maxBatchSize : Nat) (reader : Reader) (result : LogResult) {id : String}
    {record : AuditIndexRecord} (current : spool.currentConsumerIndexRecord = some id)
    (found : spool.indexRecords.get? id = some record) :
    let call : LogCall := ⟨record.filePath, reader.currLine, reader.lines, result⟩
    let called := { spool with calls := spool.calls ++ [call] }
    spool.sendEvent maxBatchSize reader result =
      match result with
      | .accepted =>
          { called with
            indexRecords := spool.indexRecords.put id
              { record with
                linePosition := reader.currLine
                status := .read_inprogress
                lastAttempt := true }
            destinationThread := .saving reader }
      | .refused =>
          { called with
            indexRecords := spool.indexRecords.put id
              { record with
                failedAttemptCount := record.failedAttemptCount + 1
                lastAttempt := false }
            indexFile := spool.indexRecords.put id
              { record with
                failedAttemptCount := record.failedAttemptCount + 1
                lastAttempt := false }
            destinationThread := .looping }
      | .threw => called.readOn maxBatchSize reader.startLine reader.currLine reader.unread := by
  have at_record : spool.consumerRecord = some record := by
    simp only [consumerRecord, current, Option.bind_some, found]
  unfold sendEvent
  rw [at_record, current]
  cases result with
  | accepted => simp [changeRecord, found]
  | refused => simp [changeRecord, found, AuditFileSpool.saveIndexFile]
  | threw => rfl

theorem Consistent.sendEvent (consistent : spool.Consistent) {reader : Reader}
    (sending : spool.destinationThread = .sending reader) (maxBatchSize : Nat)
    (result : LogResult) : (spool.sendEvent maxBatchSize reader result).Consistent := by
  obtain ⟨nonempty, id, record, file, read, reads⟩ := consistent.reading reader (Or.inl sending)
  have unwritten := consistent.unwritten read.current
  have unfinished : record.status ≠ .write_inprogress := by
    intro status
    exact (consistent.writing id record (Or.inl read.listed) status).2.1 read.current
  have called := consistent.addCall ⟨record.filePath, reader.currLine, reader.lines, result⟩
    ⟨file, read.stored, reads.bounded, reads.lines⟩
  rw [sendEvent_eq maxBatchSize reader result read.current read.listed]
  cases result with
  | accepted =>
      have changed := called.put { record with
        linePosition := reader.currLine
        status := .read_inprogress
        lastAttempt := true } read.listed rfl (by simp) (fun known stored => by
          have same := Option.some.inj (read.stored.symm.trans stored)
          exact same ▸ reads.bounded) unwritten
      have still := changed.reading reader (Or.inl sending)
      apply changed.moveTo
      intro other phase
      obtain impossible | same := phase
      · cases impossible
      · exact DestinationThread.saving.inj same ▸ still
  | refused =>
      have changed := called.put { record with
        failedAttemptCount := record.failedAttemptCount + 1
        lastAttempt := false } read.listed rfl unfinished
        (consistent.position_le (Or.inl read.listed)) unwritten
      exact changed.saveIndexFile.moveTo (no_batch (.inl rfl))
  | threw =>
      exact called.readOn maxBatchSize ⟨read.current, read.listed, read.stored, read.present⟩
        reads.cleared

theorem Consistent.saveBatch (consistent : spool.Consistent) {reader : Reader}
    (saving : spool.destinationThread = .saving reader) (maxBatchSize : Nat) :
    (spool.saveBatch maxBatchSize reader).Consistent := by
  obtain ⟨nonempty, id, record, file, read, reads⟩ := consistent.reading reader (Or.inr saving)
  exact consistent.saveIndexFile.readOn maxBatchSize
    ⟨read.current, read.listed, read.stored, read.present⟩ reads.cleared

/-- What taking a record out of the index comes to. -/
theorem appendToDoneFile_cases (spool : AuditFileSpool) :
    spool.appendToDoneFile = spool ∨
      ∃ id record, spool.currentConsumerIndexRecord = some id ∧
        spool.indexRecords.get? id = some record ∧
        spool.appendToDoneFile =
          { spool with
            indexRecords := spool.indexRecords.filterKeys (· != id)
            indexDoneFile := spool.indexDoneFile ++ [(id, record)]
            files := spool.renameToArchive record.filePath
            destinationThread := .removed } := by
  unfold appendToDoneFile
  cases found : spool.consumerRecord with
  | none =>
      left
      cases spool.currentConsumerIndexRecord <;> rfl
  | some record =>
      obtain ⟨id, current, memory⟩ := consumerRecord_eq_some found
      exact Or.inr ⟨id, record, current, memory, by simp only [current]⟩

theorem Consistent.appendToDoneFile (consistent : spool.Consistent)
    (removing : spool.destinationThread = .removing) : spool.appendToDoneFile.Consistent := by
  obtain unchanged | ⟨id, record, current, memory, removed⟩ := appendToDoneFile_cases spool
  · rwa [unchanged]
  · obtain ⟨file, stored, _⟩ := consistent.filed id record (Or.inl memory)
    have unwritten := consistent.unwritten current
    have archived := consistent.putFile record.filePath { file with archived := true }
      (fun known same => by
        rw [stored] at same
        exact ⟨[], by rw [Option.some.inj same, List.append_nil]⟩)
      (fun other otherRecord listed status same => by
        have alike := consistent.own _ _ _ _ listed (Or.inl memory) same
        exact absurd (alike ▸ current) (consistent.writing other otherRecord listed status).2.1)
      (no_batch (.inr (.inl removing)))
    have renamed : spool.renameToArchive record.filePath =
        spool.files.put record.filePath { file with archived := true } := by
      simp only [renameToArchive, stored]
    rw [removed, renamed]
    refine archived.mono ?_ (fun _ queued => queued) (fun _ now => Or.inr now) ?_ rfl rfl ?_
    · intro other otherRecord listed
      obtain kept | disk := listed
      · rw [AssocMap.get?_filterKeys] at kept
        split at kept
        · exact Or.inl kept
        · cases kept
      · exact Or.inr disk
    · intro other now
      obtain ⟨otherRecord, found, status⟩ := consistent.writer other now
      have apart : other ≠ id := fun same => unwritten (same ▸ now)
      refine ⟨otherRecord, ?_, status⟩
      rw [AssocMap.get?_filterKeys, if_pos (bne_iff_ne.mpr apart)]
      exact found
    · exact no_batch (.inr (.inr rfl))

theorem Consistent.removed (consistent : spool.Consistent) :
    { spool.saveIndexFile with
      currentConsumerIndexRecord := none
      destinationThread := .looping }.Consistent := by
  refine consistent.saveIndexFile.mono (fun _ _ listed => listed) (fun _ queued => queued) ?_
    consistent.writer rfl rfl ?_
  · intro _ impossible
    cases impossible
  · exact no_batch (.inl rfl)

theorem Consistent.finishRemoval (consistent : spool.Consistent) (expired : Bool) :
    (spool.finishRemoval expired).Consistent :=
  consistent.removed.closeFileIfNeeded expired

theorem Consistent.restart (consistent : spool.Consistent) : spool.restart.Consistent where
  filed := by
    intro id record listed
    exact consistent.filed id record (Or.inr (listed.elim (fun disk => disk) fun disk => disk))
  own := by
    intro id record other otherRecord first second
    exact consistent.own id record other otherRecord
      (Or.inr (first.elim (fun disk => disk) fun disk => disk))
      (Or.inr (second.elim (fun disk => disk) fun disk => disk))
  writing := by
    intro id record listed status
    have disk : spool.indexFile.get? id = some record :=
      listed.elim (fun disk => disk) fun disk => disk
    refine ⟨?_, nofun, (consistent.writing id record (Or.inr disk) status).2.2⟩
    have queued : ∀ test : String × AuditIndexRecord → Bool, test (id, record) = false →
        id ∉ (spool.indexFile.entries.filter test).map Prod.fst := by
      intro test failed member
      obtain ⟨entry, passed, rfl⟩ := List.mem_map.mp member
      obtain ⟨stored, passes⟩ := List.mem_filter.mp passed
      have same : spool.indexFile.get? entry.1 = some entry.2 :=
        AssocMap.get?_eq_some_iff.mpr stored
      rw [disk] at same
      rw [Option.some.inj same] at failed
      rw [failed] at passes
      cases passes
    intro member
    obtain read | pending := List.mem_append.mp member
    · exact queued _ (by simp [status]) read
    · exact queued _ (by simp [status]) pending
  writer := by
    intro id now
    obtain ⟨entry, found, rfl⟩ := Option.map_eq_some_iff.mp now
    have stored := List.mem_reverse.mp (List.mem_of_find?_eq_some found)
    have status := List.find?_some found
    exact ⟨entry.2, AssocMap.get?_eq_some_iff.mpr stored, eq_of_beq status⟩
  called := consistent.called
  reading := no_batch (.inl rfl)

/-- **Consistency of every run.** Whatever happens to a consistent spool keeps it
consistent. -/
theorem Consistent.step (consistent : spool.Consistent) (maxBatchSize : Nat) (event : Event) :
    (spool.step maxBatchSize event).Consistent := by
  unfold AuditFileSpool.step
  split
  · exact consistent.restart
  · exact consistent
  · next _ lines expired id fileName _ =>
      split
      · next unused => exact consistent.stashLogs unused lines expired
      · exact consistent
  · next looping => exact consistent.turn looping maxBatchSize _
  · next sending => exact consistent.sendEvent sending maxBatchSize _
  · next saving => exact consistent.saveBatch saving maxBatchSize
  · next removing => exact consistent.appendToDoneFile removing
  · exact consistent.finishRemoval _
  · exact consistent

end AuditFileSpool

end Ranger

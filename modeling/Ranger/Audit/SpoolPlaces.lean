import Ranger.Audit.SpoolConsistency

/-! # Where the records of a spool are

A record of the index that is not done is with the writer, with the destination thread or
in the queue. The steps of a process hand records from one place to the next; a restart
places those of the saved index, and passes over a file that waits and is missing.
-/

namespace Ranger

open Foundation

namespace AuditFileSpool

inductive Place where
  | writer
  | consumer
  | queue

/-- The record of the id is at the place. -/
def Holds (spool : AuditFileSpool) (id : String) : Place → Prop
  | .writer => spool.currentWriterIndexRecord = some id
  | .consumer => spool.currentConsumerIndexRecord = some id
  | .queue => id ∈ spool.indexQueue

/-- Every record that is not done is in exactly one place, no record is in two, and at
most one is written. -/
structure Custody (spool : AuditFileSpool) : Prop where
  placed : ∀ id record, spool.indexRecords.get? id = some record → record.status ≠ .done →
    ∃! place, spool.Holds id place
  apart : ∀ id first second, spool.Holds id first → spool.Holds id second → first = second
  once : spool.indexQueue.Nodup
  writing : ∀ id record other otherRecord, spool.indexRecords.get? id = some record →
    spool.indexRecords.get? other = some otherRecord → record.status = .write_inprogress →
      otherRecord.status = .write_inprogress → id = other

/-- The spool when only some of its files are left on disk. -/
def keepFiles (kept : List String) (spool : AuditFileSpool) : AuditFileSpool :=
  { spool with files := spool.files.filterKeys kept.contains }

/-- What can happen to a spool whose files may be lost between two processes. -/
inductive DiskEvent where
  | event (event : Event)
  | restartWith (kept : List String)

def diskStep (maxBatchSize : Nat) (spool : AuditFileSpool) : DiskEvent → AuditFileSpool
  | .event event => spool.step maxBatchSize event
  | .restartWith kept => (spool.keepFiles kept).restart

def diskRun (maxBatchSize : Nat) (events : List DiskEvent) : AuditFileSpool :=
  Run.final (fun spool event => ((), diskStep maxBatchSize spool event)) {} events

/-- Every file the saved index has waiting is in the log folder. -/
def FindsPending (spool : AuditFileSpool) : Prop :=
  ∀ id record, spool.indexFile.get? id = some record → record.status = .pending →
    spool.fileExists record.filePath = true

/-- A restart finds the files that wait. -/
def RestartsComplete (spool : AuditFileSpool) : DiskEvent → Prop
  | .event .restart => spool.FindsPending
  | .event _ => True
  | .restartWith kept => (spool.keepFiles kept).FindsPending

/-- What holds of the places wherever the spool is restarted. -/
structure Apart (spool : AuditFileSpool) : Prop where
  writer : ∀ id, spool.currentWriterIndexRecord = some id →
    ∃ record, spool.indexRecords.get? id = some record ∧ record.status = .write_inprogress
  written : ∀ id record, spool.indexRecords.get? id = some record →
    record.status = .write_inprogress → spool.currentWriterIndexRecord = some id
  saved : ∀ id record other otherRecord, spool.indexFile.get? id = some record →
    spool.indexFile.get? other = some otherRecord → record.status = .write_inprogress →
      otherRecord.status = .write_inprogress → id = other
  unread : ∀ id, spool.currentWriterIndexRecord = some id →
    id ∉ spool.indexQueue ∧ spool.currentConsumerIndexRecord ≠ some id
  once : spool.indexQueue.Nodup
  polled : ∀ id, spool.currentConsumerIndexRecord = some id → id ∉ spool.indexQueue
  removed : spool.destinationThread = .removed →
    ∀ id, spool.currentConsumerIndexRecord = some id → spool.indexRecords.get? id = none

/-- Every record that is not done is somewhere. -/
def Placed (spool : AuditFileSpool) : Prop :=
  ∀ id record, spool.indexRecords.get? id = some record → record.status ≠ .done →
    ∃ place, spool.Holds id place

theorem Apart.custody_iff {spool : AuditFileSpool} (apart : spool.Apart) :
    spool.Custody ↔ spool.Placed := by
  have single : ∀ id first second, spool.Holds id first → spool.Holds id second →
      first = second := by
    intro id first second here there
    cases first with
    | writer =>
        cases second with
        | writer => rfl
        | consumer => exact absurd there (apart.unread id here).2
        | queue => exact absurd there (apart.unread id here).1
    | consumer =>
        cases second with
        | writer => exact absurd here (apart.unread id there).2
        | consumer => rfl
        | queue => exact absurd there (apart.polled id here)
    | queue =>
        cases second with
        | writer => exact absurd here (apart.unread id there).1
        | consumer => exact absurd here (apart.polled id there)
        | queue => rfl
  constructor
  · intro custody id record found unfinished
    exact (custody.placed id record found unfinished).exists
  · intro placed
    refine ⟨fun id record found unfinished => ?_, single, apart.once, ?_⟩
    · obtain ⟨place, here⟩ := placed id record found unfinished
      exact ⟨place, here, fun other there => single id other place there here⟩
    · intro id record other otherRecord found otherFound status otherStatus
      have now := apart.written id record found status
      rw [apart.written other otherRecord otherFound otherStatus] at now
      exact (Option.some.inj now).symm

/-- A step that keeps the places apart, and every record somewhere. -/
structure Moves (spool next : AuditFileSpool) : Prop where
  apart : spool.Apart → next.Apart
  placed : spool.Apart → spool.Placed → next.Placed

theorem Moves.refl (spool : AuditFileSpool) : Moves spool spool := ⟨id, fun _ placed => placed⟩

theorem Moves.trans {spool between next : AuditFileSpool} (first : Moves spool between)
    (second : Moves between next) : Moves spool next where
  apart apart := second.apart (first.apart apart)
  placed apart placed := second.placed (first.apart apart) (first.placed apart placed)

theorem Moves.of_apart {spool next : AuditFileSpool} (moves : spool.Apart → Moves spool next) :
    Moves spool next where
  apart apart := (moves apart).apart apart
  placed apart := (moves apart).placed apart

section Primitives

variable {spool next : AuditFileSpool}

/-- A step that leaves the index and the places alone. -/
theorem moves_of_eq (records : next.indexRecords = spool.indexRecords)
    (saved : next.indexFile = spool.indexFile) (queue : next.indexQueue = spool.indexQueue)
    (writer : next.currentWriterIndexRecord = spool.currentWriterIndexRecord)
    (consumer : next.currentConsumerIndexRecord = spool.currentConsumerIndexRecord)
    (removed : next.destinationThread = .removed → spool.destinationThread = .removed) :
    Moves spool next where
  apart apart := by
    refine ⟨?_, ?_, ?_, ?_, ?_, ?_, ?_⟩
    · rw [records, writer]; exact apart.writer
    · rw [records, writer]; exact apart.written
    · rw [saved]; exact apart.saved
    · rw [writer, queue, consumer]; exact apart.unread
    · rw [queue]; exact apart.once
    · rw [consumer, queue]; exact apart.polled
    · rw [consumer, records]; exact fun thread => apart.removed (removed thread)
  placed _ placed := by
    intro id record found unfinished
    rw [records] at found
    obtain ⟨place, here⟩ := placed id record found unfinished
    refine ⟨place, ?_⟩
    cases place with
    | writer => exact writer.trans here
    | consumer => exact consumer.trans here
    | queue =>
        change id ∈ next.indexQueue
        rwa [queue]

theorem moves_saveIndexFile (spool : AuditFileSpool) : Moves spool spool.saveIndexFile where
  apart apart :=
    { apart with
      saved := by
        intro id record other otherRecord found otherFound status otherStatus
        have now := apart.written id record found status
        rw [apart.written other otherRecord otherFound otherStatus] at now
        exact (Option.some.inj now).symm }
  placed _ placed := placed

/-- The destination thread changes the record it is at. -/
theorem moves_put {id : String} (changed : AuditIndexRecord)
    (current : spool.currentConsumerIndexRecord = some id)
    (status : changed.status ≠ .write_inprogress)
    (running : spool.destinationThread ≠ .removed) :
    Moves spool { spool with indexRecords := spool.indexRecords.put id changed } where
  apart apart := by
    have other : ∀ otherId otherRecord, otherId ≠ id →
        ((spool.indexRecords.put id changed).get? otherId = some otherRecord ↔
          spool.indexRecords.get? otherId = some otherRecord) := by
      intro otherId otherRecord different
      rw [AssocMap.get?_put, if_neg different]
    have unwritten : ∀ otherId, spool.currentWriterIndexRecord = some otherId → otherId ≠ id :=
      fun otherId now same => (apart.unread otherId now).2 (same ▸ current)
    refine ⟨?_, ?_, apart.saved, apart.unread, apart.once, apart.polled, fun thread =>
      absurd thread running⟩
    · intro otherId now
      obtain ⟨otherRecord, stored, written⟩ := apart.writer otherId now
      exact ⟨otherRecord, (other otherId otherRecord (unwritten otherId now)).mpr stored, written⟩
    · intro otherId otherRecord stored written
      by_cases same : otherId = id
      · rw [same] at stored
        change (spool.indexRecords.put id changed).get? id = some otherRecord at stored
        rw [AssocMap.get?_put, if_pos rfl] at stored
        exact absurd (Option.some.inj stored ▸ written) status
      · exact apart.written otherId otherRecord ((other otherId otherRecord same).mp stored) written
  placed _ placed := by
    intro otherId otherRecord stored unfinished
    by_cases same : otherId = id
    · exact ⟨.consumer, same ▸ current⟩
    · change (spool.indexRecords.put id changed).get? otherId = some otherRecord at stored
      rw [AssocMap.get?_put, if_neg same] at stored
      obtain ⟨place, here⟩ := placed otherId otherRecord stored unfinished
      exact ⟨place, by cases place <;> exact here⟩

theorem moves_closeFileIfNeeded (expired : Bool) (spool : AuditFileSpool) :
    Moves spool (spool.closeFileIfNeeded expired) := by
  obtain unchanged | ⟨id, writer, closed⟩ := closeFileIfNeeded_cases expired spool
  · rw [unchanged]
    exact Moves.refl spool
  · have reading : ∀ record, spool.indexRecords.get? id = some record → ∀ other,
        (spool.closeFileIfNeeded expired).indexRecords.get? other =
          if other = id then some { record with status := .pending }
          else spool.indexRecords.get? other := by
      intro record found other
      rw [closed, changeRecord_of_found found]
      exact AssocMap.get?_put _ _ _ _
    have shape : (spool.closeFileIfNeeded expired).indexFile =
        (spool.closeFileIfNeeded expired).indexRecords ∧
        (spool.closeFileIfNeeded expired).indexQueue = spool.indexQueue ++ [id] ∧
        (spool.closeFileIfNeeded expired).currentWriterIndexRecord = none ∧
        (spool.closeFileIfNeeded expired).currentConsumerIndexRecord =
          spool.currentConsumerIndexRecord ∧
        (spool.closeFileIfNeeded expired).destinationThread = spool.destinationThread := by
      rw [closed]
      unfold changeRecord
      split <;> exact ⟨rfl, rfl, rfl, rfl, rfl⟩
    obtain ⟨saved, queue, released, consumer, thread⟩ := shape
    constructor
    · intro apart
      obtain ⟨record, found, status⟩ := apart.writer id writer
      have records := reading record found
      obtain ⟨unqueued, unread⟩ := apart.unread id writer
      -- nothing is written any more
      have closedAll : ∀ other otherRecord,
          (spool.closeFileIfNeeded expired).indexRecords.get? other = some otherRecord →
            otherRecord.status ≠ .write_inprogress := by
        intro other otherRecord stored written
        rw [records] at stored
        split at stored
        · rw [← Option.some.inj stored] at written
          cases written
        · next different =>
            have now := apart.written other otherRecord stored written
            rw [writer] at now
            exact different (Option.some.inj now).symm
      refine ⟨?_, ?_, ?_, ?_, ?_, ?_, ?_⟩
      · intro other now
        rw [released] at now
        cases now
      · exact fun other otherRecord stored written =>
          absurd written (closedAll other otherRecord stored)
      · rw [saved]
        exact fun other otherRecord _ _ stored _ written =>
          absurd written (closedAll other otherRecord stored)
      · intro other now
        rw [released] at now
        cases now
      · rw [queue]
        refine List.nodup_append.mpr ⟨apart.once, List.nodup_singleton _, ?_⟩
        intro first queued second last same
        exact unqueued (List.mem_singleton.mp last ▸ same ▸ queued)
      · intro other now queued
        rw [consumer] at now
        rw [queue] at queued
        obtain before | last := List.mem_append.mp queued
        · exact apart.polled other now before
        · exact unread (List.mem_singleton.mp last ▸ now)
      · intro removing other now
        rw [thread] at removing
        rw [consumer] at now
        have different : other ≠ id := fun same => unread (same ▸ now)
        rw [records, if_neg different]
        exact apart.removed removing other now
    · intro apart placed other otherRecord stored unfinished
      obtain ⟨record, found, status⟩ := apart.writer id writer
      by_cases same : other = id
      · refine ⟨.queue, ?_⟩
        change other ∈ _
        rw [queue, same]
        exact List.mem_append_right _ (List.mem_singleton_self id)
      · rw [reading record found, if_neg same] at stored
        obtain ⟨place, here⟩ := placed other otherRecord stored unfinished
        cases place with
        | writer =>
            rw [Holds, writer] at here
            exact absurd (Option.some.inj here).symm same
        | consumer => exact ⟨.consumer, consumer.trans here⟩
        | queue =>
            refine ⟨.queue, ?_⟩
            change other ∈ _
            rw [queue]
            exact List.mem_append_left _ here

/-- A new file is written under an id that is not in use, when none is written. -/
theorem moves_openFile {id fileName : String} (unused : spool.isUnused id fileName = true)
    (free : spool.currentWriterIndexRecord = none)
    (running : spool.destinationThread ≠ .removed) :
    Moves spool (spool.openFile id fileName) := by
  simp only [isUnused, Bool.and_eq_true, Bool.not_eq_true', Bool.eq_false_iff, ne_eq,
    AssocMap.containsKey_iff, ← AssocMap.get?_eq_none_iff, List.contains_iff_mem,
    bne_iff_ne] at unused
  obtain ⟨⟨_, unqueued⟩, unread⟩ := unused
  have opened : Moves spool
      { spool with
        files := spool.files.put fileName {}
        indexRecords := spool.indexRecords.put id { filePath := fileName, lastAttempt := true }
        currentWriterIndexRecord := some id } := by
    constructor
    · intro apart
      refine ⟨?_, ?_, apart.saved, ?_, apart.once, apart.polled, fun thread =>
        absurd thread running⟩
      · intro other now
        cases now
        exact ⟨_, (AssocMap.get?_put _ _ _ _).trans (if_pos rfl), rfl⟩
      · intro other record stored written
        rw [AssocMap.get?_put] at stored
        split at stored
        · next same => rw [same]
        · have now := apart.written other record stored written
          rw [free] at now
          cases now
      · intro other now
        cases now
        exact ⟨unqueued, unread⟩
    · intro _ placed other record stored unfinished
      by_cases same : other = id
      · exact ⟨.writer, congrArg some same.symm⟩
      · change (spool.indexRecords.put id _).get? other = some record at stored
        rw [AssocMap.get?_put, if_neg same] at stored
        obtain ⟨place, here⟩ := placed other record stored unfinished
        cases place with
        | writer =>
            rw [Holds, free] at here
            cases here
        | consumer => exact ⟨.consumer, here⟩
        | queue => exact ⟨.queue, here⟩
  exact opened.trans (moves_saveIndexFile _)

theorem moves_poll (spool : AuditFileSpool) (running : spool.destinationThread ≠ .removed) :
    Moves spool spool.poll := by
  unfold AuditFileSpool.poll
  split
  · next id rest idle queue =>
      constructor
      · intro apart
        have distinct := apart.once
        rw [queue, List.nodup_cons] at distinct
        refine ⟨apart.writer, apart.written, apart.saved, ?_, distinct.2, ?_, fun thread =>
          absurd thread running⟩
        · intro other now
          have unqueued := (apart.unread other now).1
          rw [queue, List.mem_cons, not_or] at unqueued
          exact ⟨unqueued.2, fun same => unqueued.1 (Option.some.inj same).symm⟩
        · intro other now
          cases now
          exact distinct.1
      · intro _ placed other record stored unfinished
        obtain ⟨place, here⟩ := placed other record stored unfinished
        cases place with
        | writer => exact ⟨.writer, here⟩
        | consumer =>
            rw [Holds, idle] at here
            nomatch here
        | queue =>
            rw [Holds, queue] at here
            obtain rfl | later := List.mem_cons.mp here
            · exact ⟨.consumer, rfl⟩
            · exact ⟨.queue, later⟩
  · exact Moves.refl spool

/-- The record the destination thread is at leaves the index, and then its place. -/
theorem moves_remove {id : String} (current : spool.currentConsumerIndexRecord = some id)
    (done : List (String × AuditIndexRecord)) (files : AssocMap String SpoolFile) :
    Moves spool
      { spool with
        indexRecords := spool.indexRecords.filterKeys (· != id)
        indexDoneFile := done
        files := files
        destinationThread := .removed } := by
  have kept : ∀ other record,
      (spool.indexRecords.filterKeys (· != id)).get? other = some record →
        spool.indexRecords.get? other = some record ∧ other ≠ id := by
    intro other record stored
    rw [AssocMap.get?_filterKeys] at stored
    split at stored
    · next different => exact ⟨stored, bne_iff_ne.mp different⟩
    · cases stored
  constructor
  · intro apart
    refine ⟨?_, ?_, apart.saved, apart.unread, apart.once, apart.polled, ?_⟩
    · intro other now
      obtain ⟨record, stored, written⟩ := apart.writer other now
      have different : other ≠ id := fun same => (apart.unread other now).2 (same ▸ current)
      refine ⟨record, (AssocMap.get?_filterKeys _ _ _).trans ?_, written⟩
      exact (if_pos (bne_iff_ne.mpr different)).trans stored
    · exact fun other record stored => apart.written other record (kept other record stored).1
    · intro _ other now
      have same : other = id := Option.some.inj (now.symm.trans current)
      rw [AssocMap.get?_filterKeys, if_neg (by simp [same])]
  · intro _ placed other record stored unfinished
    obtain ⟨place, here⟩ := placed other record (kept other record stored).1 unfinished
    exact ⟨place, by cases place <;> exact here⟩

theorem moves_release (removed : spool.destinationThread = .removed) :
    Moves spool
      { spool with
        currentConsumerIndexRecord := none
        destinationThread := .looping } := by
  constructor
  · intro apart
    refine ⟨apart.writer, apart.written, apart.saved, ?_, apart.once, nofun, nofun⟩
    exact fun other now => ⟨(apart.unread other now).1, nofun⟩
  · intro apart placed other record stored unfinished
    obtain ⟨place, here⟩ := placed other record stored unfinished
    cases place with
    | writer => exact ⟨.writer, here⟩
    | consumer =>
        rw [apart.removed removed other here] at stored
        nomatch stored
    | queue => exact ⟨.queue, here⟩

end Primitives

section Events

variable {spool : AuditFileSpool}

theorem moves_moveTo (spool : AuditFileSpool) {thread : DestinationThread}
    (running : thread ≠ .removed) :
    Moves spool { spool with destinationThread := thread } :=
  moves_of_eq rfl rfl rfl rfl rfl fun removed => absurd removed running

theorem destinationThread_closeFileIfNeeded (expired : Bool) :
    (spool.closeFileIfNeeded expired).destinationThread = spool.destinationThread := by
  obtain unchanged | ⟨id, _, closed⟩ := closeFileIfNeeded_cases expired spool
  · rw [unchanged]
  · rw [closed]
    unfold changeRecord
    split <;> rfl

theorem moves_stashLogs {id fileName : String} (unused : spool.isUnused id fileName = true)
    (running : spool.destinationThread ≠ .removed) (lines : List String) (expired : Bool) :
    Moves spool (spool.stashLogs lines expired id fileName) := by
  refine Moves.of_apart fun apart => ?_
  have stream : Moves spool (spool.getLogFileStream expired id fileName) := by
    have closed := moves_closeFileIfNeeded expired spool
    have still := isUnused_closeFileIfNeeded apart.writer unused expired
    rw [← destinationThread_closeFileIfNeeded expired] at running
    unfold getLogFileStream
    dsimp only
    split
    · next free => exact closed.trans (moves_openFile still free running)
    · exact closed
  unfold AuditFileSpool.stashLogs
  dsimp only
  split
  · exact stream
  · exact stream.trans (moves_of_eq rfl rfl rfl rfl rfl fun removed => removed)

theorem moves_changeRecord {id : String} {change : AuditIndexRecord → AuditIndexRecord}
    (current : spool.currentConsumerIndexRecord = some id)
    (status : ∀ record, (change record).status ≠ .write_inprogress ∨
      (change record).status = record.status)
    (running : spool.destinationThread ≠ .removed) :
    Moves spool (spool.changeRecord id change) := by
  refine Moves.of_apart fun apart => ?_
  unfold changeRecord
  split
  · exact Moves.refl spool
  · next record found =>
      refine moves_put _ current ?_ running
      obtain other | same := status record
      · exact other
      · intro written
        rw [same] at written
        exact (apart.unread id (apart.written id record found written)).2 current

theorem moves_readOn (maxBatchSize startLine currLine : Nat) (unread : List String)
    (running : spool.destinationThread ≠ .removed) :
    Moves spool (spool.readOn maxBatchSize startLine currLine unread) := by
  unfold AuditFileSpool.readOn
  dsimp only
  split
  · split
    · exact moves_moveTo spool nofun
    · next id current =>
        exact (moves_changeRecord current (fun _ => .inl (by simp)) running).trans
          (moves_moveTo _ nofun)
  · exact moves_moveTo spool nofun

theorem moves_turn (looping : spool.destinationThread = .looping) (maxBatchSize : Nat)
    (expired : Bool) : Moves spool (spool.turn maxBatchSize expired) := by
  have running : spool.destinationThread ≠ .removed := by rw [looping]; nofun
  have polled := moves_poll spool running
  rw [← poll_destinationThread] at running
  obtain ⟨_, closed⟩ | ⟨id, record, current, memory, ⟨file, read, opened⟩ | ⟨_, missing⟩⟩ :=
    turn_cases maxBatchSize expired spool
  · rw [closed]
    exact polled.trans (moves_closeFileIfNeeded expired _)
  · rw [opened]
    exact polled.trans (moves_readOn maxBatchSize _ _ _ running)
  · rw [missing]
    exact polled.trans (moves_moveTo _ nofun)

theorem moves_sendEvent {reader : Reader} (sending : spool.destinationThread = .sending reader)
    (maxBatchSize : Nat) (result : LogResult) :
    Moves spool (spool.sendEvent maxBatchSize reader result) := by
  have running : spool.destinationThread ≠ .removed := by rw [sending]; nofun
  unfold AuditFileSpool.sendEvent
  split
  · next id record current found =>
      have called : Moves spool { spool with
          calls := spool.calls ++ [⟨record.filePath, reader.currLine, reader.lines, result⟩] } :=
        moves_of_eq rfl rfl rfl rfl rfl fun thread => thread
      cases result with
      | accepted =>
          refine called.trans (Moves.trans ?_ (moves_moveTo _ nofun))
          exact moves_changeRecord current (fun _ => .inl (by simp)) running
      | refused =>
          refine called.trans (Moves.trans ?_ (moves_moveTo _ nofun))
          refine Moves.trans ?_ (moves_saveIndexFile _)
          exact moves_changeRecord current (fun _ => .inr rfl) running
      | threw => exact called.trans (moves_readOn maxBatchSize _ _ _ running)
  · exact Moves.refl spool

theorem moves_appendToDoneFile (spool : AuditFileSpool) : Moves spool spool.appendToDoneFile := by
  obtain unchanged | ⟨id, record, current, _, removed⟩ := appendToDoneFile_cases spool
  · rw [unchanged]
    exact Moves.refl spool
  · rw [removed]
    exact moves_remove current _ _

theorem moves_finishRemoval (removed : spool.destinationThread = .removed) (expired : Bool) :
    Moves spool (spool.finishRemoval expired) :=
  (moves_saveIndexFile spool).trans
    ((@moves_release spool.saveIndexFile removed).trans (moves_closeFileIfNeeded expired _))

/-- Every event of a process hands the records on. -/
theorem moves_step (maxBatchSize : Nat) {event : Event} (running : event ≠ .restart) :
    Moves spool (spool.step maxBatchSize event) := by
  unfold AuditFileSpool.step
  split
  · exact absurd rfl running
  · exact Moves.refl spool
  · next _ lines expired id fileName running =>
      split
      · next unused => exact moves_stashLogs unused running lines expired
      · exact Moves.refl spool
  · next looping => exact moves_turn looping maxBatchSize _
  · next sending => exact moves_sendEvent sending maxBatchSize _
  · next saving =>
      refine (moves_saveIndexFile spool).trans (moves_readOn maxBatchSize _ _ _ ?_)
      change spool.destinationThread ≠ _
      rw [saving]
      nofun
  · exact moves_appendToDoneFile spool
  · next removed => exact moves_finishRemoval removed _
  · exact Moves.refl spool

end Events

section Restart

variable {spool : AuditFileSpool}

theorem mem_map_fst_filter {entries : AssocMap String AuditIndexRecord}
    {test : String × AuditIndexRecord → Bool} {id : String} :
    id ∈ (entries.entries.filter test).map Prod.fst ↔
      ∃ record, entries.get? id = some record ∧ test (id, record) = true := by
  constructor
  · intro listed
    obtain ⟨⟨other, record⟩, kept, rfl⟩ := List.mem_map.mp listed
    obtain ⟨stored, passes⟩ := List.mem_filter.mp kept
    exact ⟨record, AssocMap.get?_eq_some_iff.mpr stored, passes⟩
  · intro ⟨record, stored, passes⟩
    exact List.mem_map.mpr ⟨(id, record),
      List.mem_filter.mpr ⟨AssocMap.get?_eq_some_iff.mp stored, passes⟩, rfl⟩

theorem mem_indexQueue_restart {id : String} : id ∈ spool.restart.indexQueue ↔
    ∃ record, spool.indexFile.get? id = some record ∧
      (record.status = .read_inprogress ∨
        record.status = .pending ∧ spool.fileExists record.filePath = true) := by
  unfold AuditFileSpool.restart
  simp only [List.mem_append, mem_map_fst_filter, beq_iff_eq, Bool.and_eq_true, ← exists_or,
    ← and_or_left]

/-- The record that is written goes to the writer. -/
theorem currentWriterIndexRecord_restart (apart : spool.Apart) {id : String} :
    spool.restart.currentWriterIndexRecord = some id ↔
      ∃ record, spool.indexFile.get? id = some record ∧ record.status = .write_inprogress := by
  unfold AuditFileSpool.restart
  dsimp only
  constructor
  · intro found
    obtain ⟨⟨other, record⟩, last, rfl⟩ := Option.map_eq_some_iff.mp found
    have stored := List.mem_reverse.mp (List.mem_of_find?_eq_some last)
    exact ⟨record, AssocMap.get?_eq_some_iff.mpr stored,
      beq_iff_eq.mp (List.find?_some last :)⟩
  · intro ⟨record, stored, written⟩
    have present : (id, record) ∈ spool.indexFile.entries.reverse :=
      List.mem_reverse.mpr (AssocMap.get?_eq_some_iff.mp stored)
    cases last : spool.indexFile.entries.reverse.find? fun entry =>
        entry.2.status == .write_inprogress with
    | none =>
        have missed := List.find?_eq_none.mp last _ present
        exact absurd (beq_iff_eq.mpr written) missed
    | some entry =>
        obtain ⟨other, otherRecord⟩ := entry
        have otherStored := List.mem_reverse.mp (List.mem_of_find?_eq_some last)
        have otherWritten : otherRecord.status = .write_inprogress :=
          beq_iff_eq.mp (List.find?_some last :)
        exact congrArg some (apart.saved other otherRecord id record
          (AssocMap.get?_eq_some_iff.mpr otherStored) stored otherWritten written)

theorem nodup_indexQueue_restart : spool.restart.indexQueue.Nodup := by
  have part : ∀ test : String × AuditIndexRecord → Bool,
      ((spool.indexFile.entries.filter test).map Prod.fst).Nodup :=
    fun _ => spool.indexFile.nodup.sublist (List.filter_sublist.map _)
  refine List.nodup_append.mpr ⟨part _, part _, ?_⟩
  intro first reading second waiting same
  obtain ⟨record, stored, status⟩ := mem_map_fst_filter.mp reading
  obtain ⟨other, otherStored, passes⟩ := mem_map_fst_filter.mp waiting
  rw [← same, stored] at otherStored
  rw [← Option.some.inj otherStored, beq_iff_eq.mp status] at passes
  nomatch passes

theorem Apart.restart (apart : spool.Apart) : spool.restart.Apart where
  writer id now := (currentWriterIndexRecord_restart apart).mp now
  written id record stored written :=
    (currentWriterIndexRecord_restart apart).mpr ⟨record, stored, written⟩
  saved := apart.saved
  unread id now := by
    refine ⟨fun queued => ?_, nofun⟩
    obtain ⟨record, stored, written⟩ := (currentWriterIndexRecord_restart apart).mp now
    obtain ⟨other, otherStored, status⟩ := mem_indexQueue_restart.mp queued
    rw [stored] at otherStored
    rw [← Option.some.inj otherStored, written] at status
    obtain impossible | ⟨impossible, -⟩ := status <;> nomatch impossible
  once := nodup_indexQueue_restart
  polled := nofun
  removed := nofun

/-- **A restart places every record** exactly if it finds the files that wait. -/
theorem Apart.placed_restart_iff (apart : spool.Apart) :
    spool.restart.Placed ↔ spool.FindsPending := by
  constructor
  · intro placed id record stored waiting
    obtain ⟨place, here⟩ := placed id record stored (by rw [waiting]; nofun)
    cases place with
    | writer =>
        obtain ⟨other, otherStored, written⟩ := (currentWriterIndexRecord_restart apart).mp here
        rw [stored] at otherStored
        rw [← Option.some.inj otherStored, waiting] at written
        nomatch written
    | consumer => nomatch here
    | queue =>
        obtain ⟨other, otherStored, status⟩ := mem_indexQueue_restart.mp here
        rw [stored] at otherStored
        rw [← Option.some.inj otherStored, waiting] at status
        obtain impossible | ⟨-, present⟩ := status
        · nomatch impossible
        · exact present
  · intro finds id record stored unfinished
    cases status : record.status with
    | pending =>
        exact ⟨.queue, mem_indexQueue_restart.mpr
          ⟨record, stored, .inr ⟨status, finds id record stored status⟩⟩⟩
    | write_inprogress =>
        exact ⟨.writer, (currentWriterIndexRecord_restart apart).mpr ⟨record, stored, status⟩⟩
    | read_inprogress =>
        exact ⟨.queue, mem_indexQueue_restart.mpr ⟨record, stored, .inl status⟩⟩
    | done => exact absurd status unfinished

theorem apart_keepFiles (apart : spool.Apart) (kept : List String) :
    (spool.keepFiles kept).Apart :=
  (show Moves spool (spool.keepFiles kept) from
    moves_of_eq rfl rfl rfl rfl rfl fun removed => removed).apart apart

end Restart

section Runs

theorem apart_new : ({} : AuditFileSpool).Apart where
  writer := nofun
  written := nofun
  saved := nofun
  unread := nofun
  once := List.nodup_nil
  polled := nofun
  removed := nofun

theorem Apart.diskStep {spool : AuditFileSpool} (apart : spool.Apart) (maxBatchSize : Nat)
    (event : DiskEvent) : (spool.diskStep maxBatchSize event).Apart := by
  cases event with
  | event event =>
      by_cases restarts : event = .restart
      · rw [restarts]
        exact apart.restart
      · exact (moves_step maxBatchSize restarts).apart apart
  | restartWith kept => exact (apart_keepFiles apart kept).restart

/-- An event keeps every record in its place exactly if it is no restart that misses a file. -/
theorem Custody.diskStep_iff {spool : AuditFileSpool} (custody : spool.Custody)
    (apart : spool.Apart) (maxBatchSize : Nat) (event : DiskEvent) :
    (spool.diskStep maxBatchSize event).Custody ↔ spool.RestartsComplete event := by
  refine (apart.diskStep maxBatchSize event).custody_iff.trans ?_
  cases event with
  | event event =>
      by_cases restarts : event = .restart
      · rw [restarts]
        exact apart.placed_restart_iff
      · have before := apart.custody_iff.mp custody
        have placed := (moves_step maxBatchSize restarts).placed apart before
        have free : spool.RestartsComplete (.event event) := by
          cases event with
          | restart => exact absurd rfl restarts
          | _ => trivial
        exact iff_of_true placed free
  | restartWith kept => exact (apart_keepFiles apart kept).placed_restart_iff

/-- **Every record in one place.** In every part of a run each record that is not done is
with the writer, with the destination thread or in the queue exactly if each restart finds
the files that wait. -/
theorem custody_iff_restartsComplete (maxBatchSize : Nat) (events : List DiskEvent) :
    (∀ done rest, events = done ++ rest → (diskRun maxBatchSize done).Custody) ↔
      ∀ done event rest, events = done ++ event :: rest →
        (diskRun maxBatchSize done).RestartsComplete event := by
  have first : ({} : AuditFileSpool).Custody := apart_new.custody_iff.mpr nofun
  exact @Run.forall_prefix_iff_of_allowed _ _ _
    (fun spool event => ((), diskStep maxBatchSize spool event)) Apart Custody (fun _ _ => True)
    RestartsComplete (fun _ event apart _ => apart.diskStep maxBatchSize event)
    (fun _ event apart _ custody => custody.diskStep_iff apart maxBatchSize event) {} apart_new
    first events fun _ _ _ _ => trivial

/-- A line is stashed, its file is closed and queued, and is lost while no process runs. -/
def lostFileRun : List DiskEvent :=
  [.event (.stashLogs ["line"] false "record" "spool.log"), .event (.turn false),
    .restartWith []]

/-- The record of the lost file stays in the index and is nowhere else. -/
theorem lost_file_left_out :
    (diskRun 10 lostFileRun).indexRecords.get? "record" =
        some { filePath := "spool.log", status := .pending, lastAttempt := true } ∧
      ¬(diskRun 10 lostFileRun).Custody := by
  have stored : (diskRun 10 lostFileRun).indexRecords.get? "record" =
      some { filePath := "spool.log", status := .pending, lastAttempt := true } := by decide
  refine ⟨stored, fun custody => ?_⟩
  obtain ⟨place, here, -⟩ := custody.placed "record" _ stored nofun
  cases place with
  | writer => exact absurd here (by decide : (diskRun 10 lostFileRun).currentWriterIndexRecord ≠ _)
  | consumer =>
      exact absurd here (by decide : (diskRun 10 lostFileRun).currentConsumerIndexRecord ≠ _)
  | queue => exact absurd here (by decide : "record" ∉ (diskRun 10 lostFileRun).indexQueue)

end Runs

end AuditFileSpool

end Ranger

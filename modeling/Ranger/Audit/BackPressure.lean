import Ranger.Audit.BatchQueue

/-! # Back-pressure against the file spool

While files of the spool are pending, the thread of the batch queue leaves the queue
alone until a threshold is reached. What is compared with the threshold is the share of
the queue that is free.
-/

namespace Ranger

open Foundation

namespace AuditBatchQueue

variable {ε : Type}

/-- One iteration of `run` while files are pending: its times and the answers it gets,
and what other threads log in the meantime. -/
structure Iteration (ε : Type) where
  now : Int
  later : Int
  lastAttemptDelta : Int
  interrupted : Bool
  beforePoll : List ε
  polledAt : Int
  beforeDrain : List ε
  beforeDispatch : List ε
  dispatchedAt : Int
  ret : Bool

def Iteration.events (iteration : Iteration ε) : List (Event ε) :=
  .enter iteration.now iteration.later iteration.lastAttemptDelta true iteration.interrupted ::
    (iteration.beforePoll.map .log ++ .poll iteration.polledAt iteration.interrupted ::
      (iteration.beforeDrain.map .log ++ .drainTo ::
        (iteration.beforeDispatch.map .log ++
          [.dispatch iteration.dispatchedAt iteration.ret, .check])))

variable (queue : AuditBatchQueue ε) (iteration : Iteration ε)

def runEvents (events : List (Event ε)) : AuditBatchQueue ε :=
  Run.final (fun queue event => ((), step queue event)) queue events

def iterate : AuditBatchQueue ε := queue.runEvents iteration.events

/-- The thread is at the top of its loop, has a file spooler, is not draining and has not
waited for it too long. -/
structure Patient : Prop where
  looping : queue.consumerThread = .looping
  spooler : queue.fileSpoolerEnabled = true
  notDraining : queue.isDrain = false
  withinWait : iteration.lastAttemptDelta ≤ queue.fileSpoolMaxWaitTime

/-- The queue holds less than the threshold. -/
def OccupancyBelow : Prop :=
  (queue.queue.length : Int) * 100 < queue.fileSpoolDrainThresholdPercent * queue.maxQueueSize

/-- What is free of the queue is less than the threshold, in `int` arithmetic. -/
def FreeBelow : Prop :=
  (Int.bmod ((queue.maxQueueSize - queue.queue.length) * 100) 4294967296).tdiv
    queue.maxQueueSize < queue.fileSpoolDrainThresholdPercent

/-- Nothing was taken out of the queue; events may have come behind. -/
def Waits (before after : AuditBatchQueue ε) : Prop :=
  ∃ logged, after.accepted = before.accepted ++ logged ∧ after.queue = before.queue ++ logged

/-- The first events of the queue were stashed, behind those of the buffer. -/
def Spools (before after : AuditBatchQueue ε) : Prop :=
  ∃ logged taken, taken ≠ [] ∧ after.accepted = before.accepted ++ logged ∧
    taken ++ after.queue = before.queue ++ logged ∧
    after.batches = before.batches ++ [⟨before.localBatchBuffer ++ taken, .stashed⟩]

/-- The queued events wait exactly below the threshold, and else are moved to the spool. -/
def ObeysThreshold : Prop :=
  queue.queue ≠ [] →
    (Waits queue (queue.iterate iteration) ↔ queue.OccupancyBelow) ∧
      (¬queue.OccupancyBelow → Spools queue (queue.iterate iteration))

variable {queue iteration}

/-- Events that are stashed do not wait. -/
theorem Spools.not_waits {after : AuditBatchQueue ε} (spools : Spools queue after) :
    ¬Waits queue after := by
  obtain ⟨logged, taken, some, accepted, moved, _⟩ := spools
  intro ⟨others, same, kept⟩
  have listed := List.append_cancel_left (accepted.symm.trans same)
  rw [kept, listed] at moved
  have lengths := congrArg List.length moved
  rw [List.length_append] at lengths
  exact some (List.length_eq_zero_iff.mp (by omega))

/-- Logging only adds to the queue. -/
theorem runEvents_log (queue : AuditBatchQueue ε) (events : List ε) :
    ∃ logged, queue.runEvents (events.map .log) =
      { queue with queue := queue.queue ++ logged, accepted := queue.accepted ++ logged } := by
  induction events generalizing queue with
  | nil =>
      refine ⟨[], ?_⟩
      simp only [List.append_nil]
      rfl
  | cons event rest ih =>
      change ∃ logged, (queue.log event).runEvents (rest.map .log) = _
      obtain ⟨logged, same⟩ := ih (queue.log event)
      rw [same]
      unfold log
      split
      · refine ⟨event :: logged, ?_⟩
        simp only [List.append_assoc, List.singleton_append]
      · exact ⟨logged, rfl⟩

section Waiting

/-- The thread is past the reading of the queue or did not come to it, and the events wait. -/
structure Withheld (before queue : AuditBatchQueue ε) : Prop where
  notPolling : ∀ isToSpool fileSpoolDrain duration,
    queue.consumerThread ≠ .polling isToSpool fileSpoolDrain duration
  notDraining : ∀ isToSpool duration, queue.consumerThread ≠ .draining isToSpool duration
  waits : Waits before queue

/-- The thread does not come to the top of its loop by the event. -/
def Event.Goes : Event ε → Prop
  | .enter .. => False
  | .setDrain => False
  | _ => True

theorem Withheld.step {before : AuditBatchQueue ε} (withheld : Withheld before queue)
    {event : Event ε} (goes : event.Goes) : Withheld before (queue.step event) := by
  obtain ⟨notPolling, notDraining, logged, accepted, kept⟩ := withheld
  cases event with
  | enter => exact goes.elim
  | setDrain => exact goes.elim
  | log event =>
      change Withheld before (queue.log event)
      unfold log
      split
      · refine ⟨notPolling, notDraining, logged ++ [event], ?_, ?_⟩
        · rw [accepted, List.append_assoc]
        · rw [kept, List.append_assoc]
      · exact ⟨notPolling, notDraining, logged, accepted, kept⟩
  | poll now interrupted =>
      have same : queue.step (.poll now interrupted) = queue := by
        unfold AuditBatchQueue.step
        cases thread : queue.consumerThread with
        | polling => exact absurd thread (notPolling _ _ _)
        | _ => rfl
      rw [same]
      exact ⟨notPolling, notDraining, logged, accepted, kept⟩
  | drainTo =>
      have same : queue.step .drainTo = queue := by
        unfold AuditBatchQueue.step
        cases thread : queue.consumerThread with
        | draining => exact absurd thread (notDraining _ _)
        | _ => rfl
      rw [same]
      exact ⟨notPolling, notDraining, logged, accepted, kept⟩
  | dispatch now ret =>
      unfold AuditBatchQueue.step
      cases thread : queue.consumerThread with
      | dispatching isToSpool nextDispatchDuration =>
          dsimp only
          unfold dispatch
          split
          · exact ⟨nofun, nofun, logged, accepted, kept⟩
          · split
            · exact ⟨nofun, nofun, logged, accepted, kept⟩
            · exact ⟨nofun, nofun, logged, accepted, kept⟩
      | _ => exact ⟨notPolling, notDraining, logged, accepted, kept⟩
  | check =>
      unfold AuditBatchQueue.step
      cases thread : queue.consumerThread with
      | checking =>
          dsimp only
          unfold check
          split
          · exact ⟨nofun, nofun, logged, accepted, kept⟩
          · exact ⟨nofun, nofun, logged, accepted, kept⟩
      | _ => exact ⟨notPolling, notDraining, logged, accepted, kept⟩

theorem Withheld.runEvents {before : AuditBatchQueue ε} (withheld : Withheld before queue)
    {events : List (Event ε)} (go : ∀ event ∈ events, event.Goes) :
    Withheld before (queue.runEvents events) := by
  have steps : ∀ queue (event : Event ε), Withheld before queue → event.Goes →
      Withheld before (queue.step event) := fun _ _ withheld goes => withheld.step goes
  refine Run.forall_prefix_of_allowed steps withheld (fun done event rest split => ?_) events []
    (List.append_nil events).symm
  exact go event (split ▸ List.mem_append_right _ List.mem_cons_self)

/-- Below the threshold the thread leaves the queue alone. -/
theorem waits_iterate (patient : queue.Patient iteration) (below : queue.FreeBelow) :
    Waits queue (queue.iterate iteration) := by
  have entered : Withheld queue (queue.step (.enter iteration.now iteration.later
      iteration.lastAttemptDelta true iteration.interrupted)) := by
    have kept : Waits queue queue := ⟨[], (List.append_nil _).symm, (List.append_nil _).symm⟩
    have short : queue.percentUsed < queue.fileSpoolDrainThresholdPercent := below
    have within : ¬iteration.lastAttemptDelta > queue.fileSpoolMaxWaitTime :=
      not_lt_of_ge patient.withinWait
    unfold AuditBatchQueue.step
    rw [patient.looping]
    simp only [enter, patient.spooler, patient.notDraining, short, within, decide_true,
      decide_false, Bool.not_false, Bool.and_true, ↓reduceIte]
    have notPolling : ∀ isToSpool fileSpoolDrain duration,
        queue.consumerThread ≠ .polling isToSpool fileSpoolDrain duration := by
      rw [patient.looping]
      exact nofun
    have notDraining : ∀ isToSpool duration,
        queue.consumerThread ≠ .draining isToSpool duration := by
      rw [patient.looping]
      exact nofun
    split
    · split
      · exact ⟨nofun, nofun, kept⟩
      · exact ⟨notPolling, notDraining, kept⟩
    · exact ⟨notPolling, notDraining, kept⟩
  refine (entered.runEvents fun event listed => ?_).waits
  simp only [List.mem_append, List.mem_cons, List.mem_map, List.not_mem_nil, or_false] at listed
  obtain ⟨_, _, rfl⟩ | rfl | ⟨_, _, rfl⟩ | rfl | ⟨_, _, rfl⟩ | rfl | rfl := listed <;> trivial

end Waiting

section Spooling

/-- What the thread took in the iteration is in the buffer. -/
structure Taken (before queue : AuditBatchQueue ε) (taken : List ε) : Prop where
  moved : ∃ logged, queue.accepted = before.accepted ++ logged ∧
    taken ++ queue.queue = before.queue ++ logged
  buffer : queue.localBatchBuffer = before.localBatchBuffer ++ taken
  batches : queue.batches = before.batches

theorem Taken.log {before : AuditBatchQueue ε} {taken : List ε} (took : Taken before queue taken)
    (events : List ε) :
    Taken before (queue.runEvents (events.map .log)) taken ∧
      (queue.runEvents (events.map .log)).consumerThread = queue.consumerThread ∧
      queue.queue <+: (queue.runEvents (events.map .log)).queue := by
  obtain ⟨logged, same⟩ := runEvents_log queue events
  obtain ⟨before_logged, accepted, moved⟩ := took.moved
  rw [same]
  refine ⟨⟨⟨before_logged ++ logged, ?_, ?_⟩, took.buffer, took.batches⟩, rfl,
    List.prefix_append _ _⟩
  · rw [accepted, List.append_assoc]
  · rw [← List.append_assoc, moved, List.append_assoc]

theorem Taken.poll {before : AuditBatchQueue ε} (took : Taken before queue [])
    {fileSpoolDrain : Bool} {duration : Int}
    (polling : queue.consumerThread = .polling true fileSpoolDrain duration)
    (some : queue.queue ≠ []) (now : Int) (interrupted : Bool) :
    ∃ event, Taken before (queue.step (.poll now interrupted)) [event] ∧
      ((queue.step (.poll now interrupted)).consumerThread = .draining true duration ∨
        (queue.step (.poll now interrupted)).consumerThread = .dispatching true duration) := by
  obtain ⟨⟨logged, accepted, moved⟩, buffer, batches⟩ := took
  unfold AuditBatchQueue.step
  rw [polling]
  dsimp only
  unfold AuditBatchQueue.poll
  cases listed : queue.queue with
  | nil => exact absurd listed some
  | cons event rest =>
      refine ⟨event, ⟨⟨logged, accepted, ?_⟩, ?_, batches⟩, ?_⟩
      · rw [← moved, listed]
        rfl
      · rw [List.append_nil] at buffer
        exact congrArg (· ++ [event]) buffer
      · simp only [Bool.not_true, Bool.false_and, Bool.false_eq_true, ↓reduceIte]
        split
        · exact Or.inl rfl
        · exact Or.inr rfl

theorem Taken.drainTo {before : AuditBatchQueue ε} {taken : List ε}
    (took : Taken before queue taken) {duration : Int}
    (thread : queue.consumerThread = .draining true duration ∨
      queue.consumerThread = .dispatching true duration) :
    ∃ more, Taken before (queue.step .drainTo) (taken ++ more) ∧
      (queue.step .drainTo).consumerThread = .dispatching true duration := by
  obtain ⟨⟨logged, accepted, moved⟩, buffer, batches⟩ := took
  unfold AuditBatchQueue.step
  obtain draining | dispatching := thread
  · rw [draining]
    refine ⟨queue.queue.take (queue.maxBatchSize - queue.localBatchBuffer.length).toNat,
      ⟨⟨logged, accepted, ?_⟩, ?_, batches⟩, rfl⟩
    · rw [← moved, List.append_assoc]
      exact congrArg (taken ++ ·) (List.take_append_drop _ _)
    · rw [← List.append_assoc, ← buffer]
      rfl
  · rw [dispatching]
    refine ⟨[], ?_, dispatching⟩
    rw [List.append_nil]
    exact ⟨⟨logged, accepted, moved⟩, buffer, batches⟩

theorem Taken.dispatch {before : AuditBatchQueue ε} {taken : List ε}
    (took : Taken before queue taken) (some : taken ≠ []) {duration : Int}
    (dispatching : queue.consumerThread = .dispatching true duration) (now : Int) (ret : Bool) :
    Spools before (queue.runEvents [.dispatch now ret, .check]) := by
  obtain ⟨⟨logged, accepted, moved⟩, buffer, batches⟩ := took
  have full : queue.localBatchBuffer ≠ [] := by
    rw [buffer]
    exact List.append_ne_nil_of_right_ne_nil _ some
  have departed : queue.step (.dispatch now ret) = queue.depart .stashed now := by
    unfold AuditBatchQueue.step
    rw [dispatching]
    exact if_pos ⟨full, rfl⟩
  change Spools before ((queue.step (.dispatch now ret)).step .check)
  rw [departed]
  refine ⟨logged, taken, some, accepted, moved, ?_⟩
  change queue.batches ++ [⟨queue.localBatchBuffer, .stashed⟩] = _
  rw [batches, buffer]

/-- Else the thread takes the first events to the spool. -/
theorem spools_iterate (patient : queue.Patient iteration) (above : ¬queue.FreeBelow)
    (some : queue.queue ≠ []) : Spools queue (queue.iterate iteration) := by
  obtain ⟨duration, entered⟩ : ∃ duration, queue.step (.enter iteration.now iteration.later
      iteration.lastAttemptDelta true iteration.interrupted) =
        { queue with consumerThread := .polling true false duration } := by
    have room : ¬queue.percentUsed < queue.fileSpoolDrainThresholdPercent := above
    have within : ¬iteration.lastAttemptDelta > queue.fileSpoolMaxWaitTime :=
      not_lt_of_ge patient.withinWait
    refine ⟨queue.lastDispatchTime - iteration.now + queue.maxBatchInterval, ?_⟩
    unfold AuditBatchQueue.step
    rw [patient.looping]
    simp only [enter, patient.spooler, patient.notDraining, room, within, decide_false,
      Bool.not_false, Bool.and_true, Bool.and_false, Bool.false_eq_true, ↓reduceIte]
  have start : Taken queue { queue with consumerThread := .polling true false duration } [] :=
    ⟨⟨[], (List.append_nil _).symm, (List.append_nil _).symm⟩, (List.append_nil _).symm, rfl⟩
  obtain ⟨waited, polling, kept⟩ := start.log iteration.beforePoll
  have left := fun empty => some (List.prefix_nil.mp (Eq.subst empty kept))
  obtain ⟨event, polled, next⟩ := waited.poll polling left iteration.polledAt iteration.interrupted
  obtain ⟨waited, thread, _⟩ := polled.log iteration.beforeDrain
  rw [← thread] at next
  obtain ⟨more, drained, dispatching⟩ := waited.drainTo next
  obtain ⟨waited, thread, _⟩ := drained.log iteration.beforeDispatch
  have spools := waited.dispatch (List.cons_ne_nil _ _) (thread.trans dispatching)
    iteration.dispatchedAt iteration.ret
  unfold iterate Iteration.events runEvents
  unfold runEvents at spools
  rw [Run.final, entered]
  simp only [Run.final_append, Run.final]
  exact spools

end Spooling

/-- **Back-pressure.** With files pending the thread obeys the threshold exactly when the
free share of the queue and the occupied share are on the same side of it. -/
theorem obeysThreshold_iff (patient : queue.Patient iteration) :
    queue.ObeysThreshold iteration ↔
      (queue.queue ≠ [] → (queue.FreeBelow ↔ queue.OccupancyBelow)) := by
  refine forall_congr' fun some => ?_
  by_cases below : queue.FreeBelow
  · have waits := waits_iterate patient below
    constructor
    · intro obeys
      exact iff_of_true below (obeys.1.mp waits)
    · intro same
      exact ⟨iff_of_true waits (same.mp below), fun above => absurd (same.mp below) above⟩
  · have spools := spools_iterate patient below some
    constructor
    · intro obeys
      exact iff_of_false below fun occupied => spools.not_waits (obeys.1.mpr occupied)
    · intro same
      exact ⟨iff_of_false spools.not_waits fun occupied => below (same.mpr occupied),
        fun _ => spools⟩

/-- Where the percentage fits into an `int`, it is that of what is free. -/
theorem freeBelow_iff {queue : AuditBatchQueue ε} (bounded : queue.queue.length ≤ queue.maxQueueSize)
    (some : 0 < queue.maxQueueSize) (fits : queue.maxQueueSize * 100 < 2147483648) :
    queue.FreeBelow ↔ ((queue.maxQueueSize - queue.queue.length) * 100 : Int) <
      queue.fileSpoolDrainThresholdPercent * queue.maxQueueSize := by
  unfold FreeBelow
  rw [Int.bmod_eq_of_le (by omega) (by omega), Int.tdiv_eq_ediv_of_nonneg (by omega)]
  exact Int.ediv_lt_iff_lt_mul (by omega)

/-- A queue of ten events that is full, while files are pending. -/
def fullQueue : AuditBatchQueue Nat where
  maxQueueSize := 10
  fileSpoolerEnabled := true
  queue := List.range 10

def promptIteration : Iteration Nat where
  now := 0
  later := 1000
  lastAttemptDelta := 0
  interrupted := false
  beforePoll := []
  polledAt := 0
  beforeDrain := []
  beforeDispatch := []
  dispatchedAt := 0
  ret := true

/-- **A full queue waits.** It is the free share that is below the threshold. -/
theorem full_queue_waits : ¬∀ (queue : AuditBatchQueue Nat) (iteration : Iteration Nat),
    queue.Patient iteration → queue.ObeysThreshold iteration := by
  intro obeys
  have patient : fullQueue.Patient promptIteration := ⟨rfl, rfl, rfl, by decide⟩
  have below : fullQueue.FreeBelow := by
    unfold FreeBelow
    decide
  have full : ¬fullQueue.OccupancyBelow := by
    unfold OccupancyBelow
    decide
  exact full ((obeys _ _ patient (by decide)).1.mp (waits_iterate patient below))

/-- A queue that is half full is spooled at a threshold of a third. -/
theorem half_full_queue_obeys :
    { fullQueue with queue := List.range 5, fileSpoolDrainThresholdPercent := 33 }.ObeysThreshold
      promptIteration := by
  refine (obeysThreshold_iff ⟨rfl, rfl, rfl, by decide⟩).mpr fun _ => ?_
  unfold FreeBelow OccupancyBelow
  decide

end AuditBatchQueue

end Ranger

import Mathlib.Algebra.Order.Group.Multiset
import Mathlib.Tactic.Abel
import Ranger.Foundation.Run

/-! # The batch queue of audits

Audits are accepted into a bounded queue by any thread. One thread takes them out,
collects them in a buffer and gives the buffer to the consumer, or to the file spool
while the consumer is behind. Whatever is accepted is in exactly one place.
-/

namespace Ranger

open Foundation

/-- The settings of a queue in front of a consumer. -/
structure AuditQueue where
  maxQueueSize : Nat := 1024 * 1024
  maxBatchInterval : Int := 1000
  maxBatchSize : Int := 1000
  fileSpoolerEnabled : Bool := false
  fileSpoolMaxWaitTime : Int := 5 * 60 * 1000
  fileSpoolDrainThresholdPercent : Int := 80

/-- What became of a batch that left the buffer. -/
inductive Departure where
  /-- The consumer took it. -/
  | logged
  /-- It went to the file spooler, with or without the consumer having been asked. -/
  | stashed
  /-- The consumer did not take it, and there is no file spooler. -/
  | failed
  deriving DecidableEq

/-- A batch that left the buffer. -/
structure Batch (ε : Type) where
  events : List ε
  departure : Departure

/-- Where the consumer thread stands in its loop, with the variables of the turn. -/
inductive ConsumerThread where
  | looping
  /-- Before an event is polled. -/
  | polling (isToSpool fileSpoolDrain : Bool) (nextDispatchDuration : Int)
  /-- Behind the event that was polled, before more are drained. -/
  | draining (isToSpool : Bool) (nextDispatchDuration : Int)
  /-- Behind the reading of the queue. -/
  | dispatching (isToSpool : Bool) (nextDispatchDuration : Int)
  /-- At the end of the turn. -/
  | checking
  | stopped
  deriving DecidableEq

/-- A queue that was started, with what it accepted and the batches that left it. -/
structure AuditBatchQueue (ε : Type) extends AuditQueue where
  queue : List ε := []
  localBatchBuffer : List ε := []
  isDrain : Bool := false
  lastDispatchTime : Int := 0
  consumerThread : ConsumerThread := .looping
  accepted : List ε := []
  batches : List (Batch ε) := []

namespace AuditBatchQueue

variable {ε : Type} (queue : AuditBatchQueue ε)

/-- The queue throws when it is full. -/
def log (event : ε) : AuditBatchQueue ε :=
  if queue.queue.length < queue.maxQueueSize then
    { queue with queue := queue.queue ++ [event], accepted := queue.accepted ++ [event] }
  else queue

/-- What is free of the queue in percent, as an `int`. -/
def percentUsed : Int :=
  (Int.bmod ((queue.maxQueueSize - queue.queue.length) * 100) 4294967296).tdiv queue.maxQueueSize

/-- The top of the loop at a time `now`. Files that are pending are waited for, unless
they take too long or the queue is short of room; the wait ends at a time `later`, or
is interrupted. -/
def enter (now later lastAttemptDelta : Int) (isPending interrupted : Bool) : AuditBatchQueue ε :=
  let nextDispatchDuration := queue.lastDispatchTime - now + queue.maxBatchInterval
  if queue.fileSpoolerEnabled && isPending then
    let fileSpoolDrain := decide (lastAttemptDelta > queue.fileSpoolMaxWaitTime)
    if !queue.isDrain && !fileSpoolDrain &&
        decide (queue.percentUsed < queue.fileSpoolDrainThresholdPercent) then
      if nextDispatchDuration > 0 then
        if interrupted then
          { queue with
            isDrain := true
            consumerThread := .dispatching false nextDispatchDuration }
        else { queue with lastDispatchTime := later }
      else queue
    else { queue with consumerThread := .polling true fileSpoolDrain nextDispatchDuration }
  else { queue with consumerThread := .polling false false nextDispatchDuration }

/-- An event is polled. It is waited for while nothing presses. -/
def poll (isToSpool fileSpoolDrain : Bool) (nextDispatchDuration now : Int) (interrupted : Bool) :
    AuditBatchQueue ε :=
  let waits := !isToSpool && !queue.isDrain && !fileSpoolDrain && decide (nextDispatchDuration > 0)
  if waits && interrupted then
    { queue with isDrain := true, consumerThread := .dispatching isToSpool nextDispatchDuration }
  else
    match queue.queue with
    | event :: rest =>
        let localBatchBuffer := queue.localBatchBuffer ++ [event]
        { queue with
          queue := rest
          localBatchBuffer := localBatchBuffer
          consumerThread :=
            if queue.maxBatchSize ≥ localBatchBuffer.length then
              .draining isToSpool nextDispatchDuration
            else .dispatching isToSpool nextDispatchDuration }
    -- the time is up, and the clock is reset
    | [] =>
        { queue with
          lastDispatchTime := now
          consumerThread :=
            .dispatching isToSpool (queue.lastDispatchTime - now + queue.maxBatchInterval) }

/-- More events are drained, up to the size of a batch. -/
def drainTo (isToSpool : Bool) (nextDispatchDuration : Int) : AuditBatchQueue ε :=
  let room := (queue.maxBatchSize - queue.localBatchBuffer.length).toNat
  { queue with
    queue := queue.queue.drop room
    localBatchBuffer := queue.localBatchBuffer ++ queue.queue.take room
    consumerThread := .dispatching isToSpool nextDispatchDuration }

/-- The buffer leaves as one batch. -/
def depart (departure : Departure) (now : Int) : AuditBatchQueue ε :=
  { queue with
    localBatchBuffer := []
    lastDispatchTime := now
    consumerThread := .checking
    batches := queue.batches ++ [⟨queue.localBatchBuffer, departure⟩] }

/-- The buffer is spooled, or given to the consumer once it is full or its time has
come; `ret` is what the consumer answers. -/
def dispatch (isToSpool : Bool) (nextDispatchDuration now : Int) (ret : Bool) :
    AuditBatchQueue ε :=
  if queue.localBatchBuffer ≠ [] ∧ isToSpool = true then queue.depart .stashed now
  else if queue.localBatchBuffer ≠ [] ∧ (queue.isDrain = true ∨
      queue.localBatchBuffer.length ≥ queue.maxBatchSize ∨ nextDispatchDuration ≤ 0) then
    queue.depart (if ret then .logged else if queue.fileSpoolerEnabled then .stashed else .failed)
      now
  else { queue with consumerThread := .checking }

/-- The end of a turn. The thread stops when it is to drain and nothing is left. -/
def check : AuditBatchQueue ε :=
  { queue with
    consumerThread :=
      if queue.isDrain && queue.queue.isEmpty && queue.localBatchBuffer.isEmpty then .stopped
      else .looping }

/-- What can happen to a queue: an event is logged, the queue is told to drain, or the
thread moves on. -/
inductive Event (ε : Type) where
  | log (event : ε)
  | setDrain
  | enter (now later lastAttemptDelta : Int) (isPending interrupted : Bool)
  | poll (now : Int) (interrupted : Bool)
  | drainTo
  | dispatch (now : Int) (ret : Bool)
  | check

/-- One step. A step of the thread that is not its next one changes nothing. -/
def step (event : Event ε) : AuditBatchQueue ε :=
  match event, queue.consumerThread with
  | .log event, _ => queue.log event
  | .setDrain, _ => { queue with isDrain := true }
  | .enter now later lastAttemptDelta isPending interrupted, .looping =>
      queue.enter now later lastAttemptDelta isPending interrupted
  | .poll now interrupted, .polling isToSpool fileSpoolDrain nextDispatchDuration =>
      queue.poll isToSpool fileSpoolDrain nextDispatchDuration now interrupted
  | .drainTo, .draining isToSpool nextDispatchDuration =>
      queue.drainTo isToSpool nextDispatchDuration
  | .dispatch now ret, .dispatching isToSpool nextDispatchDuration =>
      queue.dispatch isToSpool nextDispatchDuration now ret
  | .check, .checking => queue.check
  | _, _ => queue

/-- The queue of the settings after a run. -/
def run (settings : AuditQueue) (events : List (Event ε)) : AuditBatchQueue ε :=
  Run.final (fun queue event => ((), step queue event)) { settings with } events

/-- The events that left in some way. -/
def departed (departure : Departure) : List ε :=
  (queue.batches.filter (·.departure = departure)).flatMap (·.events)

section Conservation

/-- What the buffer may hold where the thread stands. -/
def Room : Prop :=
  match queue.consumerThread with
  | .draining .. => (queue.localBatchBuffer.length : Int) ≤ queue.maxBatchSize
  | .dispatching .. => (queue.localBatchBuffer.length : Int) ≤ max 1 queue.maxBatchSize
  | _ => queue.localBatchBuffer = [] ∨ (queue.localBatchBuffer.length : Int) < queue.maxBatchSize

/-- Every event accepted left in a batch, is in the buffer or is in the queue, in the
order of their acceptance. -/
structure Conserved : Prop where
  order : queue.batches.flatMap (·.events) ++ queue.localBatchBuffer ++ queue.queue = queue.accepted
  sizes : ∀ batch ∈ queue.batches, (batch.events.length : Int) ≤ max 1 queue.maxBatchSize
  room : queue.Room

variable {queue}

theorem conserved_new (settings : AuditQueue) :
    ({ settings with } : AuditBatchQueue ε).Conserved where
  order := rfl
  sizes _ listed := nomatch listed
  room := .inl rfl

theorem Conserved.log (conserved : queue.Conserved) (event : ε) : (queue.log event).Conserved := by
  unfold AuditBatchQueue.log
  split
  · refine ⟨?_, conserved.sizes, conserved.room⟩
    rw [← conserved.order, ← List.append_assoc]
  · exact conserved

theorem Conserved.setDrain (conserved : queue.Conserved) :
    { queue with isDrain := true }.Conserved :=
  ⟨conserved.order, conserved.sizes, conserved.room⟩

/-- The thread may move where the buffer fits. -/
theorem Conserved.moveTo (conserved : queue.Conserved) {isDrain : Bool} {lastDispatchTime : Int}
    {consumerThread : ConsumerThread}
    (room : { queue with
      isDrain := isDrain
      lastDispatchTime := lastDispatchTime
      consumerThread := consumerThread }.Room) :
    { queue with
      isDrain := isDrain
      lastDispatchTime := lastDispatchTime
      consumerThread := consumerThread }.Conserved :=
  ⟨conserved.order, conserved.sizes, room⟩

/-- What fits between the turns fits into a batch. -/
theorem length_le_of_short
    (short : queue.localBatchBuffer = [] ∨
      (queue.localBatchBuffer.length : Int) < queue.maxBatchSize) :
    (queue.localBatchBuffer.length : Int) ≤ max 1 queue.maxBatchSize := by
  rcases short with empty | short
  · rw [empty, List.length_nil]
    omega
  · omega

theorem Conserved.enter (conserved : queue.Conserved) (looping : queue.consumerThread = .looping)
    (now later lastAttemptDelta : Int) (isPending interrupted : Bool) :
    (queue.enter now later lastAttemptDelta isPending interrupted).Conserved := by
  have short := conserved.room
  rw [Room, looping] at short
  unfold AuditBatchQueue.enter
  dsimp only
  split
  · split
    · split
      · split
        · apply conserved.moveTo
          exact length_le_of_short short
        · refine ⟨conserved.order, conserved.sizes, ?_⟩
          rw [Room, looping]
          exact short
      · exact conserved
    · apply conserved.moveTo
      exact short
  · apply conserved.moveTo
    exact short

theorem Conserved.poll (conserved : queue.Conserved) {isToSpool fileSpoolDrain : Bool}
    {nextDispatchDuration : Int}
    (polling : queue.consumerThread = .polling isToSpool fileSpoolDrain nextDispatchDuration)
    (now : Int) (interrupted : Bool) :
    (queue.poll isToSpool fileSpoolDrain nextDispatchDuration now interrupted).Conserved := by
  have short := conserved.room
  rw [Room, polling] at short
  unfold AuditBatchQueue.poll
  dsimp only
  split
  · apply conserved.moveTo
    exact length_le_of_short short
  · split
    · next event rest waiting =>
      refine ⟨?_, conserved.sizes, ?_⟩
      · rw [← conserved.order, waiting]
        simp only [List.append_assoc, List.singleton_append]
      · by_cases fits :
          queue.maxBatchSize ≥ ((queue.localBatchBuffer ++ [event]).length : Int)
        · rw [if_pos fits]
          exact fits
        · rw [if_neg fits]
          rw [List.length_append, List.length_singleton] at fits
          -- the event is alone when there is no room beside it
          have alone : queue.localBatchBuffer = [] := by
            rcases short with empty | short
            · exact empty
            · omega
          rw [alone] at fits ⊢
          change ((1 : Nat) : Int) ≤ max 1 queue.maxBatchSize
          omega
    · apply conserved.moveTo
      exact length_le_of_short short

theorem Conserved.drainTo (conserved : queue.Conserved) {isToSpool : Bool}
    {nextDispatchDuration : Int}
    (draining : queue.consumerThread = .draining isToSpool nextDispatchDuration) :
    (queue.drainTo isToSpool nextDispatchDuration).Conserved := by
  have fits := conserved.room
  rw [Room, draining] at fits
  refine ⟨?_, conserved.sizes, ?_⟩
  · unfold AuditBatchQueue.drainTo
    rw [← conserved.order]
    simp only [List.append_assoc, List.take_append_drop]
  · change ((queue.localBatchBuffer ++ queue.queue.take _).length : Int) ≤ _
    rw [List.length_append, List.length_take]
    simp only [AuditBatchQueue.drainTo]
    omega

/-- A batch leaves with everything that is in the buffer. -/
theorem Conserved.depart (conserved : queue.Conserved)
    (fits : (queue.localBatchBuffer.length : Int) ≤ max 1 queue.maxBatchSize)
    (departure : Departure) (now : Int) : (queue.depart departure now).Conserved where
  order := by
    rw [AuditBatchQueue.depart, List.flatMap_append, List.flatMap_singleton, List.append_nil]
    exact conserved.order
  sizes batch listed := by
    rcases List.mem_append.mp listed with before | last
    · exact conserved.sizes batch before
    · rw [List.mem_singleton.mp last]
      exact fits
  room := .inl rfl

theorem Conserved.dispatch (conserved : queue.Conserved) {isToSpool : Bool}
    {nextDispatchDuration : Int}
    (dispatching : queue.consumerThread = .dispatching isToSpool nextDispatchDuration)
    (now : Int) (ret : Bool) :
    (queue.dispatch isToSpool nextDispatchDuration now ret).Conserved := by
  have fits := conserved.room
  rw [Room, dispatching] at fits
  unfold AuditBatchQueue.dispatch
  split
  · exact conserved.depart fits _ now
  · split
    · exact conserved.depart fits _ now
    · next kept =>
      refine ⟨conserved.order, conserved.sizes, ?_⟩
      -- what stays behind is not full
      by_cases empty : queue.localBatchBuffer = []
      · exact .inl empty
      · refine .inr ?_
        have unfilled := fun full => kept ⟨empty, .inr (.inl full)⟩
        exact Int.not_le.mp unfilled

theorem Conserved.check (conserved : queue.Conserved)
    (checking : queue.consumerThread = .checking) :
    queue.check.Conserved := by
  have short := conserved.room
  rw [Room, checking] at short
  refine ⟨conserved.order, conserved.sizes, ?_⟩
  unfold AuditBatchQueue.check Room
  dsimp only
  generalize (queue.isDrain && queue.queue.isEmpty && queue.localBatchBuffer.isEmpty) = stops
  cases stops <;> exact short

/-- **Steps.** Whatever happens to a queue, no event is lost or doubled. -/
theorem Conserved.step (conserved : queue.Conserved) (event : Event ε) :
    (queue.step event).Conserved := by
  unfold AuditBatchQueue.step
  split
  · next event => exact conserved.log event
  · exact conserved.setDrain
  · next looping => exact conserved.enter looping ..
  · next polling => exact conserved.poll polling ..
  · next draining => exact conserved.drainTo draining
  · next dispatching => exact conserved.dispatch dispatching ..
  · next checking => exact conserved.check checking
  · exact conserved

/-- The settings stay as they are. -/
theorem step_toAuditQueue (queue : AuditBatchQueue ε) (event : Event ε) :
    (queue.step event).toAuditQueue = queue.toAuditQueue := by
  fun_cases AuditBatchQueue.step queue event with
  | case1 event => fun_cases AuditBatchQueue.log queue event <;> rfl
  | case3 now later lastAttemptDelta isPending interrupted =>
      fun_cases AuditBatchQueue.enter queue now later lastAttemptDelta isPending interrupted <;> rfl
  | case4 now interrupted isToSpool fileSpoolDrain nextDispatchDuration =>
      unfold AuditBatchQueue.poll
      dsimp only
      split
      · rfl
      · split <;> rfl
  | case6 now ret isToSpool nextDispatchDuration =>
      unfold AuditBatchQueue.dispatch
      split
      · rfl
      · split <;> rfl
  | _ => rfl

/-- A queue that conserves its events under the settings it was started with. -/
structure Sound (settings : AuditQueue) (queue : AuditBatchQueue ε) : Prop where
  conserved : queue.Conserved
  settings : queue.toAuditQueue = settings

theorem Sound.step {settings : AuditQueue} (sound : Sound settings queue) (event : Event ε) :
    Sound settings (queue.step event) :=
  ⟨sound.conserved.step event, (step_toAuditQueue queue event).trans sound.settings⟩

/-- The batches that left, sorted by what became of them. -/
theorem batches_eq_departed (queue : AuditBatchQueue ε) :
    ((queue.batches.flatMap (·.events) : List ε) : Multiset ε) =
      queue.departed .logged + queue.departed .stashed + queue.departed .failed := by
  unfold departed
  induction queue.batches with
  | nil => rfl
  | cons batch rest ih =>
      rw [List.flatMap_cons, ← Multiset.coe_add, ih]
      obtain ⟨events, departure⟩ := batch
      cases departure <;>
        simp only [List.filter_cons, decide_true, reduceCtorEq, decide_false, ↓reduceIte,
          Bool.false_eq_true, List.flatMap_cons, ← Multiset.coe_add] <;>
        abel

/-- **Conservation in the batch queue.** At every point of every run the events that were
accepted are those in the queue, in the buffer, taken by the consumer, stashed and
reported as failed. They left in their order, in batches of the size that is set. -/
theorem events_conserved (settings : AuditQueue) (events : List (Event ε)) :
    let queue := run settings events
    (queue.accepted : Multiset ε) = queue.queue + queue.localBatchBuffer +
        (queue.departed .logged + queue.departed .stashed + queue.departed .failed) ∧
      queue.accepted =
        queue.batches.flatMap (·.events) ++ queue.localBatchBuffer ++ queue.queue ∧
      ∀ batch ∈ queue.batches, (batch.events.length : Int) ≤ max 1 settings.maxBatchSize := by
  intro queue
  have start : Sound settings ({ settings with } : AuditBatchQueue ε) :=
    ⟨conserved_new settings, rfl⟩
  have steps : ∀ (queue : AuditBatchQueue ε) event, Sound settings queue → True →
      Sound settings (queue.step event) := fun _ event sound _ => sound.step event
  obtain ⟨conserved, same⟩ : Sound settings queue :=
    Run.forall_prefix_of_allowed steps start (fun _ _ _ _ => trivial) events []
      (List.append_nil events).symm
  refine ⟨?_, conserved.order.symm, fun batch listed => ?_⟩
  · rw [← conserved.order, ← batches_eq_departed, ← Multiset.coe_add, ← Multiset.coe_add]
    abel
  · rw [← same]
    exact conserved.sizes batch listed

end Conservation

end AuditBatchQueue

end Ranger

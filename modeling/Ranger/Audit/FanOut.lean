import Mathlib.Data.List.FinRange
import Ranger.Audit.AsyncQueue
import Ranger.Audit.BatchQueue
import Ranger.Audit.DbAudit
import Ranger.Foundation.Loop

/-! # Several destinations behind one queue

The consumer of a batch queue may pass its batches on to several destinations. It reports a
batch when a destination throws; what a destination answers is not read, and the queue is told
that the batch was taken.
-/

namespace Ranger

open Foundation

/-- What a destination makes of a batch, with the events it reports through its own
`logFailedEvent`. -/
structure DestinationCall (ε : Type) where
  answer : ConsumerAnswer
  reported : List ε := []

namespace MultiDestAuditProvider

variable {ε : Type} {count : Nat}

/-- One turn of the loop over the destinations: the events that are reported. -/
def report (events : List ε) (reported : List ε) (provider : DestinationCall ε) : List ε :=
  reported ++ provider.reported ++ if provider.answer = .threw then events else []

/-- `log`, for what the destinations make of the batch, with the events that are reported. -/
def log (events : List ε) (mProviders : Fin count → DestinationCall ε) : Bool × List ε :=
  (true, (List.ofFn mProviders).foldl (report events) [])

/-- An event is reported by a destination, or with its batch when a destination throws. -/
theorem mem_log_reported (events : List ε) (mProviders : Fin count → DestinationCall ε)
    (event : ε) :
    event ∈ (log events mProviders).2 ↔
      ∃ provider, event ∈ (mProviders provider).reported ∨
        (mProviders provider).answer = .threw ∧ event ∈ events := by
  have turn : ∀ (reported : List ε) (provider : DestinationCall ε),
      event ∈ report events reported provider ↔
        event ∈ reported ∨ event ∈ provider.reported ∨
          provider.answer = .threw ∧ event ∈ events := by
    intro reported provider
    rw [report, List.mem_append, List.mem_append, or_assoc]
    split
    case isTrue threw => rw [and_iff_right threw]
    case isFalse returned =>
      exact or_congr_right (or_congr_right (iff_of_false List.not_mem_nil fun both =>
        returned both.1))
  refine (foldl_iff (report events) (event ∈ ·) turn _ []).trans ?_
  rw [or_iff_right List.not_mem_nil]
  constructor
  · intro ⟨call, among, heard⟩
    obtain ⟨provider, rfl⟩ := List.mem_ofFn.mp among
    exact ⟨provider, heard⟩
  · intro ⟨provider, heard⟩
    exact ⟨mProviders provider, List.mem_ofFn.mpr ⟨provider, rfl⟩, heard⟩

end MultiDestAuditProvider

/-- A batch that was given to the destinations, with what each made of it and the events that
were reported. -/
structure Delivery (ε : Type) (count : Nat) where
  events : List ε
  calls : Fin count → DestinationCall ε
  reported : List ε

namespace Delivery

variable {ε : Type} {count : Nat} (delivery : Delivery ε count)

/-- Every destination accepted the batch, or the batch was reported. -/
def Heard : Prop :=
  ∀ provider, (delivery.calls provider).answer = .took ∨
    ∀ event ∈ delivery.events, event ∈ delivery.reported

/-- What a destination rejects is reported by destinations, or one of them throws. -/
def Outspoken (events : List ε) (calls : Fin count → DestinationCall ε) : Prop :=
  ∀ provider, (calls provider).answer = .rejected →
    (∃ other, (calls other).answer = .threw) ∨
      ∀ event ∈ events, ∃ other, event ∈ (calls other).reported

variable {delivery}

theorem heard_iff
    (logged : delivery.reported =
      (MultiDestAuditProvider.log delivery.events delivery.calls).2) :
    delivery.Heard ↔ Outspoken delivery.events delivery.calls := by
  unfold Heard Outspoken
  rw [logged]
  refine forall_congr' fun provider => ?_
  cases answered : (delivery.calls provider).answer with
  | took => exact iff_of_true (.inl rfl) nofun
  | threw =>
      refine iff_of_true (.inr fun event among => ?_) nofun
      exact (MultiDestAuditProvider.mem_log_reported _ _ _).mpr
        ⟨provider, .inr ⟨answered, among⟩⟩
  | rejected =>
      rw [or_iff_right ConsumerAnswer.noConfusion, forall_prop_of_true rfl]
      constructor
      · intro reported
        by_cases thrown : ∃ other, (delivery.calls other).answer = .threw
        · exact .inl thrown
        · refine .inr fun event among => ?_
          obtain ⟨other, own | threw⟩ :=
            (MultiDestAuditProvider.mem_log_reported _ _ _).mp (reported event among)
          · exact ⟨other, own⟩
          · exact absurd ⟨other, threw.1⟩ thrown
      · intro outspoken event among
        apply (MultiDestAuditProvider.mem_log_reported _ _ _).mpr
        rcases outspoken with ⟨other, threw⟩ | own
        · exact ⟨other, .inr ⟨threw, among⟩⟩
        · obtain ⟨other, reported⟩ := own event among
          exact ⟨other, .inl reported⟩

end Delivery

/-- A batch queue whose consumer passes batches on, with the batches that were passed on. -/
structure FanOutQueue (ε : Type) (count : Nat) where
  queue : AuditBatchQueue ε
  deliveries : List (Delivery ε count) := []

/-- What can happen to the queue, with what the destinations make of the batch if it goes to
them. -/
structure FanOutEvent (ε : Type) (count : Nat) where
  event : AuditBatchQueue.Event ε
  calls : Fin count → DestinationCall ε

namespace AuditBatchQueue

variable {ε : Type} (queue : AuditBatchQueue ε)

/-- The batch that a step of the thread gives to the consumer. -/
def consumerBatch (event : Event ε) : Option (List ε) :=
  match event, queue.consumerThread with
  | .dispatch _ _, .dispatching isToSpool nextDispatchDuration =>
      if queue.localBatchBuffer ≠ [] ∧ isToSpool = true then none
      else if queue.localBatchBuffer ≠ [] ∧ (queue.isDrain = true ∨
          queue.localBatchBuffer.length ≥ queue.maxBatchSize ∨ nextDispatchDuration ≤ 0) then
        some queue.localBatchBuffer
      else none
  | _, _ => none

/-- The event with the answer of the consumer. -/
def Event.answered (ret : Bool) : Event ε → Event ε
  | .dispatch now _ => .dispatch now ret
  | event => event

/-- The batches the consumer is said to have taken. -/
def delivered : List (List ε) :=
  (queue.batches.filter (·.departure = .logged)).map (·.events)

end AuditBatchQueue

namespace FanOutQueue

variable {ε : Type} {count : Nat} (state : FanOutQueue ε count)

/-- One step. The batch the consumer is given goes to the destinations, and the queue reads
the answer of their provider. -/
def step (event : FanOutEvent ε count) : FanOutQueue ε count :=
  match state.queue.consumerBatch event.event with
  | none => { state with queue := state.queue.step event.event }
  | some events =>
      let (ret, reported) := MultiDestAuditProvider.log events event.calls
      { queue := state.queue.step (event.event.answered ret)
        deliveries := state.deliveries ++ [⟨events, event.calls, reported⟩] }

/-- The queue of the settings after a run. -/
def run (settings : AuditQueue) (events : List (FanOutEvent ε count)) : FanOutQueue ε count :=
  Run.final (fun state event => ((), step state event)) { queue := { settings with } } events

section Runs

theorem delivered_depart_stashed (queue : AuditBatchQueue ε) (now : Int) :
    (queue.depart .stashed now).delivered = queue.delivered := by
  change ((queue.batches ++ [_]).filter _).map _ = _
  rw [List.filter_append, List.filter_cons_of_neg Bool.false_ne_true, List.filter_nil,
    List.append_nil]
  rfl

theorem delivered_depart_logged (queue : AuditBatchQueue ε) (now : Int) :
    (queue.depart .logged now).delivered = queue.delivered ++ [queue.localBatchBuffer] := by
  change ((queue.batches ++ [_]).filter _).map _ = _
  rw [List.filter_append, List.filter_cons_of_pos rfl, List.filter_nil, List.map_append]
  rfl

/-- A step of the thread that gives the consumer nothing delivers nothing. -/
theorem delivered_step_of_none {queue : AuditBatchQueue ε} {event : AuditBatchQueue.Event ε}
    (none : queue.consumerBatch event = none) :
    (queue.step event).delivered = queue.delivered := by
  fun_cases AuditBatchQueue.step queue event with
  | case1 event => fun_cases AuditBatchQueue.log queue event <;> rfl
  | case3 now later lastAttemptDelta isPending interrupted =>
      fun_cases AuditBatchQueue.enter queue now later lastAttemptDelta isPending interrupted <;> rfl
  | case4 now interrupted isToSpool fileSpoolDrain nextDispatchDuration =>
      unfold AuditBatchQueue.poll
      dsimp only
      split
      · rfl
      · split <;> rfl
  | case6 now ret isToSpool nextDispatchDuration thread =>
      unfold AuditBatchQueue.consumerBatch at none
      rw [thread] at none
      unfold AuditBatchQueue.dispatch
      dsimp only at none
      split
      · exact delivered_depart_stashed queue now
      · next stays =>
        rw [if_neg stays] at none
        split
        · next gives =>
          rw [if_pos gives] at none
          cases none
        · rfl
  | _ => rfl

/-- A batch that the consumer takes is delivered. -/
theorem delivered_step_of_some {queue : AuditBatchQueue ε} {event : AuditBatchQueue.Event ε}
    {events : List ε} (some : queue.consumerBatch event = some events) :
    (queue.step (event.answered true)).delivered = queue.delivered ++ [events] := by
  unfold AuditBatchQueue.consumerBatch at some
  split at some
  · next now ret isToSpool nextDispatchDuration thread =>
    split at some
    · cases some
    · next stays =>
      split at some
      · next gives =>
        cases some
        have logged : queue.step (.dispatch now true) = queue.depart .logged now := by
          unfold AuditBatchQueue.step
          rw [thread]
          change queue.dispatch isToSpool nextDispatchDuration now true = _
          rw [AuditBatchQueue.dispatch, if_neg stays, if_pos gives]
          rfl
        exact (congrArg AuditBatchQueue.delivered logged).trans (delivered_depart_logged queue now)
      · cases some
  · cases some

/-- The batches the queue counts as delivered are those the destinations were given, and a
destination accepted each of them or it was reported. -/
structure FansOut : Prop where
  delivered : state.queue.delivered = state.deliveries.map (·.events)
  heard : ∀ delivery ∈ state.deliveries, delivery.Heard

/-- A step that gives the destinations a batch nobody is silent about. -/
def Allowed (event : FanOutEvent ε count) : Prop :=
  ∀ events, state.queue.consumerBatch event.event = some events →
    Delivery.Outspoken events event.calls

variable {state}

theorem fansOut_step_iff (fansOut : state.FansOut) (event : FanOutEvent ε count) :
    (state.step event).FansOut ↔ state.Allowed event := by
  unfold step Allowed
  cases given : state.queue.consumerBatch event.event with
  | none =>
      refine iff_of_true ⟨?_, fansOut.heard⟩ nofun
      exact (delivered_step_of_none given).trans fansOut.delivered
  | some events =>
      have logged := @Delivery.heard_iff ε count
        ⟨events, event.calls, (MultiDestAuditProvider.log events event.calls).2⟩ rfl
      constructor
      · intro after batch same
        cases same
        exact logged.mp (after.heard _ (List.mem_append_right _ List.mem_cons_self))
      · intro outspoken
        refine ⟨?_, fun delivery among => ?_⟩
        · change (state.queue.step (event.event.answered true)).delivered = _
          rw [delivered_step_of_some given, fansOut.delivered, List.map_append]
          rfl
        · rcases List.mem_append.mp among with before | last
          · exact fansOut.heard delivery before
          · rw [List.mem_singleton.mp last]
            exact logged.mpr (outspoken events rfl)

/-- Throughout a run no refusal goes unheard, exactly when in each batch that is given to the
destinations what one of them rejects is reported by destinations, or another one throws. -/
theorem forall_fansOut_iff (settings : AuditQueue) (events : List (FanOutEvent ε count)) :
    (∀ done rest, events = done ++ rest → (run settings done).FansOut) ↔
      ∀ done event rest, events = done ++ event :: rest →
        (run settings done).Allowed event :=
  @Run.forall_prefix_iff _ _ _ (fun state event => ((), step state event)) FansOut Allowed
    (fun _ event fansOut => fansOut_step_iff fansOut event) _
    ⟨rfl, fun _ listed => absurd listed List.not_mem_nil⟩ events

end Runs

end FanOutQueue

namespace DbAuditProvider

variable {ε : Type}

/-- The events `log` passes to `logFailedEvent` while a batch is logged. -/
def failedEvents : DbAuditProvider ε → List (DbAttempt ε) → List ε
  | _, [] => []
  | provider, attempt :: rest =>
      match provider.log attempt with
      | (true, provider) => failedEvents provider rest
      | (false, _) => [attempt.event]

/-- What a provider makes of a batch as a destination. -/
def destinationCall (provider : DbAuditProvider ε) (batch : List (DbAttempt ε)) :
    DestinationCall ε :=
  ⟨if (provider.logAll batch).1 then .took else .rejected, provider.failedEvents batch⟩

theorem length_failedEvents_le (provider : DbAuditProvider ε) (batch : List (DbAttempt ε)) :
    (provider.failedEvents batch).length ≤ 1 := by
  induction batch generalizing provider with
  | nil => exact Nat.zero_le 1
  | cons attempt rest ih =>
      unfold failedEvents
      split
      · exact ih _
      · exact Nat.le_refl 1

/-- A provider that refuses a batch is silent about all of it but one event. -/
theorem not_outspoken {provider : DbAuditProvider ε} {batch : List (DbAttempt ε)}
    (refused : (provider.logAll batch).1 = false) {first second : ε}
    (memFirst : first ∈ batch.map (·.event)) (memSecond : second ∈ batch.map (·.event))
    (apart : first ≠ second) :
    ¬Delivery.Outspoken (batch.map (·.event)) fun _ : Fin 1 => provider.destinationCall batch := by
  intro outspoken
  have rejected : (provider.destinationCall batch).answer = .rejected := by
    change (if (provider.logAll batch).1 then ConsumerAnswer.took else .rejected) = .rejected
    rw [refused]
    rfl
  rcases outspoken 0 rejected with ⟨_, threw⟩ | reported
  · cases rejected.symm.trans threw
  · obtain ⟨_, one⟩ := reported first memFirst
    obtain ⟨_, other⟩ := reported second memSecond
    have few := provider.length_failedEvents_le batch
    rcases length : provider.failedEvents batch with _ | ⟨event, _ | ⟨another, rest⟩⟩
    · change first ∈ provider.failedEvents batch at one
      rw [length] at one
      cases one
    · change first ∈ provider.failedEvents batch at one
      change second ∈ provider.failedEvents batch at other
      rw [length, List.mem_singleton] at one other
      exact apart (one.trans other.symm)
    · rw [length, List.length_cons, List.length_cons] at few
      omega

end DbAuditProvider

namespace FanOutQueue

/-- Two events for a database that does not answer. -/
def lostBatch : List (FanOutEvent Nat 1) :=
  let attempts : List (DbAttempt Nat) :=
    [{ event := 1, now := 100000, connects := false },
      { event := 2, now := 100000, connects := false }]
  let calls : Fin 1 → DestinationCall Nat := fun _ =>
    ({ } : DbAuditProvider Nat).destinationCall attempts
  [⟨.log 1, calls⟩, ⟨.log 2, calls⟩, ⟨.setDrain, calls⟩, ⟨.enter 0 0 0 false false, calls⟩,
    ⟨.poll 0 false, calls⟩, ⟨.drainTo, calls⟩, ⟨.dispatch 0 false, calls⟩]

/-- The database refuses the batch, which is delivered to it all the same. -/
theorem not_fansOut_lostBatch :
    (run {} lostBatch).queue.delivered = [[1, 2]] ∧
      ¬∀ done rest, lostBatch = done ++ rest → (run {} done).FansOut := by
  refine ⟨by decide, fun always => ?_⟩
  have given : ∃ delivery ∈ (run {} lostBatch).deliveries, delivery.events = [1, 2] ∧
      delivery.reported = [1] ∧ (delivery.calls 0).answer = .rejected :=
    ⟨_, List.mem_cons_self, rfl, rfl, rfl⟩
  obtain ⟨delivery, listed, events, reported, rejected⟩ := given
  have all := always lostBatch [] (List.append_nil _).symm
  rcases all.heard delivery listed 0 with took | heard
  · cases rejected.symm.trans took
  · rw [events, reported] at heard
    exact absurd (heard 2 (by decide)) (by decide)

end FanOutQueue

end Ranger

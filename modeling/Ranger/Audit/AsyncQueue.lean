import Ranger.Foundation.Run

/-! # The asynchronous queue of audits

Any thread may log an event: it looks for room and then adds the event. One thread takes
the events out and gives them to the consumer in batches, whose answer it does not read.
-/

namespace Ranger

open Foundation

/-- What `consumer.log` makes of a batch. -/
inductive ConsumerAnswer where
  | took
  | rejected
  /-- An exception, which the thread writes to its own log. -/
  | threw
  deriving DecidableEq

/-- Where the consumer thread stands in its loop. -/
inductive AsyncThread (ε : Type) where
  /-- Before `isDrain` is read. -/
  | looping
  /-- In `take`, which waits for an event. -/
  | taking
  /-- Before `poll`, which does not. -/
  | polling
  /-- Behind an event that was read, before more are drained. -/
  | draining (event : ε)
  /-- Before a batch is given to the consumer. -/
  | handing (event : ε) (more : List ε)
  /-- At the end of the turn. -/
  | checking
  | stopped
  deriving DecidableEq

/-- The events the thread has taken out and not given to the consumer. -/
def AsyncThread.held {ε : Type} : AsyncThread ε → List ε
  | draining event => [event]
  | handing event more => event :: more
  | _ => []

/-- A batch the consumer was given, with its answer. -/
structure HandedBatch (ε : Type) where
  events : List ε
  answer : ConsumerAnswer

/-- A queue that was started, with the events it accepted, the batches it handed over and
those it passed to `logFailedEvent`. -/
structure AuditAsyncQueue (ε : Type) where
  maxQueueSize : Int := 1024 * 1024
  queue : List ε := []
  /-- The events of threads that found room and are about to add them. -/
  adding : List ε := []
  isDrain : Bool := false
  consumerThread : AsyncThread ε := .looping
  accepted : List ε := []
  batches : List (HandedBatch ε) := []
  failed : List (List ε) := []

namespace AuditAsyncQueue

def MAX_DRAIN : Nat := 1000

variable {ε : Type} (queue : AuditAsyncQueue ε)

/-- The first half of `log`: without room it returns false. -/
def log (event : ε) : AuditAsyncQueue ε :=
  if queue.queue.length ≥ queue.maxQueueSize then queue
  else { queue with adding := queue.adding ++ [event] }

/-- The second half of `log`, for one of the threads in it, which returns true. -/
def add (place : Nat) : AuditAsyncQueue ε :=
  match queue.adding[place]? with
  | none => queue
  | some event =>
      { queue with
        adding := queue.adding.eraseIdx place
        queue := queue.queue ++ [event]
        accepted := queue.accepted ++ [event] }

/-- An event is read from the queue, or there is none. -/
def read (empty : AuditAsyncQueue ε) : AuditAsyncQueue ε :=
  match queue.queue with
  | [] => empty
  | event :: rest => { queue with queue := rest, consumerThread := .draining event }

/-- The next step of the consumer thread. A wait may be interrupted, and the consumer
answers as it likes. -/
def move (interrupted : Bool) (answer : ConsumerAnswer) : AuditAsyncQueue ε :=
  match queue.consumerThread with
  | .looping =>
      { queue with consumerThread := if queue.isDrain then .polling else .taking }
  | .taking =>
      if interrupted then { queue with consumerThread := .checking } else queue.read queue
  | .polling => queue.read { queue with consumerThread := .checking }
  | .draining event =>
      { queue with
        queue := queue.queue.drop (MAX_DRAIN - 1)
        consumerThread := .handing event (queue.queue.take (MAX_DRAIN - 1)) }
  | .handing event more =>
      { queue with
        batches := queue.batches ++ [⟨event :: more, answer⟩]
        consumerThread := .checking }
  | .checking =>
      { queue with
        consumerThread := if queue.isDrain && queue.queue.isEmpty then .stopped else .looping }
  | .stopped => queue

/-- What can happen to a queue. -/
inductive Event (ε : Type) where
  | log (event : ε)
  | add (place : Nat)
  | setDrain
  | move (interrupted : Bool) (answer : ConsumerAnswer)
  deriving DecidableEq

def step (event : Event ε) : AuditAsyncQueue ε :=
  match event with
  | .log event => queue.log event
  | .add place => queue.add place
  | .setDrain => { queue with isDrain := true }
  | .move interrupted answer => queue.move interrupted answer

/-- The queue after a run. -/
def run (events : List (Event ε)) : AuditAsyncQueue ε :=
  Run.final (fun queue event => ((), step queue event)) queue events

/-- The events the consumer was given, in their order. -/
def handed : List ε := queue.batches.flatMap (·.events)

section Delivery

/-- Every accepted event was handed over, is with the thread or is in the queue, in the order
of acceptance; the loop has ended only with nothing left; what was rejected was reported. -/
structure Delivers : Prop where
  order : queue.handed ++ queue.consumerThread.held ++ queue.queue = queue.accepted
  finished : queue.consumerThread = .stopped → queue.isDrain = true ∧ queue.queue = []
  reported : ∀ batch ∈ queue.batches, batch.answer = .rejected → batch.events ∈ queue.failed

/-- A step that adds no event behind the end of the loop, and no answer that rejects a batch. -/
def Allowed : Event ε → Prop
  | .add place => queue.consumerThread = .stopped → queue.adding[place]? = none
  | .move _ answer => answer = .rejected → ∀ event more, queue.consumerThread ≠ .handing event more
  | _ => True

variable {queue}

theorem failed_read (empty : AuditAsyncQueue ε) (same : empty.failed = queue.failed) :
    (queue.read empty).failed = queue.failed := by
  unfold read
  cases queue.queue with
  | nil => exact same
  | cons event rest => rfl

/-- No step reports anything. -/
theorem failed_step (event : Event ε) : (queue.step event).failed = queue.failed := by
  cases event with
  | log event =>
      change (queue.log event).failed = queue.failed
      unfold log
      split
      · rfl
      · rfl
  | add place =>
      change (queue.add place).failed = queue.failed
      unfold add
      cases queue.adding[place]? with
      | none => rfl
      | some event => rfl
  | setDrain => rfl
  | move interrupted answer =>
      change (queue.move interrupted answer).failed = queue.failed
      unfold move
      cases queue.consumerThread with
      | taking =>
          cases interrupted with
          | true => rfl
          | false => exact failed_read queue rfl
      | polling => exact failed_read _ rfl
      | _ => rfl

/-- Adding an event keeps the order, and is too late behind the end of the loop. -/
theorem delivers_add_iff (delivers : queue.Delivers) (place : Nat) :
    (queue.add place).Delivers ↔ queue.Allowed (.add place) := by
  change _ ↔ (queue.consumerThread = .stopped → queue.adding[place]? = none)
  unfold add
  cases found : queue.adding[place]? with
  | none => exact ⟨fun _ _ => rfl, fun _ => delivers⟩
  | some event =>
      constructor
      · intro next stopped
        have empty := (next.finished stopped).2
        exact absurd empty (List.append_ne_nil_of_right_ne_nil _ (List.cons_ne_nil _ _))
      · intro running
        refine ⟨?_, fun stopped => absurd (running stopped) nofun, delivers.reported⟩
        rw [← delivers.order]
        exact (List.append_assoc ..).symm

/-- The thread may move where it neither ends nor takes or gives anything. -/
theorem Delivers.moveTo (delivers : queue.Delivers) {thread : AsyncThread ε}
    (held : thread.held = queue.consumerThread.held) (running : thread ≠ .stopped) :
    { queue with consumerThread := thread }.Delivers where
  order := by
    rw [← delivers.order, ← held]
    rfl
  finished stopped := absurd stopped running
  reported := delivers.reported

theorem Delivers.read (delivers : queue.Delivers) (held : queue.consumerThread.held = [])
    {empty : AuditAsyncQueue ε} (kept : empty.Delivers) : (queue.read empty).Delivers := by
  unfold AuditAsyncQueue.read
  cases listed : queue.queue with
  | nil => exact kept
  | cons event rest =>
      refine ⟨?_, nofun, delivers.reported⟩
      rw [← delivers.order, listed, held, List.append_nil]
      exact List.append_assoc ..

/-- A batch that is rejected is not reported. -/
theorem delivers_hand_iff (none : queue.failed = []) (delivers : queue.Delivers) {event : ε}
    {more : List ε} (thread : queue.consumerThread = .handing event more)
    (interrupted : Bool) (answer : ConsumerAnswer) :
    (queue.move interrupted answer).Delivers ↔ answer ≠ .rejected := by
  have order := delivers.order
  rw [thread] at order
  simp only [move, thread]
  constructor
  · intro next rejected
    have listed := next.reported ⟨event :: more, answer⟩
      (List.mem_append_right _ List.mem_cons_self) rejected
    rw [none] at listed
    cases listed
  · intro accepted
    refine ⟨?_, nofun, ?_⟩
    · rw [← order]
      simp only [handed, List.flatMap_append, List.flatMap_cons, List.flatMap_nil, List.append_nil,
        AsyncThread.held]
    · intro batch member rejected
      rcases List.mem_append.mp member with earlier | last
      · exact delivers.reported batch earlier rejected
      · rw [List.mem_singleton.mp last] at rejected
        exact absurd rejected accepted

theorem delivers_move_iff (none : queue.failed = []) (delivers : queue.Delivers)
    (interrupted : Bool) (answer : ConsumerAnswer) :
    (queue.move interrupted answer).Delivers ↔ queue.Allowed (.move interrupted answer) := by
  unfold Allowed
  cases thread : queue.consumerThread with
  | handing event more =>
      rw [delivers_hand_iff none delivers thread]
      exact ⟨fun accepted rejected => absurd rejected accepted,
        fun allowed rejected => allowed rejected event more rfl⟩
  | looping =>
      refine iff_of_true ?_ fun _ _ _ => nofun
      simp only [move, thread]
      split
      · exact delivers.moveTo (by rw [thread]; rfl) nofun
      · exact delivers.moveTo (by rw [thread]; rfl) nofun
  | taking =>
      refine iff_of_true ?_ fun _ _ _ => nofun
      simp only [move, thread]
      cases interrupted with
      | true => exact delivers.moveTo (by rw [thread]; rfl) nofun
      | false => exact delivers.read (by rw [thread]; rfl) delivers
  | polling =>
      refine iff_of_true ?_ fun _ _ _ => nofun
      simp only [move, thread]
      exact delivers.read (by rw [thread]; rfl) (delivers.moveTo (by rw [thread]; rfl) nofun)
  | draining event =>
      refine iff_of_true ?_ fun _ _ _ => nofun
      have order := delivers.order
      rw [thread] at order
      simp only [move, thread]
      refine ⟨?_, nofun, delivers.reported⟩
      rw [← order]
      simp only [AsyncThread.held, List.append_assoc, List.cons_append, List.nil_append,
        List.take_append_drop]
      rfl
  | checking =>
      refine iff_of_true ?_ fun _ _ _ => nofun
      simp only [move, thread]
      cases done : queue.isDrain && queue.queue.isEmpty with
      | false => exact delivers.moveTo (by rw [thread]; rfl) nofun
      | true =>
          obtain ⟨drain, empty⟩ := Bool.and_eq_true_iff.mp done
          have order := delivers.order
          rw [thread] at order
          exact ⟨order, fun _ => ⟨drain, List.isEmpty_iff.mp empty⟩, delivers.reported⟩
  | stopped =>
      refine iff_of_true ?_ fun _ _ _ => nofun
      simp only [move, thread]
      exact delivers

/-- The steps that keep what is accepted on its way are the allowed ones. -/
theorem delivers_step_iff (none : queue.failed = []) (delivers : queue.Delivers)
    (event : Event ε) : (queue.step event).Delivers ↔ queue.Allowed event := by
  cases event with
  | log event =>
      refine iff_of_true ?_ trivial
      change (queue.log event).Delivers
      unfold log
      split
      · exact delivers
      · exact ⟨delivers.order, delivers.finished, delivers.reported⟩
  | add place => exact delivers_add_iff delivers place
  | setDrain =>
      exact iff_of_true ⟨delivers.order, fun stopped => ⟨rfl, (delivers.finished stopped).2⟩,
        delivers.reported⟩ trivial
  | move interrupted answer => exact delivers_move_iff none delivers interrupted answer

end Delivery

section Progress

/-- How far the thread is from handing over an event of the queue. -/
def distance : AsyncThread ε → Nat
  | .checking => 5
  | .looping => 4
  | .taking | .polling => 3
  | .draining _ => 2
  | .handing .. => 1
  | .stopped => 0

/-- How many events of the first ones accepted are not handed over. -/
def missing (wanted : List ε) : Nat := wanted.length - queue.handed.length

/-- What is left to do for the first events accepted. -/
def work (wanted : List ε) : Nat :=
  if queue.missing wanted = 0 then 0
  else 6 * queue.missing wanted + distance queue.consumerThread

/-- The steps of the thread that are not interrupted. -/
def moves : Event ε → Nat
  | .move interrupted _ => if interrupted then 0 else 1
  | _ => 0

def interrupts : Event ε → Nat
  | .move interrupted _ => if interrupted then 1 else 0
  | _ => 0

variable {queue} {wanted : List ε}

theorem handed_read {empty : AuditAsyncQueue ε} (same : empty.handed = queue.handed) :
    (queue.read empty).handed = queue.handed := by
  unfold read
  cases queue.queue with
  | nil => exact same
  | cons event rest => rfl

/-- While an accepted event is missing, the queue or the thread has it. -/
theorem held_or_queued (delivers : queue.Delivers) (among : wanted <+: queue.accepted)
    (some : queue.missing wanted ≠ 0) (held : queue.consumerThread.held = []) :
    ∃ event rest, queue.queue = event :: rest := by
  refine List.exists_cons_of_ne_nil fun empty => some ?_
  have order := delivers.order
  rw [held, empty, List.append_nil, List.append_nil] at order
  have length := among.length_le
  rw [← order] at length
  exact Nat.sub_eq_zero_of_le length

theorem work_of_handed {next : AuditAsyncQueue ε} (handed : next.handed = queue.handed)
    (some : queue.missing wanted ≠ 0) :
    next.work wanted = 6 * queue.missing wanted + distance next.consumerThread := by
  have same : next.missing wanted = queue.missing wanted := by
    unfold missing
    rw [handed]
  unfold work
  rw [same, if_neg some]

theorem work_eq_zero_iff : queue.work wanted = 0 ↔ queue.missing wanted = 0 := by
  unfold work
  split
  · next none => exact ⟨fun _ => none, fun _ => rfl⟩
  · next some => exact ⟨fun zero => by omega, fun none => absurd none some⟩

/-- A step that hands nothing over comes closer if the thread does. -/
theorem work_closer {next : AuditAsyncQueue ε} (handed : next.handed = queue.handed)
    (some : queue.missing wanted ≠ 0) {gain cost : Nat}
    (closer : distance next.consumerThread + gain ≤ distance queue.consumerThread + cost) :
    next.work wanted = 0 ∨ next.work wanted + gain ≤ queue.work wanted + cost := by
  rw [work_of_handed handed some, work_of_handed rfl some]
  omega

/-- The thread hands over at least one event. -/
theorem work_hand {event : ε} {more : List ε}
    (thread : queue.consumerThread = .handing event more) (some : queue.missing wanted ≠ 0)
    (interrupted : Bool) (answer : ConsumerAnswer) {gain : Nat} (small : gain ≤ 1) (cost : Nat) :
    (queue.move interrupted answer).work wanted = 0 ∨
      (queue.move interrupted answer).work wanted + gain ≤ queue.work wanted + cost := by
  have length : (queue.move interrupted answer).handed.length =
      queue.handed.length + (more.length + 1) := by
    simp only [move, thread, handed, List.flatMap_append, List.flatMap_cons, List.flatMap_nil,
      List.append_nil, List.length_append, List.length_cons]
  have behind : (queue.move interrupted answer).consumerThread = .checking := by
    simp only [move, thread]
  refine or_iff_not_imp_left.mpr fun left => ?_
  have missing : (queue.move interrupted answer).missing wanted ≠ 0 := fun none =>
    left (work_eq_zero_iff.mpr none)
  rw [work_of_handed rfl missing, work_of_handed rfl some, behind, thread]
  simp only [AuditAsyncQueue.missing, length, distance] at missing some ⊢
  omega

/-- A step of the thread comes closer to handing over what is missing, unless it waits and
is interrupted. -/
theorem work_move (delivers : queue.Delivers) (among : wanted <+: queue.accepted)
    (some : queue.missing wanted ≠ 0) (interrupted : Bool) (answer : ConsumerAnswer) :
    (queue.move interrupted answer).work wanted = 0 ∨
      (queue.move interrupted answer).work wanted + moves (.move interrupted answer : Event ε) ≤
        queue.work wanted + 2 * interrupts (.move interrupted answer : Event ε) := by
  have gain : moves (.move interrupted answer : Event ε) ≤ 1 := by
    cases interrupted with
    | true => exact Nat.zero_le _
    | false => exact Nat.le_refl _
  cases thread : queue.consumerThread with
  | handing event more => exact work_hand thread some interrupted answer gain _
  | looping =>
      refine work_closer (by simp only [move, thread]; rfl) some ?_
      simp only [move, thread]
      split
      · simp only [distance]; omega
      · simp only [distance]; omega
  | taking =>
      obtain ⟨event, rest, listed⟩ := held_or_queued delivers among some (by rw [thread]; rfl)
      refine work_closer ?_ some ?_
      · simp only [move, thread]
        cases interrupted with
        | true => rfl
        | false => exact handed_read rfl
      · simp only [move, thread]
        cases interrupted with
        | true => simp only [↓reduceIte, distance, moves, interrupts]; omega
        | false => simp only [Bool.false_eq_true, ↓reduceIte, read, listed, distance, moves]; omega
  | polling =>
      obtain ⟨event, rest, listed⟩ := held_or_queued delivers among some (by rw [thread]; rfl)
      refine work_closer ?_ some ?_
      · simp only [move, thread]
        exact handed_read rfl
      · simp only [move, thread, read, listed, distance]
        omega
  | draining event =>
      refine work_closer (by simp only [move, thread]; rfl) some ?_
      simp only [move, thread, distance]
      omega
  | checking =>
      obtain ⟨event, rest, listed⟩ := held_or_queued delivers among some (by rw [thread]; rfl)
      refine work_closer (by simp only [move, thread]; rfl) some ?_
      simp only [move, thread, listed, List.isEmpty_cons, Bool.and_false, Bool.false_eq_true,
        ↓reduceIte, distance]
      omega
  | stopped =>
      obtain ⟨event, rest, listed⟩ := held_or_queued delivers among some (by rw [thread]; rfl)
      rw [(delivers.finished thread).2] at listed
      cases listed

theorem handed_isPrefix_move (interrupted : Bool) (answer : ConsumerAnswer) :
    queue.handed <+: (queue.move interrupted answer).handed := by
  cases thread : queue.consumerThread with
  | handing event more =>
      simp only [move, thread, handed, List.flatMap_append]
      exact List.prefix_append _ _
  | taking =>
      simp only [move, thread]
      cases interrupted with
      | true => exact List.prefix_rfl
      | false => exact (handed_read rfl).symm ▸ List.prefix_rfl
  | polling =>
      have same := @handed_read _ queue { queue with consumerThread := .checking } rfl
      simp only [move, thread]
      exact same.symm ▸ List.prefix_rfl
  | _ =>
      simp only [move, thread]
      exact List.prefix_rfl

theorem accepted_read {empty : AuditAsyncQueue ε} (same : empty.accepted = queue.accepted) :
    (queue.read empty).accepted = queue.accepted := by
  unfold read
  cases queue.queue with
  | nil => exact same
  | cons event rest => rfl

theorem accepted_move (interrupted : Bool) (answer : ConsumerAnswer) :
    (queue.move interrupted answer).accepted = queue.accepted := by
  unfold move
  cases queue.consumerThread with
  | taking =>
      cases interrupted with
      | true => rfl
      | false => exact accepted_read rfl
  | polling => exact accepted_read rfl
  | _ => rfl

/-- What was accepted stays accepted. -/
theorem accepted_isPrefix_step (event : Event ε) :
    queue.accepted <+: (queue.step event).accepted := by
  cases event with
  | log event =>
      change queue.accepted <+: (queue.log event).accepted
      unfold log
      split
      · exact List.prefix_rfl
      · exact List.prefix_rfl
  | add place =>
      change queue.accepted <+: (queue.add place).accepted
      unfold add
      cases queue.adding[place]? with
      | none => exact List.prefix_rfl
      | some event => exact List.prefix_append _ _
  | setDrain => exact List.prefix_rfl
  | move interrupted answer =>
      exact (accepted_move interrupted answer).symm ▸ List.prefix_rfl

/-- The other threads neither hand anything over nor move the consumer thread. -/
theorem work_log (event : ε) : (queue.log event).work wanted = queue.work wanted := by
  unfold log
  split
  · rfl
  · rfl

theorem work_add (place : Nat) : (queue.add place).work wanted = queue.work wanted := by
  unfold add
  cases queue.adding[place]? with
  | none => rfl
  | some event => rfl

theorem work_step_of_work_eq_zero (none : queue.work wanted = 0) (event : Event ε) :
    (queue.step event).work wanted = 0 := by
  cases event with
  | log event => exact (work_log event).trans none
  | add place => exact (work_add place).trans none
  | setDrain => exact none
  | move interrupted answer =>
      refine work_eq_zero_iff.mpr ?_
      have before : wanted.length - queue.handed.length = 0 := work_eq_zero_iff.mp none
      have grown := (@handed_isPrefix_move _ queue interrupted answer).length_le
      change wanted.length - (queue.move interrupted answer).handed.length = 0
      omega

theorem work_step (delivers : queue.Delivers) (among : wanted <+: queue.accepted)
    (event : Event ε) :
    (queue.step event).work wanted = 0 ∨
      (queue.step event).work wanted + moves event ≤ queue.work wanted + 2 * interrupts event := by
  by_cases none : queue.work wanted = 0
  · exact .inl (work_step_of_work_eq_zero none event)
  · cases event with
    | log event => exact .inr (Nat.le_of_eq (work_log event))
    | add place => exact .inr (Nat.le_of_eq (work_add place))
    | setDrain => exact .inr (Nat.le_refl _)
    | move interrupted answer =>
        exact work_move delivers among (fun zero => none (work_eq_zero_iff.mpr zero)) interrupted
          answer

end Progress

section Runs

/-- A queue that was started. -/
def start (maxQueueSize : Int) : AuditAsyncQueue ε := { maxQueueSize }

/-- Throughout a run nothing that was accepted is lost, doubled or overtaken, the loop ends
only when it is to drain and nothing is left, and what is rejected is reported; and what was
accepted is handed over once the thread has made enough steps, whatever happens in between. -/
structure RunDelivers (maxQueueSize : Int) (events : List (Event ε)) : Prop where
  always : ∀ done rest, events = done ++ rest → ((start maxQueueSize).run done).Delivers
  eventually : ∀ done rest, events = done ++ rest →
    6 * ((start maxQueueSize).run done).accepted.length + 6 + (rest.map (2 * interrupts ·)).sum ≤
      (rest.map moves).sum →
    ((start maxQueueSize).run done).accepted <+: ((start maxQueueSize).run events).handed

theorem delivers_start (maxQueueSize : Int) :
    (start maxQueueSize : AuditAsyncQueue ε).Delivers where
  order := rfl
  finished := nofun
  reported _ listed := nomatch listed

theorem forall_delivers_iff (maxQueueSize : Int) (events : List (Event ε)) :
    (∀ done rest, events = done ++ rest → ((start maxQueueSize).run done).Delivers) ↔
      ∀ done event rest, events = done ++ event :: rest →
        ((start maxQueueSize).run done).Allowed event :=
  @Run.forall_prefix_iff_of_allowed _ _ _ (fun queue event => ((), step queue event))
    (·.failed = []) Delivers (fun _ _ => True) Allowed
    (fun _ event none _ => (failed_step event).trans none)
    (fun _ event none _ delivers => delivers_step_iff none delivers event)
    _ rfl (delivers_start maxQueueSize) _ fun _ _ _ _ => trivial

/-- What holds of the states behind one that has accepted some events. -/
structure Behind (wanted : List ε) (queue : AuditAsyncQueue ε) : Prop where
  delivers : queue.Delivers
  failed : queue.failed = []
  among : wanted <+: queue.accepted

theorem Behind.step {wanted : List ε} {queue : AuditAsyncQueue ε} (behind : queue.Behind wanted)
    {event : Event ε} (allowed : queue.Allowed event) : (queue.step event).Behind wanted where
  delivers := (delivers_step_iff behind.failed behind.delivers event).mpr allowed
  failed := (failed_step event).trans behind.failed
  among := behind.among.trans (accepted_isPrefix_step event)

/-- What a state has accepted is handed over once the thread has made enough steps. -/
theorem accepted_isPrefix_handed {queue : AuditAsyncQueue ε} (delivers : queue.Delivers)
    (none : queue.failed = []) {rest : List (Event ε)}
    (within : ∀ done event later, rest = done ++ event :: later →
      (queue.run done).Allowed event)
    (enough : 6 * queue.accepted.length + 6 + (rest.map (2 * interrupts ·)).sum ≤
      (rest.map moves).sum) :
    queue.accepted <+: (queue.run rest).handed := by
  have here : queue.Behind queue.accepted := ⟨delivers, none, List.prefix_rfl⟩
  have keeps : ∀ (state : AuditAsyncQueue ε) (event : Event ε), state.Behind queue.accepted →
      state.Allowed event → (state.step event).Behind queue.accepted :=
    fun _ _ behind allowed => behind.step allowed
  have final : (queue.run rest).Behind queue.accepted :=
    @Run.forall_prefix_of_allowed _ _ _ (fun queue event => ((), step queue event)) _ Allowed keeps
      _ here _ within rest [] (List.append_nil _).symm
  have progress := (@Run.measure_final_le _ _ _ (fun queue event => ((), step queue event))
    (Behind queue.accepted) Allowed (work · queue.accepted) moves (2 * interrupts ·) keeps
    (fun _ event _ _ zero => work_step_of_work_eq_zero zero event)
    (fun _ event behind _ => work_step behind.delivers behind.among event)
    rest queue here within).2
  have bound : queue.work queue.accepted ≤ 6 * queue.accepted.length + 5 := by
    have few : queue.missing queue.accepted ≤ queue.accepted.length := Nat.sub_le _ _
    have near : distance queue.consumerThread ≤ 5 := by
      cases queue.consumerThread <;> simp only [distance] <;> omega
    unfold work
    split <;> omega
  have done : (queue.run rest).work queue.accepted = 0 := by
    rcases progress with zero | lower
    · exact zero
    · change (queue.run rest).work queue.accepted + _ ≤ _ at lower
      omega
  have length : queue.accepted.length - (queue.run rest).handed.length = 0 :=
    work_eq_zero_iff.mp done
  refine List.prefix_of_prefix_length_le final.among ?_ (Nat.le_of_sub_eq_zero length)
  rw [← final.delivers.order, List.append_assoc]
  exact List.prefix_append _ _

/-- A queue delivers or reports in a run if no batch is rejected and nothing is added behind
the end of the loop. -/
theorem runDelivers_iff (maxQueueSize : Int) (events : List (Event ε)) :
    RunDelivers maxQueueSize events ↔
      ∀ done event rest, events = done ++ event :: rest →
        ((start maxQueueSize).run done).Allowed event := by
  constructor
  · exact fun delivers => (forall_delivers_iff maxQueueSize events).mp delivers.always
  · intro allowed
    have always := (forall_delivers_iff maxQueueSize events).mpr allowed
    refine ⟨always, fun done rest split enough => ?_⟩
    have none : ((start maxQueueSize).run done).failed = [] :=
      @Run.forall_prefix_of_allowed _ _ _ (fun queue event => ((), step queue event))
        (·.failed = []) (fun _ _ => True) (fun _ event none _ => (failed_step event).trans none)
        (start maxQueueSize) rfl done (fun _ _ _ _ => trivial) done [] (List.append_nil _).symm
    have handed := accepted_isPrefix_handed (always done rest split) none
      (fun first event later cut => by
        have whole := allowed (done ++ first) event later (by rw [split, cut, List.append_assoc])
        unfold run at whole ⊢
        rwa [Run.final_append] at whole)
      enough
    rw [split]
    unfold run at handed ⊢
    rwa [Run.final_append]

/-- A batch that the consumer rejects is dropped. -/
theorem rejected_batch_dropped :
    ¬∀ (maxQueueSize : Int) (events : List (Event Nat)), RunDelivers maxQueueSize events := by
  intro delivers
  have reported := ((delivers 10 [.log 1, .add 0, .move false .took, .move false .took,
    .move false .took, .move false .rejected]).always _ [] (List.append_nil _).symm).reported
    ⟨[1], .rejected⟩ List.mem_cons_self rfl
  cases reported

end Runs

end AuditAsyncQueue

end Ranger

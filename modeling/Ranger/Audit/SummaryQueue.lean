import Mathlib.Algebra.BigOperators.Group.List.Basic
import Mathlib.Algebra.Ring.Int.Defs
import Ranger.Foundation.AssocMap
import Ranger.Foundation.Run
import Ranger.Platform

/-! # The summary queue of audits

Audits of the same kind that follow one another are counted in one summary. The kind of
an audit is a text made of eight of its fields, and the summary is the first audit
itself, with the count and the duration written into it.
-/

namespace Ranger

open Foundation

/-- The fields that make up the key of an event. -/
structure EventFields where
  user : Option String := none
  accessType : Option String := none
  resourcePath : Option String := none
  resourceType : Option String := none
  action : Option String := none
  accessResult : Int := 0
  sessionId : Option String := none
  clientIP : Option String := none
  deriving DecidableEq

/-- An audit; its time is in milliseconds. -/
structure AuthzAuditEvent extends EventFields where
  eventTime : Option Int := none
  eventCount : Int := 1
  eventDurationMS : Int := 0
  deriving DecidableEq

/-- A text as it is appended to another. -/
def EventFields.appended (text : Option String) : String := text.getD "null"

def EventFields.getEventKey (fields : EventFields) : String :=
  appended fields.user ++ "^" ++ appended fields.accessType ++ "^" ++
    appended fields.resourcePath ++ "^" ++ appended fields.resourceType ++ "^" ++
      appended fields.action ++ "^" ++ toString fields.accessResult ++ "^" ++
        appended fields.sessionId ++ "^" ++ appended fields.clientIP

structure AuditSummary where
  startTime : Option Int
  endTime : Option Int
  count : Int
  event : AuthzAuditEvent
  deriving DecidableEq

/-- A queue with what its thread took from it and handed to the consumer. -/
structure AuditSummaryQueue where
  summaryMap : AssocMap String AuditSummary := ∅
  running : Bool := true
  taken : List AuthzAuditEvent := []
  dispatched : List AuthzAuditEvent := []
  failed : List AuthzAuditEvent := []

/-- The event of a summary with what was counted, unless a time is missing. -/
def AuditSummary.close (summary : AuditSummary) : Option AuthzAuditEvent := do
  let endTime ← summary.endTime
  let startTime ← summary.startTime
  let timeDiff := endTime - startTime
  some { summary.event with
    eventCount := summary.count
    eventDurationMS := if timeDiff > 0 then timeDiff else 1 }

namespace AuditSummaryQueue

section Loop

variable (queue : AuditSummaryQueue)

/-- Add an event to the summary of its key. -/
def add (event : AuthzAuditEvent) : AuditSummaryQueue :=
  let key := event.getEventKey
  match queue.summaryMap.get? key with
  | none =>
      { queue with
        summaryMap := queue.summaryMap.put key ⟨event.eventTime, event.eventTime, 1, event⟩
        taken := queue.taken ++ [event] }
  | some auditSummary =>
      { queue with
        summaryMap := queue.summaryMap.put key
          { auditSummary with
            endTime := event.eventTime
            count := intSucc auditSummary.count }
        taken := queue.taken ++ [event] }

/-- The events handed to the consumer, with its answers. A summary without a time ends
the loop, and so does a consumer that throws. -/
def handOver (answer : AuthzAuditEvent → Option Bool) :
    List (String × AuditSummary) → List (AuthzAuditEvent × Bool)
  | [] => []
  | (_, auditSummary) :: rest =>
      match auditSummary.close with
      | none => []
      | some event =>
          match answer event with
          | none => []
          | some ret => (event, ret) :: handOver answer rest

/-- Dispatch the summaries and clear the map. An exception ends the thread; nothing
reads the map then, and the summaries that were not handed over are left in it. -/
def dispatch (answer : AuthzAuditEvent → Option Bool) : AuditSummaryQueue :=
  let handed := handOver answer queue.summaryMap.entries
  { queue with
    summaryMap := queue.summaryMap.drop handed.length
    running := decide (handed.length = queue.summaryMap.size)
    dispatched := queue.dispatched ++ handed.map Prod.fst
    failed := queue.failed ++ (handed.filter fun entry => !entry.2).map Prod.fst }

/-- A turn of the loop with the events it took from the queue. -/
def turn (eventList : List AuthzAuditEvent) (isDrain : Bool) (nextDispatchDuration : Int)
    (answer : AuthzAuditEvent → Option Bool) : AuditSummaryQueue :=
  let added := eventList.foldl add queue
  if isDrain || decide (nextDispatchDuration ≤ 0) then added.dispatch answer else added

end Loop

/-- What the thread does one after the other. -/
inductive Step where
  | add (event : AuthzAuditEvent)
  | dispatch (answer : AuthzAuditEvent → Option Bool)

def step (queue : AuditSummaryQueue) (next : Step) : AuditSummaryQueue :=
  if queue.running then
    match next with
    | .add event => queue.add event
    | .dispatch answer => queue.dispatch answer
  else queue

/-- The queue after events were taken and summaries dispatched in some order. -/
def run (steps : List Step) : AuditSummaryQueue :=
  Run.final (fun queue next => ((), step queue next)) {} steps

section Counting

variable (queue : AuditSummaryQueue)

/-- The counts of the summaries that were dispatched and of those that are pending. -/
def counts : List (EventFields × Int) :=
  queue.dispatched.map (fun event => (event.toEventFields, event.eventCount)) ++
    queue.summaryMap.entries.map fun entry => (entry.2.event.toEventFields, entry.2.count)

/-- The sum of the counts that stand beside some fields. -/
def tally (fields : EventFields) (counts : List (EventFields × Int)) : Int :=
  (counts.map fun entry => if entry.1 = fields then entry.2 else 0).sum

/-- For all fields the summaries count the events with these fields. -/
def Conserved : Prop :=
  ∀ fields : EventFields, tally fields queue.counts =
    (queue.taken.countP (·.toEventFields = fields) : Int)

/-- The summary of the key of an event was begun by an event with the same fields, and
its count is not the greatest there is. -/
def Keeps : Step → Prop
  | .add event => queue.running = true →
      ∀ auditSummary ∈ queue.summaryMap.get? event.getEventKey,
        auditSummary.event.toEventFields = event.toEventFields ∧ auditSummary.count ≠ 2147483647
  | .dispatch _ => True

instance (next : Step) : Decidable (queue.Keeps next) := by
  cases next <;> unfold Keeps <;> infer_instance

/-- Counts are of type `int`, and what was dispatched took some time. -/
structure Bounded : Prop where
  counts : ∀ key auditSummary, queue.summaryMap.get? key = some auditSummary →
    -2147483648 ≤ auditSummary.count ∧ auditSummary.count ≤ 2147483647
  durations : ∀ event ∈ queue.dispatched, 1 ≤ event.eventDurationMS

variable {queue} {fields : EventFields}

theorem tally_append (first second : List (EventFields × Int)) :
    tally fields (first ++ second) = tally fields first + tally fields second := by
  rw [tally, List.map_append, List.sum_append]
  rfl

theorem tally_cons (entry : EventFields × Int) (rest : List (EventFields × Int)) :
    tally fields (entry :: rest) =
      (if entry.1 = fields then entry.2 else 0) + tally fields rest := by
  rw [tally, List.map_cons, List.sum_cons]
  rfl

theorem intSucc_bounds (count : Int) :
    -2147483648 ≤ intSucc count ∧ intSucc count ≤ 2147483647 := by
  have low := Int.le_bmod (x := count + 1) (m := 4294967296) (by decide)
  have high := Int.bmod_le (x := count + 1) (m := 4294967296) (by decide)
  unfold intSucc
  omega

theorem intSucc_eq_iff {count : Int} (low : -2147483648 ≤ count) (high : count ≤ 2147483647) :
    intSucc count = count + 1 ↔ count ≠ 2147483647 := by
  refine ⟨fun next greatest => ?_, fun more => ?_⟩
  · subst greatest
    exact absurd next (by decide)
  · apply Int.bmod_eq_of_le <;> omega

theorem counts_add_fresh {event : AuthzAuditEvent}
    (absent : queue.summaryMap.get? event.getEventKey = none) :
    (queue.add event).counts = queue.counts ++ [(event.toEventFields, 1)] := by
  have fresh := AssocMap.get?_eq_none_iff.mp absent
  unfold AuditSummaryQueue.add counts
  simp only [absent, AssocMap.entries_put_of_not_mem fresh, List.map_append, List.map_cons,
    List.map_nil, List.append_assoc]

/-- Adding to a summary counts beside the fields of the event that began it. -/
theorem tally_add_merged {event : AuthzAuditEvent} {auditSummary : AuditSummary}
    (present : queue.summaryMap.get? event.getEventKey = some auditSummary) :
    tally fields (queue.add event).counts = tally fields queue.counts +
      if auditSummary.event.toEventFields = fields then
        intSucc auditSummary.count - auditSummary.count else 0 := by
  obtain ⟨before, after, split, written⟩ := AssocMap.entries_put_of_get? present
    { auditSummary with endTime := event.eventTime, count := intSucc auditSummary.count }
  unfold AuditSummaryQueue.add counts
  simp only [present, written, split, List.map_append, List.map_cons, tally_append, tally_cons]
  by_cases own : auditSummary.event.toEventFields = fields
  · simp only [own, ↓reduceIte]
    omega
  · simp only [own, ↓reduceIte]
    omega

theorem taken_add (queue : AuditSummaryQueue) (event : AuthzAuditEvent) :
    (queue.add event).taken = queue.taken ++ [event] := by
  unfold AuditSummaryQueue.add
  dsimp only
  split <;> rfl

/-- **Adding.** An event is counted beside its own fields exactly when its summary was
begun by an event with these fields. -/
theorem conserved_add_iff (bounded : queue.Bounded) (conserved : queue.Conserved)
    (running : queue.running = true) (event : AuthzAuditEvent) :
    (queue.add event).Conserved ↔ queue.Keeps (.add event) := by
  have taken : ∀ fields : EventFields,
      ((queue.add event).taken.countP (·.toEventFields = fields) : Int) =
        queue.taken.countP (·.toEventFields = fields) +
          if event.toEventFields = fields then 1 else 0 := by
    intro fields
    rw [taken_add, List.countP_append, List.countP_singleton]
    by_cases own : event.toEventFields = fields <;> simp [own]
  unfold Conserved Keeps
  simp only [taken, running, true_implies]
  cases present : queue.summaryMap.get? event.getEventKey with
  | none =>
      have counted : ∀ fields, tally fields (queue.add event).counts =
          tally fields queue.counts + if event.toEventFields = fields then 1 else 0 := by
        intro fields
        rw [counts_add_fresh present, tally_append, tally_cons]
        exact congrArg _ (Int.add_zero _)
      refine iff_of_true (fun fields => ?_) fun auditSummary found => absurd found (Option.not_mem_none _)
      rw [counted, conserved fields]
  | some auditSummary =>
      obtain ⟨low, high⟩ := bounded.counts _ auditSummary present
      constructor
      · intro counted found same
        rw [Option.mem_some] at same
        subst same
        have own := counted event.toEventFields
        rw [tally_add_merged present, conserved, if_pos rfl] at own
        by_cases alike : auditSummary.event.toEventFields = event.toEventFields
        · rw [if_pos alike] at own
          exact ⟨alike, (intSucc_eq_iff low high).mp (by omega)⟩
        · rw [if_neg alike] at own
          omega
      · intro keeps fields
        obtain ⟨alike, more⟩ := keeps auditSummary rfl
        rw [tally_add_merged present, conserved fields, alike,
          (intSucc_eq_iff low high).mpr more, add_sub_cancel_left]

theorem close_eq_some {auditSummary : AuditSummary} {event : AuthzAuditEvent}
    (closed : auditSummary.close = some event) :
    event.toEventFields = auditSummary.event.toEventFields ∧
      event.eventCount = auditSummary.count ∧ 1 ≤ event.eventDurationMS := by
  unfold AuditSummary.close at closed
  obtain ⟨endTime, _, closed⟩ := Option.bind_eq_some_iff.mp closed
  obtain ⟨startTime, _, closed⟩ := Option.bind_eq_some_iff.mp closed
  cases closed
  refine ⟨rfl, rfl, ?_⟩
  dsimp only
  split <;> omega

/-- What is handed over are the first of the summaries, each with its count. -/
theorem handOver_eq_take (answer : AuthzAuditEvent → Option Bool)
    (entries : List (String × AuditSummary)) :
    (handOver answer entries).map (fun entry => (entry.1.toEventFields, entry.1.eventCount)) =
      (entries.take (handOver answer entries).length).map
        fun entry => (entry.2.event.toEventFields, entry.2.count) := by
  induction entries with
  | nil => rfl
  | cons entry rest ih =>
      obtain ⟨key, auditSummary⟩ := entry
      cases closed : auditSummary.close with
      | none => simp only [handOver, closed, List.length_nil, List.take_zero, List.map_nil]
      | some event =>
          obtain ⟨fields, count, _⟩ := close_eq_some closed
          cases ret : answer event with
          | none => simp only [handOver, closed, ret, List.length_nil, List.take_zero, List.map_nil]
          | some taken =>
              simp only [handOver, closed, ret, List.map_cons, List.length_cons,
                List.take_succ_cons, ih, fields, count]

theorem handOver_durations (answer : AuthzAuditEvent → Option Bool)
    (entries : List (String × AuditSummary)) :
    ∀ entry ∈ handOver answer entries, 1 ≤ entry.1.eventDurationMS := by
  induction entries with
  | nil => exact fun entry listed => nomatch listed
  | cons first rest ih =>
      obtain ⟨key, auditSummary⟩ := first
      intro entry listed
      cases closed : auditSummary.close with
      | none =>
          simp only [handOver, closed] at listed
          nomatch listed
      | some event =>
          cases ret : answer event with
          | none =>
              simp only [handOver, closed, ret] at listed
              nomatch listed
          | some taken =>
              simp only [handOver, closed, ret, List.mem_cons] at listed
              rcases listed with rfl | later
              · exact (close_eq_some closed).2.2
              · exact ih entry later

/-- **Dispatching.** The counts go from the pending summaries to those dispatched. -/
theorem counts_dispatch (queue : AuditSummaryQueue) (answer : AuthzAuditEvent → Option Bool) :
    (queue.dispatch answer).counts = queue.counts := by
  unfold AuditSummaryQueue.dispatch counts AssocMap.drop
  dsimp only
  rw [List.map_append, List.append_assoc, List.map_map]
  congr 1
  change (handOver answer queue.summaryMap.entries).map
    (fun entry => (entry.1.toEventFields, entry.1.eventCount)) ++ _ = _
  rw [handOver_eq_take, ← List.map_append, List.take_append_drop]

theorem Bounded.add (bounded : queue.Bounded) (event : AuthzAuditEvent) :
    (queue.add event).Bounded := by
  unfold AuditSummaryQueue.add
  dsimp only
  split
  · refine ⟨fun key auditSummary found => ?_, bounded.durations⟩
    rw [AssocMap.get?_put] at found
    split at found
    · cases found
      dsimp only
      omega
    · exact bounded.counts key auditSummary found
  · next old _ =>
    refine ⟨fun key auditSummary found => ?_, bounded.durations⟩
    rw [AssocMap.get?_put] at found
    split at found
    · cases found
      exact intSucc_bounds old.count
    · exact bounded.counts key auditSummary found

theorem Bounded.dispatch (bounded : queue.Bounded) (answer : AuthzAuditEvent → Option Bool) :
    (queue.dispatch answer).Bounded where
  counts key auditSummary found := by
    have listed := List.mem_of_mem_drop (AssocMap.get?_eq_some_iff.mp found)
    exact bounded.counts key auditSummary (AssocMap.get?_eq_some_iff.mpr listed)
  durations event listed := by
    rcases List.mem_append.mp listed with before | handed
    · exact bounded.durations event before
    · obtain ⟨entry, given, rfl⟩ := List.mem_map.mp handed
      exact handOver_durations answer _ entry given

theorem Bounded.step (bounded : queue.Bounded) (next : Step) : (queue.step next).Bounded := by
  unfold AuditSummaryQueue.step
  split
  · cases next with
    | add event => exact bounded.add event
    | dispatch answer => exact bounded.dispatch answer
  · exact bounded

/-- **Steps.** A step keeps the counts right exactly when it merges like with like. -/
theorem conserved_step_iff (bounded : queue.Bounded) (conserved : queue.Conserved) (next : Step) :
    (queue.step next).Conserved ↔ queue.Keeps next := by
  unfold AuditSummaryQueue.step
  split
  · next running =>
    cases next with
    | add event => exact conserved_add_iff bounded conserved running event
    | dispatch answer =>
        refine iff_of_true ?_ trivial
        intro fields
        rw [counts_dispatch]
        exact conserved fields
  · next ended =>
    refine iff_of_true conserved ?_
    cases next with
    | add event => exact fun running => absurd running ended
    | dispatch answer => trivial

end Counting

section Loop

theorem running_add (queue : AuditSummaryQueue) (event : AuthzAuditEvent) :
    (queue.add event).running = queue.running := by
  unfold AuditSummaryQueue.add
  dsimp only
  split <;> rfl

/-- A turn of the loop is a run of steps. -/
theorem turn_eq_final {queue : AuditSummaryQueue} (running : queue.running = true)
    (eventList : List AuthzAuditEvent) (isDrain : Bool) (nextDispatchDuration : Int)
    (answer : AuthzAuditEvent → Option Bool) :
    queue.turn eventList isDrain nextDispatchDuration answer =
      Run.final (fun queue next => ((), step queue next)) queue
        (eventList.map .add ++
          if isDrain || decide (nextDispatchDuration ≤ 0) then [.dispatch answer] else []) := by
  have added : Run.final (fun queue next => ((), step queue next)) queue (eventList.map .add) =
      eventList.foldl add queue ∧ (eventList.foldl add queue).running = true := by
    induction eventList generalizing queue with
    | nil => exact ⟨rfl, running⟩
    | cons event rest ih =>
        have next := ih ((running_add queue event).trans running)
        refine ⟨?_, next.2⟩
        rw [List.map_cons, Run.final, step, if_pos running]
        exact next.1
  rw [Run.final_append, added.1]
  unfold turn
  split
  · rw [Run.final, Run.final, step, if_pos added.2]
  · rfl

end Loop

section Example

/-- A denied listing of a directory. -/
def listing : AuthzAuditEvent where
  user := some "alice"
  accessType := some "execute^read"
  eventTime := some 0

/-- Another user does the same, as far as the key tells. -/
def otherListing : AuthzAuditEvent where
  user := some "alice^execute"
  accessType := some "read"
  eventTime := some 0

end Example

end AuditSummaryQueue

end Ranger

import Mathlib.Data.List.Count
import Mathlib.Data.List.Nodup
import Ranger.Foundation.Run

/-! # The asynchronous audit provider

Any thread logs an event: the call is counted, the event is offered to a bounded queue, and
counted as dropped when there is no room. One thread takes the events out and hands them to
the destinations. When it finds no event it flushes, or waits for one; the loop ends only when
such a wait is interrupted, and a wait that starts with the interrupt pending does not look at
the queue again.
-/

namespace Ranger

open Foundation

/-- An event with the number that `lifeTimeInLogCount` gave its call. -/
structure Counted (ε : Type) where
  number : Nat
  event : ε
  deriving DecidableEq

/-- Where a call of `log` stands. -/
inductive LoggingCall (ε : Type) where
  /-- Before the event is offered. -/
  | offering (entry : Counted ε)
  /-- Behind an offer that was refused, before the drop is counted. -/
  | dropping (number : Nat)
  | returning (number : Nat)
  deriving DecidableEq

/-- The numbers of the calls whose event is neither accepted nor counted as dropped. -/
def LoggingCall.pending {ε : Type} : LoggingCall ε → List Nat
  | offering entry => [entry.number]
  | dropping number => [number]
  | returning _ => []

/-- Where the thread of the provider stands. -/
inductive ProviderThread (ε : Type) where
  /-- Before the poll that does not wait. -/
  | polling
  /-- Behind a poll without an event, before the time of the next flush is read. -/
  | deciding
  /-- Before a poll that waits. -/
  | entering
  | waiting
  /-- In a wait without an event that was interrupted. -/
  | woken
  /-- Behind a poll with an event, before it is counted. -/
  | counting (entry : Counted ε)
  /-- Before the event is given to the destinations. -/
  | handing (entry : Counted ε)
  | flushing
  /-- Behind the loop, before the last flush. -/
  | leaving
  | ended
  deriving DecidableEq

namespace ProviderThread

variable {ε : Type}

/-- The event that is taken out and not counted. -/
def taken : ProviderThread ε → List (Counted ε)
  | counting entry => [entry]
  | _ => []

/-- The event that is counted out and not handed over. -/
def held : ProviderThread ε → List (Counted ε)
  | handing entry => [entry]
  | _ => []

/-- The loop has ended. -/
def LoopEnded : ProviderThread ε → Prop
  | leaving | ended => True
  | _ => False

/-- Only an interrupt leads here. -/
def Alert : ProviderThread ε → Prop
  | woken | leaving | ended => True
  | _ => False

end ProviderThread

/-- How far `stop` is, with the calls of `log` that had returned when it was called. -/
inductive StopCall where
  | none
  | called (owed : List Nat)
  /-- The thread was interrupted. -/
  | interrupted (owed : List Nat)
  deriving DecidableEq

def StopCall.owed : StopCall → List Nat
  | none => []
  | called owed | interrupted owed => owed

/-- A provider that was started, with what became of the events. -/
structure AsyncAuditProvider (ε : Type) where
  mMaxQueueSize : Nat := 10 * 1024
  mMaxFlushInterval : Int := 5000
  lastFlushTime : Int := 0
  mQueue : List (Counted ε) := []
  lifeTimeInLogCount : Nat := 0
  lifeTimeOutLogCount : Nat := 0
  lifeTimeDropCount : Nat := 0
  /-- The calls of `log` under way. -/
  calls : List (LoggingCall ε) := []
  thread : ProviderThread ε := .polling
  /-- The interrupt flag of the thread. -/
  interrupted : Bool := false
  stopCall : StopCall := .none
  accepted : List (Counted ε) := []
  out : List (Counted ε) := []
  handed : List (Counted ε) := []
  dropped : List Nat := []
  returned : List Nat := []

namespace AsyncAuditProvider

variable {ε : Type}

/-- The constructor; the thread starts with its first flush time. -/
def new (maxQueueSize : Int) (maxFlushInterval now : Int) : AsyncAuditProvider ε :=
  { mMaxQueueSize := if maxQueueSize < 1 then 10 * 1024 else maxQueueSize.toNat
    mMaxFlushInterval := maxFlushInterval
    lastFlushTime := now }

variable (provider : AsyncAuditProvider ε)

/-- The first half of `queueEvent`. -/
def log (event : ε) : AsyncAuditProvider ε :=
  { provider with
    lifeTimeInLogCount := provider.lifeTimeInLogCount + 1
    calls := provider.calls ++ [.offering ⟨provider.lifeTimeInLogCount + 1, event⟩] }

/-- The next step of one of the calls of `log`. -/
def advance (place : Nat) : AsyncAuditProvider ε :=
  match provider.calls[place]? with
  | none => provider
  | some (.offering entry) =>
      if provider.mQueue.length < provider.mMaxQueueSize then
        { provider with
          mQueue := provider.mQueue ++ [entry]
          accepted := provider.accepted ++ [entry]
          calls := provider.calls.set place (.returning entry.number) }
      else { provider with calls := provider.calls.set place (.dropping entry.number) }
  | some (.dropping number) =>
      { provider with
        lifeTimeDropCount := provider.lifeTimeDropCount + 1
        dropped := provider.dropped ++ [number]
        calls := provider.calls.set place (.returning number) }
  | some (.returning number) =>
      { provider with
        returned := provider.returned ++ [number]
        calls := provider.calls.eraseIdx place }

/-- `stop` is called. -/
def stop : AsyncAuditProvider ε :=
  match provider.stopCall with
  | .none => { provider with stopCall := .called provider.returned }
  | _ => provider

/-- The interrupt of `stop` arrives. A wait for which an event has come goes on with it and
keeps the flag. -/
def interrupt : AsyncAuditProvider ε :=
  match provider.stopCall with
  | .called owed =>
      match provider.thread, provider.mQueue with
      | .waiting, [] => { provider with stopCall := .interrupted owed, thread := .woken }
      | _, _ => { provider with stopCall := .interrupted owed, interrupted := true }
  | _ => provider

def getTimeTillNextFlush (now : Int) : Int :=
  if provider.mMaxFlushInterval > 0 ∧ provider.lastFlushTime ≠ 0 then
    let timeSinceLastFlush := now - provider.lastFlushTime
    if timeSinceLastFlush ≥ provider.mMaxFlushInterval then 0
    else provider.mMaxFlushInterval - timeSinceLastFlush
  else provider.mMaxFlushInterval

/-- An event is taken from the queue, or there is none. -/
def take (empty : AsyncAuditProvider ε) : AsyncAuditProvider ε :=
  match provider.mQueue with
  | [] => empty
  | entry :: rest => { provider with mQueue := rest, thread := .counting entry }

/-- The next step of the thread. A wait without an event goes on until its time is up, one that
was interrupted throws or finds its time up first; what the destinations do may take the
interrupt flag away. -/
def move (now : Int) (wakes swallows : Bool) : AsyncAuditProvider ε :=
  match provider.thread with
  | .polling => provider.take { provider with thread := .deciding }
  | .deciding =>
      if provider.mMaxFlushInterval > 0 ∧ provider.getTimeTillNextFlush now ≤ 0 then
        { provider with thread := .flushing }
      else { provider with thread := .entering }
  | .entering =>
      if provider.interrupted then { provider with interrupted := false, thread := .leaving }
      else { provider with thread := .waiting }
  | .waiting =>
      provider.take (if wakes then { provider with thread := .deciding } else provider)
  | .woken =>
      if wakes then { provider with thread := .leaving }
      else
        { provider with interrupted := true }.take
          { provider with interrupted := true, thread := .deciding }
  | .counting entry =>
      { provider with
        lifeTimeOutLogCount := provider.lifeTimeOutLogCount + 1
        out := provider.out ++ [entry]
        thread := .handing entry }
  | .handing entry =>
      { provider with
        handed := provider.handed ++ [entry]
        interrupted := provider.interrupted && !swallows
        thread := .polling }
  | .flushing =>
      { provider with
        lastFlushTime := now
        interrupted := provider.interrupted && !swallows
        thread := .polling }
  | .leaving => { provider with lastFlushTime := now, thread := .ended }
  | .ended => provider

/-- What can happen to a provider. -/
inductive Event (ε : Type) where
  | log (event : ε)
  | advance (place : Nat)
  | stop
  | interrupt
  | move (now : Int) (wakes swallows : Bool)
  deriving DecidableEq

def step (event : Event ε) : AsyncAuditProvider ε :=
  match event with
  | .log event => provider.log event
  | .advance place => provider.advance place
  | .stop => provider.stop
  | .interrupt => provider.interrupt
  | .move now wakes swallows => provider.move now wakes swallows

/-- The provider after a run. -/
def run (events : List (Event ε)) : AsyncAuditProvider ε :=
  Run.final (fun provider event => ((), step provider event)) provider events

section Accounts

/-- The event of the call is counted out or counted as dropped. -/
def Accounted (number : Nat) : Prop :=
  number ∈ provider.out.map (·.number) ∨ number ∈ provider.dropped

/-- The event of the call is accepted or counted as dropped. -/
def Settled (number : Nat) : Prop :=
  number ∈ provider.accepted.map (·.number) ∨ number ∈ provider.dropped

/-- Where the events are. Each number was given once; what was accepted is out, with the thread
or in the queue, and what is out was handed over or is about to be. -/
structure Books : Prop where
  numbers : (provider.accepted.map (·.number) ++ provider.dropped ++
    provider.calls.flatMap (·.pending)).Perm (List.range' 1 provider.lifeTimeInLogCount)
  outCount : provider.out.length = provider.lifeTimeOutLogCount
  dropCount : provider.dropped.length = provider.lifeTimeDropCount
  order : provider.out ++ provider.thread.taken ++ provider.mQueue = provider.accepted
  handed : provider.handed ++ provider.thread.held = provider.out

variable {provider}

/-- A call of `log` is at one of its steps. -/
theorem advance_cases (provider : AsyncAuditProvider ε) (place : Nat) :
    provider.advance place = provider ∨
      ∃ before call after, provider.calls = before ++ call :: after ∧
        ((∃ entry, call = .offering entry ∧
          (provider.advance place =
            { provider with
              mQueue := provider.mQueue ++ [entry]
              accepted := provider.accepted ++ [entry]
              calls := before ++ .returning entry.number :: after } ∨
          provider.advance place =
            { provider with calls := before ++ .dropping entry.number :: after })) ∨
        (∃ number, call = .dropping number ∧
          provider.advance place =
            { provider with
              lifeTimeDropCount := provider.lifeTimeDropCount + 1
              dropped := provider.dropped ++ [number]
              calls := before ++ .returning number :: after }) ∨
        (∃ number, call = .returning number ∧
          provider.advance place =
            { provider with
              returned := provider.returned ++ [number]
              calls := before ++ after })) := by
  unfold advance
  cases found : provider.calls[place]? with
  | none => exact .inl rfl
  | some call =>
      obtain ⟨inside, here⟩ := List.getElem?_eq_some_iff.mp found
      have split : provider.calls =
          provider.calls.take place ++ call :: provider.calls.drop (place + 1) := by
        rw [← here, ← List.drop_eq_getElem_cons inside, List.take_append_drop]
      have set : ∀ other, provider.calls.set place other =
          provider.calls.take place ++ other :: provider.calls.drop (place + 1) := by
        intro other
        rw [List.set_eq_take_append_cons_drop, if_pos inside]
      refine .inr ⟨_, call, _, split, ?_⟩
      cases call with
      | offering entry =>
          refine .inl ⟨entry, rfl, ?_⟩
          dsimp only
          rw [set, set]
          split
          · exact .inl rfl
          · exact .inr rfl
      | dropping number =>
          refine .inr (.inl ⟨number, rfl, ?_⟩)
          dsimp only
          rw [set]
      | returning number =>
          refine .inr (.inr ⟨number, rfl, ?_⟩)
          dsimp only
          rw [List.eraseIdx_eq_take_drop_succ]

theorem Books.log (books : provider.Books) (event : ε) : (provider.log event).Books where
  numbers := by
    change (_ ++ (provider.calls ++ [_]).flatMap _).Perm
      (List.range' 1 (provider.lifeTimeInLogCount + 1))
    rw [List.range'_1_concat, List.flatMap_append, ← List.append_assoc, Nat.add_comm 1]
    exact books.numbers.append_right _
  outCount := books.outCount
  dropCount := books.dropCount
  order := books.order
  handed := books.handed

theorem Books.advance (books : provider.Books) (place : Nat) : (provider.advance place).Books := by
  obtain ⟨numbers, outCount, dropCount, order, handed⟩ := books
  obtain same | ⟨before, call, after, split, cases⟩ := provider.advance_cases place
  · rw [same]
    exact ⟨numbers, outCount, dropCount, order, handed⟩
  · rw [split, List.flatMap_append, List.flatMap_cons] at numbers
    obtain ⟨entry, rfl, next | next⟩ | ⟨number, rfl, next⟩ | ⟨number, rfl, next⟩ := cases
    · rw [next]
      refine ⟨?_, outCount, dropCount, ?_, handed⟩
      · refine List.Perm.trans ?_ numbers
        rw [List.perm_iff_count]
        intro other
        simp only [List.map_append, List.map_cons, List.map_nil, List.flatMap_append,
          List.flatMap_cons, LoggingCall.pending, List.count_append, List.count_nil]
        omega
      · rw [← order]
        exact (List.append_assoc ..).symm
    · rw [next]
      refine ⟨?_, outCount, dropCount, order, handed⟩
      rwa [List.flatMap_append, List.flatMap_cons]
    · rw [next]
      refine ⟨?_, outCount, ?_, order, handed⟩
      · refine List.Perm.trans ?_ numbers
        rw [List.perm_iff_count]
        intro other
        simp only [List.flatMap_append, List.flatMap_cons, LoggingCall.pending, List.count_append,
          List.count_nil]
        omega
      · rw [List.length_append, List.length_singleton, dropCount]
    · rw [next]
      refine ⟨?_, outCount, dropCount, order, handed⟩
      rw [List.flatMap_append]
      exact numbers

/-- The thread may move, and flags and times change, where nothing is taken or given. -/
theorem Books.moveTo (books : provider.Books) {thread : ProviderThread ε} {interrupted : Bool}
    {lastFlushTime : Int} {stopCall : StopCall} (taken : thread.taken = provider.thread.taken)
    (held : thread.held = provider.thread.held) :
    { provider with
      thread := thread
      interrupted := interrupted
      lastFlushTime := lastFlushTime
      stopCall := stopCall }.Books where
  numbers := books.numbers
  outCount := books.outCount
  dropCount := books.dropCount
  order := taken ▸ books.order
  handed := held ▸ books.handed

theorem Books.take (books : provider.Books) (taken : provider.thread.taken = [])
    (held : provider.thread.held = []) {empty : AsyncAuditProvider ε} (kept : empty.Books) :
    (provider.take empty).Books := by
  unfold AsyncAuditProvider.take
  cases listed : provider.mQueue with
  | nil => exact kept
  | cons entry rest =>
      refine ⟨books.numbers, books.outCount, books.dropCount, ?_, ?_⟩
      · rw [← books.order, taken, listed, List.append_nil]
        exact List.append_assoc ..
      · rw [← books.handed, held]
        rfl

theorem Books.move (books : provider.Books) (now : Int) (wakes swallows : Bool) :
    (provider.move now wakes swallows).Books := by
  have moved := @books.moveTo
  unfold AsyncAuditProvider.move
  cases thread : provider.thread with
  | polling =>
      rw [thread] at moved
      exact books.take (thread ▸ rfl) (thread ▸ rfl) (moved rfl rfl)
  | deciding =>
      rw [thread] at moved
      dsimp only
      split
      · exact moved rfl rfl
      · exact moved rfl rfl
  | entering =>
      rw [thread] at moved
      dsimp only
      split
      · exact moved rfl rfl
      · exact moved rfl rfl
  | waiting =>
      rw [thread] at moved
      apply books.take (thread ▸ rfl) (thread ▸ rfl)
      split
      · exact moved rfl rfl
      · exact books
  | woken =>
      rw [thread] at moved
      dsimp only
      split
      · exact moved rfl rfl
      · refine (books.moveTo rfl rfl).take ?_ ?_ (moved rfl rfl)
        · exact congrArg ProviderThread.taken thread
        · exact congrArg ProviderThread.held thread
  | counting entry =>
      obtain ⟨numbers, outCount, dropCount, order, handed⟩ := books
      rw [thread] at order handed
      refine ⟨numbers, ?_, dropCount, ?_, ?_⟩
      · rw [List.length_append, List.length_singleton, outCount]
      · rw [← order]
        exact congrArg (· ++ provider.mQueue) (List.append_nil _)
      · rw [← handed]
        exact congrArg (· ++ [entry]) (List.append_nil _).symm
  | handing entry =>
      obtain ⟨numbers, outCount, dropCount, order, handed⟩ := books
      rw [thread] at order handed
      exact ⟨numbers, outCount, dropCount, order, (List.append_nil _).trans handed⟩
  | flushing =>
      rw [thread] at moved
      exact moved rfl rfl
  | leaving =>
      rw [thread] at moved
      exact moved rfl rfl
  | ended => exact books

theorem Books.interrupt (books : provider.Books) : provider.interrupt.Books := by
  unfold AsyncAuditProvider.interrupt
  split
  · split
    · next waiting empty => exact books.moveTo (waiting ▸ rfl) (waiting ▸ rfl)
    · exact books.moveTo rfl rfl
  · exact books

theorem Books.stop (books : provider.Books) : provider.stop.Books := by
  unfold AsyncAuditProvider.stop
  split
  · exact books.moveTo rfl rfl
  · exact books

theorem Books.step (books : provider.Books) (event : Event ε) : (provider.step event).Books := by
  cases event with
  | log event => exact books.log event
  | advance place => exact books.advance place
  | stop => exact books.stop
  | interrupt => exact books.interrupt
  | move now wakes swallows => exact books.move now wakes swallows

/-- An event of the queue is not counted yet. -/
theorem Books.not_accounted (books : provider.Books) {entry : Counted ε}
    (queued : entry ∈ provider.mQueue) : ¬provider.Accounted entry.number := by
  have distinct := (List.Perm.nodup_iff books.numbers).mpr List.nodup_range'
  rw [← books.order, List.map_append, List.append_assoc, List.append_assoc] at distinct
  have listed : entry.number ∈ provider.mQueue.map (·.number) := List.mem_map_of_mem queued
  obtain ⟨-, behind, apart⟩ := List.nodup_append.mp distinct
  rintro (out | dropped)
  · refine apart entry.number ?_ entry.number (List.mem_append_left _ listed) rfl
    rw [List.map_append]
    exact List.mem_append_left _ out
  · obtain ⟨-, -, apart⟩ := List.nodup_append.mp behind
    exact apart entry.number listed entry.number (List.mem_append_left _ dropped) rfl

/-- Every event that was counted in is counted out, counted as dropped, queued or on its way. -/
theorem Books.balance (books : provider.Books) :
    provider.lifeTimeInLogCount = provider.lifeTimeOutLogCount + provider.lifeTimeDropCount +
      provider.mQueue.length + provider.thread.taken.length +
        (provider.calls.flatMap (·.pending)).length := by
  have length := books.numbers.length_eq
  rw [← books.order, List.length_range'] at length
  simp only [List.length_append, List.length_map, books.outCount, books.dropCount] at length
  omega

end Accounts

section Stopping

/-- What is known of the calls of `log` that are over, and of the one of `stop`. -/
structure Calls : Prop where
  returning : ∀ number, .returning number ∈ provider.calls → provider.Settled number
  returned : ∀ number ∈ provider.returned, provider.Settled number
  owed : ∀ number ∈ provider.stopCall.owed, provider.Settled number
  alert : provider.interrupted = true ∨ provider.thread.Alert →
    ∃ owed, provider.stopCall = .interrupted owed
  woken : provider.thread = .woken → ∀ number ∈ provider.stopCall.owed, provider.Accounted number

variable {provider} {next : AsyncAuditProvider ε}

theorem settled_of_prefix (accepted : provider.accepted <+: next.accepted)
    (dropped : provider.dropped <+: next.dropped) {number : Nat}
    (settled : provider.Settled number) : next.Settled number :=
  settled.imp (fun listed => (accepted.map _).subset listed) fun listed => dropped.subset listed

theorem accounted_of_prefix (out : provider.out <+: next.out)
    (dropped : provider.dropped <+: next.dropped) {number : Nat}
    (accounted : provider.Accounted number) : next.Accounted number :=
  accounted.imp (fun listed => (out.map _).subset listed) fun listed => dropped.subset listed

/-- What a step of the thread leaves as it is, and from where it can leave the loop. -/
structure Moves (provider next : AsyncAuditProvider ε) : Prop where
  calls : next.calls = provider.calls
  returned : next.returned = provider.returned
  stopCall : next.stopCall = provider.stopCall
  accepted : next.accepted = provider.accepted
  dropped : next.dropped = provider.dropped
  out : provider.out <+: next.out
  alert : next.interrupted = true ∨ next.thread.Alert →
    provider.interrupted = true ∨ provider.thread.Alert
  woken : next.thread ≠ .woken
  ended : next.thread.LoopEnded → provider.thread.LoopEnded ∨ provider.thread = .woken ∨
    provider.thread = .entering ∧ provider.interrupted = true

/-- A step that leaves the flag and does not leave the loop. -/
theorem moves_of_running {thread : ProviderThread ε} {interrupted : Bool} {lastFlushTime : Int}
    {mQueue handed : List (Counted ε)} (flag : interrupted = true → provider.interrupted = true)
    (calm : ¬thread.Alert) :
    Moves provider { provider with
      thread := thread
      interrupted := interrupted
      lastFlushTime := lastFlushTime
      mQueue := mQueue
      handed := handed } where
  calls := rfl
  returned := rfl
  stopCall := rfl
  accepted := rfl
  dropped := rfl
  out := List.prefix_rfl
  alert warned := warned.elim (fun set => .inl (flag set)) fun alert => absurd alert calm
  woken same := by
    obtain rfl : thread = .woken := same
    exact calm trivial
  ended finished := by
    cases thread with
    | leaving => exact absurd trivial calm
    | ended => exact absurd trivial calm
    | _ => cases finished

theorem Moves.take {state empty : AsyncAuditProvider ε} (kept : Moves provider empty)
    (taken : ∀ entry rest, state.mQueue = entry :: rest →
      Moves provider { state with mQueue := rest, thread := .counting entry }) :
    Moves provider (state.take empty) := by
  unfold AsyncAuditProvider.take
  cases listed : state.mQueue with
  | nil => exact kept
  | cons entry rest => exact taken entry rest listed

theorem moves_refl (calm : provider.thread ≠ .woken) : Moves provider provider :=
  ⟨rfl, rfl, rfl, rfl, rfl, List.prefix_rfl, id, calm, .inl⟩

theorem moves_move (provider : AsyncAuditProvider ε) (now : Int) (wakes swallows : Bool) :
    Moves provider (provider.move now wakes swallows) := by
  have calm := @moves_of_running ε provider
  have swallowed : (provider.interrupted && !swallows) = true → provider.interrupted = true :=
    fun set => (Bool.and_eq_true_iff.mp set).1
  unfold AsyncAuditProvider.move
  cases thread : provider.thread with
  | polling => exact (calm id id).take fun _ _ _ => calm id id
  | deciding =>
      dsimp only
      split
      · exact calm id id
      · exact calm id id
  | entering =>
      dsimp only
      split
      · next flag =>
        exact ⟨rfl, rfl, rfl, rfl, rfl, List.prefix_rfl, fun _ => .inl flag, nofun,
          fun _ => .inr (.inr ⟨thread, flag⟩)⟩
      · exact calm id id
  | waiting =>
      refine Moves.take ?_ fun _ _ _ => calm id id
      split
      · exact calm id id
      · apply moves_refl
        rw [thread]
        nofun
  | woken =>
      have warned : provider.interrupted = true ∨ provider.thread.Alert :=
        .inr (thread ▸ trivial)
      dsimp only
      split
      · exact ⟨rfl, rfl, rfl, rfl, rfl, List.prefix_rfl, fun _ => warned, nofun,
          fun _ => .inr (.inl thread)⟩
      · refine Moves.take ?_ fun _ _ _ => ?_
        · exact ⟨rfl, rfl, rfl, rfl, rfl, List.prefix_rfl, fun _ => warned, nofun, nofun⟩
        · exact ⟨rfl, rfl, rfl, rfl, rfl, List.prefix_rfl, fun _ => warned, nofun, nofun⟩
  | counting entry =>
      exact ⟨rfl, rfl, rfl, rfl, rfl, List.prefix_append _ _,
        fun warned => .inl (warned.elim id False.elim), nofun, nofun⟩
  | handing entry => exact calm swallowed id
  | flushing => exact calm swallowed id
  | leaving =>
      have finished : provider.thread.LoopEnded := thread ▸ trivial
      exact ⟨rfl, rfl, rfl, rfl, rfl, List.prefix_rfl, fun _ => .inr (thread ▸ trivial), nofun,
        fun _ => .inl finished⟩
  | ended =>
      apply moves_refl
      rw [thread]
      nofun

/-- Behind the loop, what was logged before the call of `stop` is out or counted as dropped. -/
def Finished (provider : AsyncAuditProvider ε) : Prop :=
  provider.thread.LoopEnded → ∀ number ∈ provider.stopCall.owed, provider.Accounted number

/-- No wait starts with the interrupt pending while an event that was logged before the stop is
queued. -/
def Allowed (provider : AsyncAuditProvider ε) : Event ε → Prop
  | .move _ _ _ => provider.thread = .entering → provider.interrupted = true →
      ∀ entry ∈ provider.mQueue, entry.number ∉ provider.stopCall.owed
  | _ => True

/-- Calls go on where the thread and the call of `stop` stay as they are. -/
theorem Calls.grow (calls : provider.Calls) (accepted : provider.accepted <+: next.accepted)
    (dropped : provider.dropped <+: next.dropped) (out : next.out = provider.out)
    (stopCall : next.stopCall = provider.stopCall) (thread : next.thread = provider.thread)
    (flag : next.interrupted = provider.interrupted)
    (returning : ∀ number, .returning number ∈ next.calls →
      .returning number ∈ provider.calls ∨ next.Settled number)
    (returned : ∀ number ∈ next.returned,
      number ∈ provider.returned ∨ .returning number ∈ provider.calls) : next.Calls where
  returning number listed := (returning number listed).elim
    (fun before => settled_of_prefix accepted dropped (calls.returning number before)) id
  returned number listed := (returned number listed).elim
    (fun before => settled_of_prefix accepted dropped (calls.returned number before))
    fun before => settled_of_prefix accepted dropped (calls.returning number before)
  owed number listed := by
    rw [stopCall] at listed
    exact settled_of_prefix accepted dropped (calls.owed number listed)
  alert := by
    rw [stopCall, thread, flag]
    exact calls.alert
  woken same number listed := by
    rw [thread] at same
    rw [stopCall] at listed
    exact accounted_of_prefix (out ▸ List.prefix_rfl) dropped (calls.woken same number listed)

theorem Calls.log (calls : provider.Calls) (event : ε) : (provider.log event).Calls := by
  refine calls.grow List.prefix_rfl List.prefix_rfl rfl rfl rfl rfl (fun number listed => ?_)
    fun number listed => .inl listed
  rcases List.mem_append.mp listed with before | last
  · exact .inl before
  · cases List.mem_singleton.mp last

theorem Calls.advance (calls : provider.Calls) (place : Nat) : (provider.advance place).Calls := by
  obtain same | ⟨before, call, after, split, cases⟩ := provider.advance_cases place
  · rw [same]
    exact calls
  · have others : ∀ number (other : LoggingCall ε), .returning number ∈ before ++ other :: after →
        .returning number ∈ provider.calls ∨ LoggingCall.returning number = other := by
      intro number other listed
      rw [split]
      rcases List.mem_append.mp listed with first | later
      · exact .inl (List.mem_append_left _ first)
      · rcases List.mem_cons.mp later with here | behind
        · exact .inr here
        · exact .inl (List.mem_append_right _ (List.mem_cons_of_mem _ behind))
    obtain ⟨entry, rfl, next | next⟩ | ⟨number, rfl, next⟩ | ⟨number, rfl, next⟩ := cases
    · rw [next]
      refine calls.grow (List.prefix_append _ _) List.prefix_rfl rfl rfl rfl rfl
        (fun number listed => (others number _ listed).imp_right fun same => ?_)
        fun number listed => .inl listed
      cases same
      exact .inl (List.mem_map_of_mem (List.mem_append_right _ List.mem_cons_self))
    · rw [next]
      refine calls.grow List.prefix_rfl List.prefix_rfl rfl rfl rfl rfl
        (fun number listed => (others number _ listed).imp_right fun same => ?_)
        fun number listed => .inl listed
      cases same
    · rw [next]
      refine calls.grow List.prefix_rfl (List.prefix_append _ _) rfl rfl rfl rfl
        (fun number listed => (others number _ listed).imp_right fun same => ?_)
        fun number listed => .inl listed
      cases same
      exact .inr (List.mem_append_right _ List.mem_cons_self)
    · rw [next]
      refine calls.grow List.prefix_rfl List.prefix_rfl rfl rfl rfl rfl
        (fun other listed => .inl ?_) fun other listed => ?_
      · rw [split]
        rcases List.mem_append.mp listed with first | later
        · exact List.mem_append_left _ first
        · exact List.mem_append_right _ (List.mem_cons_of_mem _ later)
      · rcases List.mem_append.mp listed with earlier | last
        · exact .inl earlier
        · rw [List.mem_singleton.mp last, split]
          exact .inr (List.mem_append_right _ List.mem_cons_self)

/-- Before `stop` is called the thread is not interrupted. -/
theorem Calls.not_alert (calls : provider.Calls)
    (before : ∀ owed, provider.stopCall ≠ .interrupted owed) :
    ¬(provider.interrupted = true ∨ provider.thread.Alert) := by
  intro alert
  obtain ⟨owed, same⟩ := calls.alert alert
  exact before owed same

theorem Calls.stop (calls : provider.Calls) : provider.stop.Calls := by
  unfold AsyncAuditProvider.stop
  split
  · next before =>
    have calm := calls.not_alert (by rw [before]; nofun)
    exact ⟨calls.returning, calls.returned, calls.returned, fun alert => absurd alert calm,
      fun woken => absurd (.inr (by rw [woken]; trivial)) calm⟩
  · exact calls

theorem Calls.interrupt (books : provider.Books) (calls : provider.Calls) :
    provider.interrupt.Calls := by
  unfold AsyncAuditProvider.interrupt
  split
  · next owed called =>
    have calm := calls.not_alert (by rw [called]; nofun)
    have owing : ∀ number ∈ owed, provider.Settled number := by
      have listed := calls.owed
      rwa [called] at listed
    split
    · next waiting empty =>
      refine ⟨calls.returning, calls.returned, owing, fun _ => ⟨owed, rfl⟩,
        fun _ number listed => ?_⟩
      -- what was accepted is out
      have order := books.order
      rw [waiting, empty, List.append_nil] at order
      have out : provider.out = provider.accepted := (List.append_nil _).symm.trans order
      have settled := owing number listed
      unfold Settled at settled
      rwa [← out] at settled
    · exact ⟨calls.returning, calls.returned, owing, fun _ => ⟨owed, rfl⟩,
        fun woken => absurd (.inr (by rw [woken]; trivial)) calm⟩
  · exact calls

theorem Calls.move (calls : provider.Calls) (now : Int) (wakes swallows : Bool) :
    (provider.move now wakes swallows).Calls := by
  have moves := provider.moves_move now wakes swallows
  have kept : ∀ number, provider.Settled number →
      (provider.move now wakes swallows).Settled number := fun number =>
    settled_of_prefix (moves.accepted ▸ List.prefix_rfl) (moves.dropped ▸ List.prefix_rfl)
  refine ⟨fun number listed => ?_, fun number listed => ?_, fun number listed => ?_,
    fun alert => ?_, fun woken => absurd woken moves.woken⟩
  · exact kept number (calls.returning number (moves.calls ▸ listed))
  · exact kept number (calls.returned number (moves.returned ▸ listed))
  · exact kept number (calls.owed number (moves.stopCall ▸ listed))
  · rw [moves.stopCall]
    exact calls.alert (moves.alert alert)

theorem Calls.step (books : provider.Books) (calls : provider.Calls) (event : Event ε) :
    (provider.step event).Calls := by
  cases event with
  | log event => exact calls.log event
  | advance place => exact calls.advance place
  | stop => exact calls.stop
  | interrupt => exact calls.interrupt books
  | move now wakes swallows => exact calls.move now wakes swallows

/-- Where a wait would start with the interrupt pending, all that is owed is out exactly when
none of it is queued. -/
theorem owed_accounted_iff (books : provider.Books) (calls : provider.Calls)
    (thread : provider.thread = .entering) :
    (∀ number ∈ provider.stopCall.owed, provider.Accounted number) ↔
      ∀ entry ∈ provider.mQueue, entry.number ∉ provider.stopCall.owed := by
  constructor
  · intro out entry queued owed
    exact books.not_accounted queued (out entry.number owed)
  · intro unqueued number owed
    have order := books.order
    rw [thread] at order
    rcases calls.owed number owed with accepted | dropped
    · rw [← order, List.map_append, List.mem_append, List.map_append, List.mem_append] at accepted
      rcases accepted with (out | taken) | queued
      · exact .inl out
      · cases taken
      · obtain ⟨entry, listed, rfl⟩ := List.mem_map.mp queued
        exact absurd owed (unqueued entry listed)
    · exact .inr dropped

theorem finished_of_same (finished : provider.Finished)
    (thread : next.thread.LoopEnded → provider.thread.LoopEnded)
    (stopCall : next.stopCall = provider.stopCall) (out : provider.out <+: next.out)
    (dropped : provider.dropped <+: next.dropped) : next.Finished := by
  intro ended number owed
  rw [stopCall] at owed
  exact accounted_of_prefix out dropped (finished (thread ended) number owed)

theorem finished_advance (finished : provider.Finished) (place : Nat) :
    (provider.advance place).Finished := by
  unfold advance
  split
  · exact finished
  · split
    · exact finished_of_same finished id rfl List.prefix_rfl List.prefix_rfl
    · exact finished_of_same finished id rfl List.prefix_rfl List.prefix_rfl
  · exact finished_of_same finished id rfl List.prefix_rfl (List.prefix_append _ _)
  · exact finished_of_same finished id rfl List.prefix_rfl List.prefix_rfl

/-- The loop ends only behind an interrupt. -/
theorem Calls.not_loopEnded (calls : provider.Calls)
    (before : ∀ owed, provider.stopCall ≠ .interrupted owed) : ¬provider.thread.LoopEnded := by
  intro ended
  refine calls.not_alert before (.inr ?_)
  cases thread : provider.thread with
  | leaving => trivial
  | ended => trivial
  | _ =>
      rw [thread] at ended
      cases ended

theorem finished_move_iff (books : provider.Books) (calls : provider.Calls)
    (finished : provider.Finished) (now : Int) (wakes swallows : Bool) :
    (provider.move now wakes swallows).Finished ↔
      provider.Allowed (.move now wakes swallows) := by
  have moves := provider.moves_move now wakes swallows
  by_cases enters : provider.thread = .entering ∧ provider.interrupted = true
  · obtain ⟨thread, flag⟩ := enters
    have left : provider.move now wakes swallows =
        { provider with interrupted := false, thread := .leaving } := by
      unfold AsyncAuditProvider.move
      rw [thread]
      exact if_pos flag
    rw [left]
    change (True → _) ↔ (provider.thread = .entering → provider.interrupted = true → _)
    rw [forall_prop_of_true trivial, forall_prop_of_true thread, forall_prop_of_true flag]
    exact @owed_accounted_iff ε provider books calls thread
  · refine iff_of_true (fun ended number owed => ?_) fun thread flag => absurd ⟨thread, flag⟩ enters
    rw [moves.stopCall] at owed
    refine accounted_of_prefix moves.out (moves.dropped ▸ List.prefix_rfl) ?_
    rcases moves.ended ended with before | woken | entering
    · exact finished before number owed
    · exact calls.woken woken number owed
    · exact absurd entering enters

/-- The steps behind which nothing that was owed is left are the allowed ones. -/
theorem finished_step_iff (books : provider.Books) (calls : provider.Calls)
    (finished : provider.Finished) (event : Event ε) :
    (provider.step event).Finished ↔ provider.Allowed event := by
  cases event with
  | log event => exact iff_of_true finished trivial
  | advance place => exact iff_of_true (finished_advance finished place) trivial
  | stop =>
      refine iff_of_true ?_ trivial
      change provider.stop.Finished
      unfold AsyncAuditProvider.stop
      split
      · next before =>
        intro ended
        exact absurd ended (calls.not_loopEnded (by rw [before]; nofun))
      · exact finished
  | interrupt =>
      refine iff_of_true ?_ trivial
      change provider.interrupt.Finished
      unfold AsyncAuditProvider.interrupt
      split
      · next owed called =>
        have running := calls.not_loopEnded (by rw [called]; nofun)
        split
        · nofun
        · exact fun ended => absurd ended running
      · exact finished
  | move now wakes swallows => exact finished_move_iff books calls finished now wakes swallows

end Stopping

section Runs

/-- While no call of `log` and no dequeue is half done the counts agree; what was counted out
was handed over or is next, once and in the order of acceptance; and behind the loop what was
logged before the stop is counted out or counted as dropped. -/
structure Accounts (provider : AsyncAuditProvider ε) : Prop where
  balance : provider.calls.flatMap (·.pending) = [] → provider.thread.taken = [] →
    provider.lifeTimeInLogCount = provider.lifeTimeOutLogCount + provider.lifeTimeDropCount +
      provider.mQueue.length
  counted : provider.out.length = provider.lifeTimeOutLogCount
  order : provider.out <+: provider.accepted
  once : (provider.accepted.map (·.number)).Nodup
  handed : provider.handed ++ provider.thread.held = provider.out
  finished : provider.Finished

variable {provider : AsyncAuditProvider ε}

theorem Books.accounts_iff (books : provider.Books) : provider.Accounts ↔ provider.Finished := by
  refine ⟨Accounts.finished, fun finished => ?_⟩
  have distinct := (List.Perm.nodup_iff books.numbers).mpr List.nodup_range'
  rw [List.append_assoc] at distinct
  refine ⟨fun settled whole => ?_, books.outCount, ?_, (List.nodup_append.mp distinct).1,
    books.handed, finished⟩
  · rw [books.balance, settled, whole]
    rfl
  · rw [← books.order, List.append_assoc]
    exact List.prefix_append _ _

/-- Throughout a run the accounts are right exactly when no wait starts with the interrupt
pending while an event that was logged before the stop is queued. -/
theorem forall_accounts_iff (maxQueueSize maxFlushInterval now : Int) (events : List (Event ε)) :
    (∀ done rest, events = done ++ rest →
        ((new maxQueueSize maxFlushInterval now).run done).Accounts) ↔
      ∀ done event rest, events = done ++ event :: rest →
        ((new maxQueueSize maxFlushInterval now).run done).Allowed event := by
  have books : (new maxQueueSize maxFlushInterval now : AsyncAuditProvider ε).Books :=
    ⟨List.Perm.refl _, rfl, rfl, rfl, rfl⟩
  have calls : (new maxQueueSize maxFlushInterval now : AsyncAuditProvider ε).Calls :=
    ⟨nofun, nofun, nofun, fun alert => absurd alert (not_or.mpr ⟨Bool.false_ne_true, id⟩), nofun⟩
  exact @Run.forall_prefix_iff_of_allowed _ _ _
    (fun (provider : AsyncAuditProvider ε) event => ((), step provider event))
    (fun provider => provider.Books ∧ provider.Calls) Accounts (fun _ _ => True) Allowed
    (fun _ event sound _ => ⟨sound.1.step event, sound.2.step sound.1 event⟩)
    (fun _ event sound _ accounts => (sound.1.step event).accounts_iff.trans
      (finished_step_iff sound.1 sound.2 accounts.finished event))
    _ ⟨books, calls⟩ (books.accounts_iff.mpr nofun) _ fun _ _ _ _ => trivial

/-- An event is logged between the poll that finds none and the wait, which the stop
interrupts. -/
def abandonedEvent : List (Event Nat) :=
  [.move 1 false false, .log 1, .advance 0, .advance 0, .move 1 false false, .stop, .interrupt,
    .move 1 false false, .move 1 false false]

/-- The event is left in the queue. -/
theorem not_accounts_abandonedEvent :
    ((new 10 5000 1).run abandonedEvent).mQueue = [⟨1, 1⟩] ∧
      ¬∀ done rest, abandonedEvent = done ++ rest → ((new 10 5000 1).run done).Accounts := by
  refine ⟨by decide, fun always => ?_⟩
  have last := (always abandonedEvent [] (List.append_nil _).symm).finished trivial 1 (by decide)
  rcases last with out | dropped
  · exact absurd out (by decide)
  · exact absurd dropped (by decide)

end Runs

end AsyncAuditProvider

end Ranger

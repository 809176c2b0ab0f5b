import Ranger.Foundation.AssocMap
import Ranger.Foundation.Run

/-! # Overlapping requests

A request reads the committed state, edits what it read, writes its change against the
state that is committed then, and commits. Requests overlap in any way; a change that
excludes one that is written and not committed has to wait.
-/

namespace Foundation.Overlap

universe u

/-- What requests do: the state they share, what they read of it, what they ask for after
the edit, the change that is written for it, and errors. -/
structure Requests (σ ρ ν ω δ ε : Type u) where
  read : σ → ρ → Except ε ν
  edit : ρ → ν → ω
  write : σ → ρ → ω → Except ε δ
  commit : σ → δ → σ
  excludes : δ → δ → Bool

/-- How far a request has come, with all that it found on the way. -/
inductive Phase (ρ ν ω δ : Type u) where
  | read (request : ρ) (view : ν)
  | edited (request : ρ) (view : ν) (call : ω)
  | written (request : ρ) (view : ν) (call : ω) (change : δ)

/-- The steps of requests, which are served at places of their own. -/
inductive Event (ρ : Type u) where
  | read (place : Nat) (request : ρ)
  | edit (place : Nat)
  | write (place : Nat)
  | commit (place : Nat)

/-- The committed state, the requests that are being served, and the answers so far. -/
structure State (σ ρ ν ω δ ε : Type u) where
  committed : σ
  phases : AssocMap Nat (Phase ρ ν ω δ) := ∅
  answered : List (ρ × Except ε Unit) := []

namespace Requests

variable {σ ρ ν ω δ ε : Type u} (requests : Requests σ ρ ν ω δ ε)

/-- A request that nothing overlaps with. -/
def serve (committed : σ) (request : ρ) : Except ε σ := do
  let view ← requests.read committed request
  let change ← requests.write committed request (requests.edit request view)
  return requests.commit committed change

end Requests

namespace State

section Steps

variable {σ ρ ν ω δ ε : Type u} (requests : Requests σ ρ ν ω δ ε) (state : State σ ρ ν ω δ ε)

/-- The requests that have been answered without an error, in the order of the answers. -/
def succeeded : List ρ :=
  state.answered.filterMap fun answer =>
    match answer.2 with
    | .ok () => some answer.1
    | .error _ => none

def goes (place : Nat) (phase : Phase ρ ν ω δ) : State σ ρ ν ω δ ε :=
  { state with phases := state.phases.put place phase }

def answers (place : Nat) (request : ρ) (answer : Except ε Unit) : State σ ρ ν ω δ ε :=
  { state with
    phases := state.phases.remove place
    answered := state.answered ++ [(request, answer)] }

/-- Another request has written a change that excludes this one. -/
def waits (change : δ) : Bool :=
  state.phases.entries.any fun entry =>
    match entry.2 with
    | .written _ _ _ other => requests.excludes change other
    | _ => false

/-- One step. A step that does not come next at its place changes nothing. -/
def step : Event ρ → State σ ρ ν ω δ ε
  | .read place request =>
      match state.phases.get? place with
      | some _ => state
      | none =>
          match requests.read state.committed request with
          | .error error => state.answers place request (.error error)
          | .ok view => state.goes place (.read request view)
  | .edit place =>
      match state.phases.get? place with
      | some (.read request view) =>
          state.goes place (.edited request view (requests.edit request view))
      | _ => state
  | .write place =>
      match state.phases.get? place with
      | some (.edited request view call) =>
          match requests.write state.committed request call with
          | .error error => state.answers place request (.error error)
          | .ok change =>
              if state.waits requests change then state
              else state.goes place (.written request view call change)
      | _ => state
  | .commit place =>
      match state.phases.get? place with
      | some (.written request _ _ change) =>
          { state.answers place request (.ok ()) with
            committed := requests.commit state.committed change }
      | _ => state

/-- The state after a run of steps. -/
def run (events : List (Event ρ)) : State σ ρ ν ω δ ε :=
  Run.final (fun state event => ((), state.step requests event)) state events

/-- A request commits while what it read, and the change that is written for it, are what
they would be now. -/
def CommitsCurrent (event : Event ρ) : Prop :=
  match event with
  | .commit place =>
      match state.phases.get? place with
      | some (.written request view call change) =>
          requests.read state.committed request = .ok view ∧
            requests.write state.committed request call = .ok change
      | _ => True
  | _ => True

instance [DecidableEq ν] [DecidableEq δ] [DecidableEq ε] (event : Event ρ) :
    Decidable (state.CommitsCurrent requests event) := by
  unfold CommitsCurrent
  split
  · split
    · exact inferInstanceAs (Decidable (_ ∧ _))
    · exact instDecidableTrue
  · exact instDecidableTrue

end Steps

section Serial

variable {σ ρ ν ω δ ε : Type u} {requests : Requests σ ρ ν ω δ ε} {state : State σ ρ ν ω δ ε}
  {initial : σ}

/-- What is asked for is the edit of what was read. -/
def EditsWhatItRead (requests : Requests σ ρ ν ω δ ε) : Phase ρ ν ω δ → Prop
  | .read _ _ => True
  | .edited request view call => call = requests.edit request view
  | .written request view call _ => call = requests.edit request view

/-- The committed state is that of the requests that succeeded, served one after another. -/
structure Serial (requests : Requests σ ρ ν ω δ ε) (initial : σ)
    (state : State σ ρ ν ω δ ε) : Prop where
  edits : ∀ place phase, state.phases.get? place = some phase → EditsWhatItRead requests phase
  served : state.succeeded.foldlM requests.serve initial = .ok state.committed

theorem Serial.goes (serial : Serial requests initial state) {place : Nat}
    {phase : Phase ρ ν ω δ} (edits : EditsWhatItRead requests phase) :
    Serial requests initial (state.goes place phase) := by
  refine ⟨fun other found there => ?_, serial.served⟩
  rcases Decidable.em (other = place) with same | another
  · have own := (AssocMap.get?_put state.phases place other phase).symm.trans there
    rw [if_pos same] at own
    cases own
    exact edits
  · have own := (AssocMap.get?_put state.phases place other phase).symm.trans there
    rw [if_neg another] at own
    exact serial.edits other found own

theorem get?_of_answers {place other : Nat} {request : ρ} {answer : Except ε Unit}
    {phase : Phase ρ ν ω δ}
    (there : (state.answers place request answer).phases.get? other = some phase) :
    state.phases.get? other = some phase := by
  have own := (AssocMap.get?_remove state.phases place other).symm.trans there
  split at own
  · cases own
  · exact own

theorem succeeded_answers (place : Nat) (request : ρ) (answer : Except ε Unit) :
    (state.answers place request answer).succeeded =
      state.succeeded ++ (match answer with
        | .ok () => [request]
        | .error _ => []) := by
  unfold succeeded answers
  rw [List.filterMap_append]
  cases answer <;> rfl

/-- An error leaves no trace in the committed state. -/
theorem Serial.error (serial : Serial requests initial state) (place : Nat) (request : ρ)
    (error : ε) : Serial requests initial (state.answers place request (.error error)) := by
  refine ⟨fun other phase there => serial.edits other phase (get?_of_answers there), ?_⟩
  rw [succeeded_answers, List.append_nil]
  exact serial.served

/-- **Commits.** A request that commits what is current is served as if nothing had
overlapped with it. -/
theorem Serial.commit (serial : Serial requests initial state) {place : Nat} {request : ρ}
    {view : ν} {call : ω} {change : δ}
    (there : state.phases.get? place = some (.written request view call change))
    (read : requests.read state.committed request = .ok view)
    (written : requests.write state.committed request call = .ok change) :
    Serial requests initial
      { state.answers place request (.ok ()) with
        committed := requests.commit state.committed change } := by
  have edits : call = requests.edit request view := serial.edits place _ there
  have served : requests.serve state.committed request =
      .ok (requests.commit state.committed change) := by
    unfold Requests.serve
    rw [read]
    change (requests.write state.committed request (requests.edit request view)).bind _ = _
    rw [← edits, written]
    rfl
  refine ⟨fun other phase found => serial.edits other phase
    (@get?_of_answers _ _ _ _ _ _ state place other request (.ok ()) phase found), ?_⟩
  change (state.answers place request (.ok ())).succeeded.foldlM requests.serve initial = _
  rw [succeeded_answers, List.foldlM_append, serial.served]
  change (requests.serve state.committed request).bind pure = _
  rw [served]
  rfl

/-- **Steps.** The committed state stays that of requests served one after another. -/
theorem Serial.step (serial : Serial requests initial state) {event : Event ρ}
    (current : state.CommitsCurrent requests event) :
    Serial requests initial (state.step requests event) := by
  cases event with
  | read place request =>
      simp only [State.step]
      split
      · exact serial
      · split
        · exact serial.error place request _
        · exact serial.goes trivial
  | edit place =>
      simp only [State.step]
      split
      · exact serial.goes rfl
      · exact serial
  | write place =>
      simp only [State.step]
      split
      · next request view call there =>
          have edits : call = requests.edit request view := serial.edits place _ there
          split
          · exact serial.error place request _
          · split
            · exact serial
            · exact serial.goes edits
      · exact serial
  | commit place =>
      simp only [State.step]
      split
      · next request view call change there =>
          simp only [CommitsCurrent, there] at current
          exact serial.commit there current.1 current.2
      · exact serial

/-- **Overlapping requests are serial** in every run in which all commits are current: the
committed state is that of the requests that succeeded, in the order of their commits. -/
theorem serial_of_current {events : List (Event ρ)}
    (current : Run.Throughout (fun state event => ((), State.step requests state event))
      (CommitsCurrent requests) { committed := initial } events) :
    Serial requests initial (run requests { committed := initial } events) := by
  have start : Serial requests initial { committed := initial } :=
    ⟨fun _ _ there => (nomatch there), rfl⟩
  exact Run.forall_prefix_of_allowed (fun _ _ serial allowed => serial.step allowed) start
    current.at_split events [] (List.append_nil events).symm

end Serial

end State

end Foundation.Overlap

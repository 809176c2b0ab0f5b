import Mathlib.Init

/-! # Outcomes of calls that may throw

A call that succeeds is taken apart into the calls it is made of, and a call that
fails leaves the state as it was.
-/

namespace Foundation.Outcome

universe u v

variable {ε : Type u} {α β : Type v}

theorem bind_eq_ok {first : Except ε α} {next : α → Except ε β} {result : β} :
    (first >>= next) = .ok result ↔ ∃ value, first = .ok value ∧ next value = .ok result := by
  cases first with
  | error failure => exact ⟨nofun, nofun⟩
  | ok value =>
      constructor
      · exact fun succeeded => ⟨value, rfl, succeeded⟩
      · intro ⟨_, same, succeeded⟩
        cases same
        exact succeeded

theorem map_eq_ok {first : Except ε α} {read : α → β} {result : β} :
    first.map read = .ok result ↔ ∃ value, first = .ok value ∧ read value = result := by
  cases first with
  | error failure => exact ⟨nofun, nofun⟩
  | ok value => simp only [Except.map, Except.ok.injEq, exists_eq_left']

/-- The state after a call, which is the old one when the call failed. -/
def getState (state : α) : Except ε α → α
  | .ok next => next
  | .error _ => state

@[simp] theorem getState_ok (state next : α) : getState state (.ok next : Except ε α) = next := rfl

@[simp] theorem getState_error (state : α) (failure : ε) :
    getState state (.error failure : Except ε α) = state := rfl

/-- What a successful call keeps, the state after the call has. -/
theorem getState_induction {motive : α → Prop} {state : α} (before : motive state)
    {call : Except ε α} (kept : ∀ next, call = .ok next → motive next) :
    motive (getState state call) := by
  cases call with
  | error failure => exact before
  | ok next => exact kept next rfl

end Foundation.Outcome

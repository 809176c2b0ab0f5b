import Mathlib.Data.List.Basic

/-! # What a loop over a list leaves

A turn of the loop leaves what is read of the state as it is, overwrites it, or adds to
what holds of it. So does the whole loop.
-/

namespace Foundation

universe u v w

variable {α : Type u} {β : Type v} {γ : Type w}

/-- What no turn changes, the loop leaves. -/
theorem foldl_same (turn : β → α → β) (read : β → γ)
    (step : ∀ state element, read (turn state element) = read state) (elements : List α)
    (start : β) : read (elements.foldl turn start) = read start := by
  induction elements generalizing start with
  | nil => rfl
  | cons element rest ih => exact (ih (turn start element)).trans (step start element)

/-- What each turn of a loop adds to, the whole loop adds to. -/
theorem foldl_iff (turn : β → α → β) (holds : β → Prop) {adds : α → Prop}
    (step : ∀ state element, holds (turn state element) ↔ holds state ∨ adds element)
    (elements : List α) (start : β) :
    holds (elements.foldl turn start) ↔ holds start ∨ ∃ element ∈ elements, adds element := by
  induction elements generalizing start with
  | nil => simp only [List.foldl_nil, List.not_mem_nil, false_and, exists_false, or_false]
  | cons element rest ih =>
      rw [List.foldl_cons, ih, step, or_assoc, List.exists_mem_cons_iff]

/-- What each turn of a loop overwrites is left as the last element has it. -/
theorem foldl_overwrites {turn : β → α → β} {read : β → γ} {given : α → γ}
    (step : ∀ state element, read (turn state element) = given element) (elements : List α)
    (start : β) :
    read (elements.foldl turn start) = (elements.getLast?.map given).getD (read start) := by
  induction elements generalizing start with
  | nil => rfl
  | cons first rest ih =>
      rw [List.foldl_cons, ih, List.getLast?_cons, step]
      cases rest.getLast? with
      | none => rfl
      | some last => rfl

end Foundation

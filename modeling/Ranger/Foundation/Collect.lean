import Ranger.Foundation.AssocMap
import Ranger.Foundation.Loop

/-! # Collecting the elements of a list

Collected by a key, the elements make a map from each key to those that have it, in their
order.
-/

namespace Foundation

universe u v

namespace AssocMap

variable {α : Type u} {κ : Type v} [DecidableEq κ] (key : α → κ)

/-- Put one element behind those of its key. -/
def collectOne (collected : AssocMap κ (List α)) (element : α) : AssocMap κ (List α) :=
  collected.put (key element) ((collected.get? (key element)).getD [] ++ [element])

def collect (elements : List α) : AssocMap κ (List α) := elements.foldl (collectOne key) ∅

theorem getD_get?_collectOne (collected : AssocMap κ (List α)) (element : α) (other : κ) :
    ((collectOne key collected element).get? other).getD [] =
      (collected.get? other).getD [] ++ [element].filter (key · = other) := by
  unfold collectOne
  rw [get?_put]
  by_cases same : other = key element
  · subst same
    simp only [↓reduceIte, Option.getD_some, decide_true, List.filter_cons_of_pos,
      List.filter_nil]
  · have other : ¬key element = other := fun equal => same equal.symm
    simp only [same, other, ↓reduceIte, decide_false, Bool.false_eq_true, not_false_eq_true,
      List.filter_cons_of_neg, List.filter_nil, List.append_nil]

private theorem getD_get?_foldl (elements : List α) (collected : AssocMap κ (List α))
    (other : κ) : ((elements.foldl (collectOne key) collected).get? other).getD [] =
      (collected.get? other).getD [] ++ elements.filter (key · = other) := by
  induction elements generalizing collected with
  | nil => rw [List.foldl_nil, List.filter_nil, List.append_nil]
  | cons element rest ih =>
      rw [List.foldl_cons, ih, getD_get?_collectOne, List.append_assoc, ← List.filter_append,
        List.singleton_append]

/-- The elements of a key are collected in their order. -/
theorem getD_get?_collect (elements : List α) (other : κ) :
    ((collect key elements).get? other).getD [] = elements.filter (key · = other) :=
  getD_get?_foldl key elements ∅ other

theorem mem_keys_collectOne {collected : AssocMap κ (List α)} {element : α} {other : κ} :
    other ∈ (collectOne key collected element).keys ↔
      other ∈ collected.keys ∨ key element = other := by
  rw [← isSome_get?_iff, collectOne, get?_put, ← isSome_get?_iff]
  by_cases same : other = key element
  · simp only [same, ↓reduceIte, Option.isSome_some, or_true]
  · have different : ¬key element = other := fun equal => same equal.symm
    simp only [same, different, ↓reduceIte, or_false]

theorem mem_keys_collect {elements : List α} {other : κ} :
    other ∈ (collect key elements).keys ↔ ∃ element ∈ elements, key element = other :=
  (foldl_iff (collectOne key) (other ∈ ·.keys) (fun _ _ => mem_keys_collectOne key) elements
    ∅).trans (or_iff_right List.not_mem_nil)

end AssocMap

end Foundation

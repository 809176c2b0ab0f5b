import Mathlib.Data.List.Forall2

/-! # Loops over stateful items that may stop early

A loop hands an accumulator to one item after another until the accumulator says
that it is settled. Items may change as they are used. The rule below takes what
one item does to an observation of the accumulator to the whole loop.
-/

namespace Foundation.Scan

universe u v

variable {α : Type u} {σ : Type v}

/-- Use one item after another until the accumulator is settled; the items are
returned as the loop leaves them. -/
def scan (step : α → σ → σ × α) (done : σ → Bool) : List α → σ → σ × List α
  | [], state => (state, [])
  | item :: rest, state =>
      let (state, item) := step item state
      if done state then (state, item :: rest)
      else
        let (state, rest) := scan step done rest state
        (state, item :: rest)

variable {step : α → σ → σ × α} {done : σ → Bool} {inv : σ → Prop} {good : α → Prop}
  {kept : α → α → Prop}

/-- An invariant of the accumulator survives the loop, and every item is left in
the relation one use, or none, leaves it in. -/
theorem scan_invariant
    (steps : ∀ item state, good item → inv state →
      inv (step item state).1 ∧ kept item (step item state).2)
    (unused : ∀ item, good item → kept item item) :
    ∀ (items : List α) (state : σ), (∀ item ∈ items, good item) → inv state →
      inv (scan step done items state).1 ∧
        List.Forall₂ kept items (scan step done items state).2 := by
  intro items
  induction items with
  | nil => exact fun state _ holds => ⟨holds, List.Forall₂.nil⟩
  | cons item rest ih =>
      intro state allGood holds
      obtain ⟨next, used⟩ := steps item state (allGood item List.mem_cons_self) holds
      have restGood : ∀ other ∈ rest, good other :=
        fun other member => allGood other (List.mem_cons_of_mem _ member)
      unfold scan
      by_cases settled : done (step item state).1 = true
      · simp only [settled, ↓reduceIte]
        refine ⟨next, List.Forall₂.cons used ?_⟩
        exact List.forall₂_same.mpr fun other member => unused other (restGood other member)
      · simp only [settled, Bool.false_eq_true, ↓reduceIte]
        obtain ⟨last, others⟩ := ih (step item state).1 restGood next
        exact ⟨last, List.Forall₂.cons used others⟩

/-- An item the loop leaves comes from one it was given. -/
theorem exists_of_mem {β : Type v} {kept : α → β → Prop} {items : List α} {left : List β}
    (pairs : List.Forall₂ kept items left) {item : β} (member : item ∈ left) :
    ∃ before ∈ items, kept before item := by
  induction pairs with
  | nil => nomatch member
  | cons head _ ih =>
      obtain rfl | later := List.mem_cons.mp member
      · exact ⟨_, List.mem_cons_self, head⟩
      · obtain ⟨before, listed, related⟩ := ih later
        exact ⟨before, List.mem_cons_of_mem _ listed, related⟩

/-- **What a loop observes.** If each item adds its own hit to an observation,
and only a positive observation settles the loop, the loop observes whether some
item hits. -/
theorem observe_scan {observe : σ → Bool} {hit : α → Bool}
    (steps : ∀ item state, good item → inv state →
      inv (step item state).1 ∧ observe (step item state).1 = (observe state || hit item))
    (settles : ∀ state, inv state → done state = true → observe state = true) :
    ∀ (items : List α) (state : σ), (∀ item ∈ items, good item) → inv state →
      observe (scan step done items state).1 = (observe state || items.any hit) := by
  intro items
  induction items with
  | nil => exact fun state _ _ => (Bool.or_false _).symm
  | cons item rest ih =>
      intro state allGood holds
      obtain ⟨next, observed⟩ := steps item state (allGood item List.mem_cons_self) holds
      have restGood : ∀ other ∈ rest, good other :=
        fun other member => allGood other (List.mem_cons_of_mem _ member)
      unfold scan
      rw [List.any_cons, ← Bool.or_assoc, ← observed]
      by_cases settled : done (step item state).1 = true
      · simp only [settled, ↓reduceIte, settles _ next settled, Bool.true_or]
      · simp only [settled, Bool.false_eq_true, ↓reduceIte]
        exact ih (step item state).1 restGood next

/-- A loop that stops at the first item to pass a test answers whether one passes. -/
theorem scan_test (test : α → Bool × α) (items : List α) :
    (scan (fun item (_ : Bool) => test item) id items false).1 =
      items.any fun item => (test item).1 := by
  induction items with
  | nil => rfl
  | cons item rest ih =>
      unfold scan
      rw [List.any_cons]
      cases passed : (test item).1 with
      | true => simp [passed]
      | false => simp [passed, ih]

end Foundation.Scan

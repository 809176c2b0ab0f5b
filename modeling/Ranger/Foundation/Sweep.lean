import Mathlib.Algebra.Group.Basic
import Mathlib.Algebra.Group.Int.Defs

/-! # Deleting elements inside an index loop

A loop over the indexes of a list edits each element and deletes those that are void
then. The number of elements is kept beside the list, and after a deletion both it and
the index are set back by hand.
-/

namespace Foundation.Sweep

universe u

variable {α : Type u}

/-- The variables of the loop. -/
structure Cursor (α : Type u) where
  items : List α
  index : Int
  size : Int
  changed : Bool

variable (edit : α → α × Bool) (void : α → Bool)

/-- The body of the loop; it throws when no element has the index. -/
def turn (cursor : Cursor α) : Option (Cursor α) :=
  if cursor.index < 0 then none
  else
    match cursor.items[cursor.index.toNat]? with
    | none => none
    | some item =>
        let (edited, updated) := edit item
        let items := cursor.items.set cursor.index.toNat edited
        if void edited then
          some ⟨items.eraseIdx cursor.index.toNat, cursor.index - 1, cursor.size - 1, true⟩
        else some ⟨items, cursor.index, cursor.size, cursor.changed || updated⟩

/-- Each turn comes one element closer to the end. -/
theorem turn_distance {cursor next : Cursor α} (turned : turn edit void cursor = some next) :
    next.size - next.index = cursor.size - cursor.index := by
  unfold turn at turned
  split at turned
  · cases turned
  · cases found : cursor.items[cursor.index.toNat]? with
    | none => simp only [found, reduceCtorEq] at turned
    | some item =>
        cases gone : void (edit item).1 with
        | true =>
            simp only [found, gone, ↓reduceIte, Option.some.injEq] at turned
            subst turned
            exact sub_sub_sub_cancel_right ..
        | false =>
            simp only [found, gone, Bool.false_eq_true, ↓reduceIte, Option.some.injEq] at turned
            subst turned
            rfl

/-- `for(; i < numOfItems; i++)` -/
def loop (cursor : Cursor α) : Option (Cursor α) :=
  if cursor.index < cursor.size then
    match _turned : turn edit void cursor with
    | none => none
    | some next => loop { next with index := next.index + 1 }
  else some cursor
termination_by (cursor.size - cursor.index).toNat
decreasing_by
  have distance := turn_distance edit void _turned
  omega

/-- The list after the loop, and whether it was changed. -/
def sweep (items : List α) : Option (List α × Bool) :=
  (loop edit void ⟨items, 0, items.length, false⟩).map fun cursor => (cursor.items, cursor.changed)

section Loop

variable {edit void}

theorem loop_of_not_lt {cursor : Cursor α} (done : ¬cursor.index < cursor.size) :
    loop edit void cursor = some cursor := by
  unfold loop
  rw [if_neg done]

theorem loop_of_turn {cursor next : Cursor α} (more : cursor.index < cursor.size)
    (turned : turn edit void cursor = some next) :
    loop edit void cursor = loop edit void { next with index := next.index + 1 } := by
  conv => lhs; unfold loop
  rw [if_pos more]
  split
  · next failed => rw [turned] at failed; cases failed
  · next other same =>
      rw [turned, Option.some.injEq] at same
      rw [same]

/-- The body of the loop at an element: it is edited, and gone if it is void then. -/
theorem turn_eq (before rest : List α) (item : α) (changed : Bool) :
    turn edit void
        ⟨before ++ item :: rest, before.length, (before ++ item :: rest).length, changed⟩ =
      some (if void (edit item).1 then
          ⟨before ++ rest, before.length - 1, (before ++ item :: rest).length - 1, true⟩
        else ⟨before ++ (edit item).1 :: rest, before.length, (before ++ item :: rest).length,
          changed || (edit item).2⟩) := by
  have index : ¬(before.length : Int) < 0 := by omega
  have found : (before ++ item :: rest)[before.length]? = some item := by simp
  have written : (before ++ item :: rest).set before.length (edit item).1 =
      before ++ (edit item).1 :: rest := by simp
  have erased : (before ++ (edit item).1 :: rest).eraseIdx before.length = before ++ rest := by
    rw [List.eraseIdx_append_of_length_le (Nat.le_refl _), Nat.sub_self, List.eraseIdx_cons_zero]
  simp only [turn, index, ↓reduceIte, Int.toNat_natCast, found, written, erased]
  split
  · rfl
  · rfl

/-- What is left of the elements a loop has not come to yet. -/
def swept (edit : α → α × Bool) (void : α → Bool) (items : List α) : List α :=
  (items.map fun item => (edit item).1).filter (!void ·)

theorem loop_eq (before rest : List α) (changed : Bool) :
    loop edit void ⟨before ++ rest, before.length, (before ++ rest).length, changed⟩ =
      some ⟨before ++ swept edit void rest, (before ++ swept edit void rest).length,
        (before ++ swept edit void rest).length,
        changed || rest.any fun item => (edit item).2 || void (edit item).1⟩ := by
  induction rest generalizing before changed with
  | nil =>
      rw [loop_of_not_lt (by simp)]
      simp [swept]
  | cons item rest ih =>
      have more : (before.length : Int) < (before ++ item :: rest).length := by
        rw [List.length_append, List.length_cons]
        omega
      rw [loop_of_turn more (turn_eq before rest item changed)]
      cases gone : void (edit item).1 with
      | true =>
          have next : (⟨before ++ rest, (before.length : Int) - 1 + 1,
              ((before ++ item :: rest).length : Int) - 1, true⟩ : Cursor α) =
              ⟨before ++ rest, before.length, (before ++ rest).length, true⟩ := by
            simp
            omega
          simp only [↓reduceIte]
          rw [next, ih]
          simp [swept, gone]
      | false =>
          have next : (⟨before ++ (edit item).1 :: rest, (before.length : Int) + 1,
              ((before ++ item :: rest).length : Int), changed || (edit item).2⟩ : Cursor α) =
              ⟨before ++ [(edit item).1] ++ rest, (before ++ [(edit item).1]).length,
                (before ++ [(edit item).1] ++ rest).length, changed || (edit item).2⟩ := by
            simp
          simp only [Bool.false_eq_true, ↓reduceIte]
          rw [next, ih]
          simp [swept, gone, Bool.or_assoc]

/-- The loop skips no element: it edits all and keeps those that are not void then. -/
theorem sweep_eq (items : List α) :
    sweep edit void items =
      some (swept edit void items,
        items.any fun item => (edit item).2 || void (edit item).1) := by
  have all := @loop_eq _ edit void [] items false
  simp only [List.nil_append, List.length_nil, Int.natCast_zero, Bool.false_or] at all
  unfold sweep
  rw [all]
  rfl

/-- A loop leaves a list alone if it edits no element and deletes none. -/
theorem swept_eq_self_iff {items : List α} :
    swept edit void items = items ↔ ∀ item ∈ items, (edit item).1 = item ∧ void item = false := by
  constructor
  · intro same
    have length : (swept edit void items).length =
        (items.map fun item => (edit item).1).length := by
      rw [same, List.length_map]
    have kept := List.length_filter_eq_length_iff.mp length
    have edited : (items.map fun item => (edit item).1) = items.map id := by
      rw [List.map_id, ← List.filter_eq_self.mpr kept]
      exact same
    intro item member
    have unedited := List.map_inj_left.mp edited item member
    have passed := kept _ (List.mem_map.mpr ⟨item, member, rfl⟩)
    rw [unedited] at passed
    exact ⟨unedited, by simpa using passed⟩
  · intro alone
    have edited : (items.map fun item => (edit item).1) = items.map id :=
      List.map_inj_left.mpr fun item member => (alone item member).1
    unfold swept
    rw [edited, List.map_id]
    exact List.filter_eq_self.mpr fun item member => by
      rw [(alone item member).2, Bool.not_false]

end Loop

end Foundation.Sweep

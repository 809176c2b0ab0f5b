import Mathlib.Data.List.Nodup
import Ranger.Foundation.Loop

/-! # Checks that report

A check gives a verdict and the failures it reports. The checks of an object are all
made, so that one failure does not hide another. A pass over named objects reports
those without a name and those whose name an earlier one has.
-/

namespace Foundation

universe u v w

structure Report (ε : Type u) where
  valid : Bool := true
  failures : List ε := []

namespace Report

section Compose

variable {ε : Type u} {α : Type v}

def accept : Report ε := {}

def reject (failure : ε) : Report ε := ⟨false, [failure]⟩

/-- Both checks are made. -/
def both (first second : Report ε) : Report ε :=
  ⟨first.valid && second.valid, first.failures ++ second.failures⟩

def all (check : α → Report ε) (items : List α) : Report ε :=
  items.foldr (fun item rest => (check item).both rest) accept

@[simp] theorem valid_accept : (accept : Report ε).valid = true := rfl

@[simp] theorem failures_accept : (accept : Report ε).failures = [] := rfl

@[simp] theorem valid_reject (failure : ε) : (reject failure).valid = false := rfl

@[simp] theorem failures_reject (failure : ε) : (reject failure).failures = [failure] := rfl

@[simp] theorem valid_both (first second : Report ε) :
    (first.both second).valid = true ↔ first.valid = true ∧ second.valid = true :=
  Bool.and_eq_true_iff

@[simp] theorem failures_both (first second : Report ε) :
    (first.both second).failures = first.failures ++ second.failures := rfl

theorem valid_all {check : α → Report ε} {items : List α} :
    (all check items).valid = true ↔ ∀ item ∈ items, (check item).valid = true := by
  induction items with
  | nil => simp only [all, List.foldr_nil, valid_accept, List.not_mem_nil, false_implies,
      implies_true]
  | cons item rest ih =>
      rw [List.forall_mem_cons, ← ih]
      exact valid_both _ _

theorem mem_failures_all {check : α → Report ε} {items : List α} {failure : ε} :
    failure ∈ (all check items).failures ↔ ∃ item ∈ items, failure ∈ (check item).failures := by
  induction items with
  | nil => simp only [all, List.foldr_nil, failures_accept, List.not_mem_nil, false_and,
      exists_false]
  | cons item rest ih =>
      rw [List.exists_mem_cons_iff, ← ih]
      exact List.mem_append

end Compose

section Names

variable {ε : Type u} {α : Type v} {κ : Type w} [DecidableEq κ] (key : α → Option κ)
  (unnamed repeated : α → ε) (inside : α → Report ε)

/-- The check of one name against those seen before it. -/
def name (seen : List κ) (item : α) : Report ε :=
  match key item with
  | none => reject (unnamed item)
  | some name => if name ∈ seen then reject (repeated item) else accept

def seenWith (seen : List κ) (item : α) : List κ :=
  match key item with
  | none => seen
  | some name => if name ∈ seen then seen else name :: seen

/-- One pass over named objects. -/
def names : List κ → List α → Report ε
  | _, [] => accept
  | seen, item :: rest =>
      ((name key unnamed repeated seen item).both (inside item)).both
        (names (seenWith key seen item) rest)

variable {key unnamed repeated inside}

theorem mem_seenWith {seen : List κ} {item : α} {other : κ} :
    other ∈ seenWith key seen item ↔ other ∈ seen ∨ key item = some other := by
  unfold seenWith
  cases key item with
  | none => simp only [reduceCtorEq, or_false]
  | some own =>
      simp only [Option.some.injEq]
      by_cases before : own ∈ seen
      · rw [if_pos before]
        exact ⟨.inl, fun listed => listed.elim id fun same => same ▸ before⟩
      · rw [if_neg before, List.mem_cons, or_comm, eq_comm]

/-- The names seen in a pass are those of the objects that have one. -/
theorem mem_foldl_seenWith {seen : List κ} {items : List α} {other : κ} :
    other ∈ items.foldl (seenWith key) seen ↔
      other ∈ seen ∨ ∃ item ∈ items, key item = some other :=
  foldl_iff (seenWith key) (other ∈ ·) (fun _ _ => mem_seenWith) items seen

theorem valid_name {seen : List κ} {item : α} :
    (name key unnamed repeated seen item).valid = true ↔
      ∃ own, key item = some own ∧ own ∉ seen := by
  unfold name
  cases key item with
  | none => simp only [valid_reject, Bool.false_eq_true, reduceCtorEq, false_and, exists_false]
  | some own =>
      by_cases before : own ∈ seen
      · simp only [before, ↓reduceIte, valid_reject, Bool.false_eq_true, Option.some.injEq,
          exists_eq_left', not_true_eq_false]
      · simp only [before, ↓reduceIte, valid_accept, Option.some.injEq, exists_eq_left',
          not_false_eq_true]

theorem mem_failures_name {seen : List κ} {item : α} {failure : ε} :
    failure ∈ (name key unnamed repeated seen item).failures ↔
      (key item = none ∧ failure = unnamed item) ∨
        ∃ own ∈ seen, key item = some own ∧ failure = repeated item := by
  unfold name
  cases key item with
  | none => simp only [failures_reject, List.mem_singleton, true_and, reduceCtorEq, false_and,
      and_false, exists_false, or_false]
  | some own =>
      by_cases before : own ∈ seen
      · simp [before]
      · simp only [before, ↓reduceIte, failures_accept, List.not_mem_nil, reduceCtorEq, false_and,
          Option.some.injEq, false_or, false_iff, not_exists, not_and]
        intro other listed same
        exact absurd (same ▸ listed) before

/-- A pass accepts objects that all have names, no two of them the same. -/
theorem valid_names {seen : List κ} {items : List α} :
    (names key unnamed repeated inside seen items).valid = true ↔
      (∀ item ∈ items, (inside item).valid = true) ∧ (∀ item ∈ items, (key item).isSome) ∧
        (items.map key).Nodup ∧ ∀ item ∈ items, ∀ own ∈ key item, own ∉ seen := by
  induction items generalizing seen with
  | nil => simp [names]
  | cons item rest ih =>
      simp only [names, valid_both, ih, valid_name, mem_seenWith, List.forall_mem_cons,
        List.map_cons, List.nodup_cons, List.mem_map, not_exists, not_and, not_or]
      constructor
      · rintro ⟨⟨⟨own, named, fresh⟩, fine⟩, insides, named', distinct, apart⟩
        refine ⟨⟨fine, insides⟩, ⟨by rw [named]; rfl, named'⟩, ⟨?_, distinct⟩, ?_, ?_⟩
        · intro other listed same
          rw [named] at same
          exact (apart other listed own same).2 named
        · intro other same
          rw [named, Option.mem_some_iff] at same
          exact same ▸ fresh
        · exact fun other listed own same => (apart other listed own same).1
      · rintro ⟨⟨fine, insides⟩, ⟨isNamed, named'⟩, ⟨alone, distinct⟩, fresh, apart⟩
        obtain ⟨own, named⟩ := Option.isSome_iff_exists.mp isNamed
        refine ⟨⟨⟨own, named, fresh own named⟩, fine⟩, insides, named', distinct, ?_⟩
        intro other listed own' same
        exact ⟨apart other listed own' same,
          fun equal => alone other listed (same.trans equal.symm)⟩

private theorem exists_cut_cons {motive : List α → α → Prop} {item : α} {rest : List α} :
    (∃ before other after, item :: rest = before ++ other :: after ∧ motive before other) ↔
      motive [] item ∨
        ∃ before other after, rest = before ++ other :: after ∧ motive (item :: before) other := by
  constructor
  · rintro ⟨before, other, after, cut, found⟩
    cases before with
    | nil =>
        obtain ⟨rfl, rfl⟩ := List.cons.inj cut
        exact .inl found
    | cons first before =>
        obtain ⟨rfl, tail⟩ := List.cons.inj cut
        exact .inr ⟨before, other, after, tail, found⟩
  · rintro (found | ⟨before, other, after, rfl, found⟩)
    · exact ⟨[], item, rest, rfl, found⟩
    · exact ⟨item :: before, other, after, rfl, found⟩

/-- What a pass reports: objects without a name, repeated names, and what is inside. -/
theorem mem_failures_names {seen : List κ} {items : List α} {failure : ε} :
    failure ∈ (names key unnamed repeated inside seen items).failures ↔
      (∃ item ∈ items, failure ∈ (inside item).failures) ∨
      (∃ item ∈ items, key item = none ∧ failure = unnamed item) ∨
      ∃ before item after, items = before ++ item :: after ∧
        ∃ own ∈ before.foldl (seenWith key) seen,
          key item = some own ∧ failure = repeated item := by
  induction items generalizing seen with
  | nil =>
      simp only [names, failures_accept, List.not_mem_nil, false_and, exists_false, false_or,
        false_iff, not_exists, not_and]
      intro before item after split
      exact absurd split.symm (List.append_ne_nil_of_right_ne_nil _ (List.cons_ne_nil _ _))
  | cons item rest ih =>
      simp only [names, failures_both, List.mem_append, ih, mem_failures_name,
        List.exists_mem_cons_iff]
      rw [exists_cut_cons]
      refine Iff.of_eq ?_
      ac_rfl

end Names

end Report

end Foundation

import Mathlib.Data.List.Induction
import Mathlib.Data.List.Perm.Basic
import Ranger.Foundation.Outcome
import Ranger.Foundation.Table

/-! # Bringing a table in line with a list of children

A child that carries the id of a row is written over that row, another one gets a
new row, and the rows no child carries the id of are removed. A row matched twice
is what keeps the table from holding the children one by one.
-/

namespace Foundation.Reconcile

universe u v w

variable {ν : Type u} {ρ : Type v} {ε : Type w} (idOf : ν → Option Int)

/-- The row a child is matched with. -/
def match? (known : List Int) (child : ν) : Option Int := (idOf child).filter known.contains

/-- The number of children that are matched with no row. -/
def added (known : List Int) (given : List ν) : Nat :=
  given.countP fun child => (match? idOf known child).isNone

/-- The ids the children come to have: those of their rows, and the next ones for the others. -/
def assigned (known : List Int) : Int → List ν → List (Int × ν)
  | _, [] => []
  | next, child :: rest =>
      match match? idOf known child with
      | some id => (id, child) :: assigned known next rest
      | none => (next, child) :: assigned known (next + 1) rest

/-- The id of a child behind others. -/
def idAt (known : List Int) (next : Int) (before : List ν) (child : ν) : Int :=
  match match? idOf known child with
  | some id => id
  | none => next + added idOf known before

/-- No row is matched twice. -/
def Distinct (known : List Int) (given : List ν) : Prop :=
  (given.filterMap (match? idOf known)).Nodup

instance (known : List Int) (given : List ν) : Decidable (Distinct idOf known given) :=
  inferInstanceAs (Decidable (List.Nodup _))

section Loops

variable (known : List Int) (update : ν → ρ → Except ε ρ)
  (create : ν → Table ρ → Except ε (Table ρ))

/-- Write a child over its row, or create one. -/
def mergeChild (table : Table ρ) (child : ν) : Except ε (Table ρ) :=
  match match? idOf known child with
  | some id =>
      match table.get? id with
      | some row => (update child row).map (table.replace id)
      | none => .ok table
  | none => create child table

def merge (table : Table ρ) (given : List ν) : Except ε (Table ρ) :=
  given.foldlM (mergeChild idOf known update create) table

/-- The rows no child carries the id of. -/
def missing (given : List ν) : List Int :=
  known.filter fun id => !given.any fun child => idOf child == some id

/-- The row a child is written over. -/
def rowOf (table : Table ρ) (child : ν) : Option ρ := (idOf child).bind table.get?

/-- Delete the missing rows, one after the other. -/
def prune {σ : Type v} (delete : σ → Int → Except ε σ) (given : List ν) (state : σ) :
    Except ε σ :=
  (missing idOf known given).foldlM delete state

end Loops

variable {idOf} {known : List Int} {next : Int}

theorem match?_eq_some_iff {child : ν} {id : Int} :
    match? idOf known child = some id ↔ idOf child = some id ∧ id ∈ known := by
  unfold match?
  rw [Option.filter_eq_some_iff, List.contains_iff_mem]

@[simp] theorem match?_nil (child : ν) : match? idOf [] child = none := by
  unfold match?
  cases idOf child with
  | none => rfl
  | some id => rfl

theorem distinct_nil (given : List ν) : Distinct idOf [] given := by
  unfold Distinct
  rw [List.filterMap_eq_nil_iff.mpr fun child _ => match?_nil child]
  exact List.nodup_nil

@[simp] theorem added_append (before after : List ν) :
    added idOf known (before ++ after) = added idOf known before + added idOf known after :=
  List.countP_append

theorem assigned_concat (before : List ν) (child : ν) :
    assigned idOf known next (before ++ [child]) =
      assigned idOf known next before ++ [(idAt idOf known next before child, child)] := by
  induction before generalizing next with
  | nil =>
      cases matched : match? idOf known child with
      | some id => simp only [assigned, idAt, matched, List.nil_append]
      | none => simp [assigned, idAt, added, matched]
  | cons first rest ih =>
      rw [List.cons_append]
      cases matched : match? idOf known first with
      | some id =>
          simp only [assigned, matched, ih, idAt, added, List.countP_cons, Option.isNone_some,
            Bool.false_eq_true, ↓reduceIte, Nat.add_zero, List.cons_append]
      | none =>
          have later : idAt idOf known (next + 1) rest child =
              idAt idOf known next (first :: rest) child := by
            unfold idAt added
            rw [List.countP_cons_of_pos (by simp [matched])]
            cases match? idOf known child with
            | some id => rfl
            | none =>
                dsimp only
                push_cast
                omega
          simp only [assigned, matched, ih, later, List.cons_append]

omit idOf known next in
/-- A child of a longer list is its last one, or one of the list before it. -/
theorem concat_eq_append_cons_iff {done before after : List ν} {last child : ν} :
    done ++ [last] = before ++ child :: after ↔
      (after = [] ∧ done = before ∧ last = child) ∨
        ∃ others, after = others ++ [last] ∧ done = before ++ child :: others := by
  constructor
  · intro split
    rcases List.eq_nil_or_concat after with rfl | ⟨others, final, rfl⟩
    · obtain ⟨same, whole⟩ := List.append_inj' split rfl
      cases whole
      exact .inl ⟨rfl, same, rfl⟩
    · have longer : before ++ child :: (others ++ [final]) =
          (before ++ child :: others) ++ [final] := by simp
      rw [List.concat_eq_append, longer] at split
      obtain ⟨same, whole⟩ := List.append_inj' split rfl
      cases whole
      exact .inr ⟨others, List.concat_eq_append, same⟩
  · rintro (⟨rfl, rfl, rfl⟩ | ⟨others, rfl, rfl⟩)
    · rfl
    · simp

/-- A child has the id it is given where it stands. -/
theorem mem_assigned {id : Int} {child : ν} {given : List ν} :
    (id, child) ∈ assigned idOf known next given ↔
      ∃ before after, given = before ++ child :: after ∧
        id = idAt idOf known next before child := by
  induction given using List.reverseRecOn with
  | nil => simp [assigned]
  | append_singleton done last ih =>
      rw [assigned_concat, List.mem_append, List.mem_singleton, ih]
      simp only [concat_eq_append_cons_iff]
      constructor
      · rintro (⟨before, after, rfl, same⟩ | same)
        · exact ⟨before, after ++ [last], .inr ⟨after, rfl, rfl⟩, same⟩
        · cases same
          exact ⟨done, [], .inl ⟨rfl, rfl, rfl⟩, rfl⟩
      · rintro ⟨before, after, ⟨rfl, rfl, rfl⟩ | ⟨others, rfl, split⟩, same⟩
        · exact .inr (Prod.ext same rfl)
        · exact .inl ⟨before, others, split, same⟩

/-- The ids in use are those of matched rows and the next ones. -/
theorem mem_ids_assigned {given : List ν} {id : Int} :
    id ∈ (assigned idOf known next given).map Prod.fst ↔
      id ∈ given.filterMap (match? idOf known) ∨
        (next ≤ id ∧ id < next + added idOf known given) := by
  induction given generalizing next with
  | nil => simp [assigned, added]
  | cons child rest ih =>
      cases matched : match? idOf known child with
      | some found =>
          have same : added idOf known (child :: rest) = added idOf known rest :=
            List.countP_cons_of_neg (by simp [matched])
          simp only [assigned, matched, List.map_cons, List.mem_cons, ih, same,
            List.filterMap_cons_some matched, or_assoc]
      | none =>
          have more : added idOf known (child :: rest) = added idOf known rest + 1 :=
            List.countP_cons_of_pos (by simp [matched])
          simp only [assigned, matched, List.map_cons, List.mem_cons, ih, more,
            List.filterMap_cons_none matched]
          push_cast
          constructor
          · rintro (rfl | old | fresh)
            · exact .inr (by omega)
            · exact .inl old
            · exact .inr (by omega)
          · rintro (old | fresh)
            · exact .inr (.inl old)
            · by_cases first : id = next
              · exact .inl first
              · exact .inr (.inr (by omega))

/-- The ids are different exactly when no row is matched twice. -/
theorem nodup_assigned_iff (below : ∀ id ∈ known, id < next) {given : List ν} :
    ((assigned idOf known next given).map Prod.fst).Nodup ↔ Distinct idOf known given := by
  unfold Distinct
  induction given generalizing next with
  | nil => simp [assigned]
  | cons child rest ih =>
      cases matched : match? idOf known child with
      | some found =>
          have used := (match?_eq_some_iff.mp matched).2
          have old : ¬ (next ≤ found ∧ found < next + added idOf known rest) :=
            fun fresh => absurd (below found used) (by omega)
          simp only [assigned, matched, List.map_cons, List.nodup_cons, ih below,
            List.filterMap_cons_some matched, mem_ids_assigned, old, or_false]
      | none =>
          have fresh : next ∉ (assigned idOf known (next + 1) rest).map Prod.fst := by
            rw [mem_ids_assigned]
            rintro (listed | later)
            · obtain ⟨other, _, found⟩ := List.mem_filterMap.mp listed
              exact absurd (below next (match?_eq_some_iff.mp found).2) (Int.lt_irrefl _)
            · omega
          simp only [assigned, matched, List.map_cons, List.nodup_cons, fresh, not_false_eq_true,
            true_and, List.filterMap_cons_none matched]
          exact ih fun id used => Int.lt_trans (below id used) (Int.lt_succ _)

section Merge

variable (idOf) (update : ν → ρ → Except ε ρ) (new : ν → Table ρ → Except ε ρ)

/-- Create a child by adding a row for it. -/
def inserting (child : ν) (table : Table ρ) : Except ε (Table ρ) :=
  (new child table).map table.insert

/-- The row a child leads to, from the row it is matched with if there is one. -/
def Made (child : ν) (state : Table ρ) : Option ρ → ρ → Prop
  | some row, written => update child row = .ok written
  | none, written => new child state = .ok written

variable {idOf} {update} {new} {old merged : Table ρ} {given : List ν}

theorem merge_concat {create : ν → Table ρ → Except ε (Table ρ)} {done : List ν} {last : ν} :
    merge idOf known update create old (done ++ [last]) = .ok merged ↔
      ∃ state, merge idOf known update create old done = .ok state ∧
        mergeChild idOf known update create state last = .ok merged := by
  unfold merge
  rw [List.foldlM_append, Outcome.bind_eq_ok]
  simp only [List.foldlM_cons, List.foldlM_nil, bind_pure]

/-- Merging takes as many new ids as there are children without a row. -/
theorem ids_merge
    (performed : merge idOf old.ids update (inserting new) old given = .ok merged) :
    merged.next = old.next + added idOf old.ids given ∧
      ∀ id, id ∈ merged.ids ↔
        id ∈ old.ids ∨ (old.next ≤ id ∧ id < old.next + added idOf old.ids given) := by
  induction given using List.reverseRecOn generalizing merged with
  | nil =>
      cases performed
      refine ⟨by simp [added], fun id => ?_⟩
      have nothing : ¬ (old.next ≤ id ∧ id < old.next + added idOf old.ids []) := by
        simp [added]
      simp only [nothing, or_false]
  | append_singleton done last ih =>
      obtain ⟨state, before, step⟩ := merge_concat.mp performed
      obtain ⟨next, ids⟩ := ih before
      unfold mergeChild at step
      rw [added_append]
      cases matched : match? idOf old.ids last with
      | some id =>
          have none : added idOf old.ids [last] = 0 := by simp [added, matched]
          rw [none, Nat.add_zero]
          rw [matched] at step
          dsimp only at step
          split at step
          · obtain ⟨row, _, rfl⟩ := Outcome.map_eq_ok.mp step
            rw [Table.next_replace, Table.ids_replace]
            exact ⟨next, ids⟩
          · cases step
            exact ⟨next, ids⟩
      | none =>
          have one : added idOf old.ids [last] = 1 := by simp [added, matched]
          rw [one]
          rw [matched] at step
          obtain ⟨row, _, rfl⟩ := Outcome.map_eq_ok.mp step
          rw [Table.next_insert, next, Table.ids_insert]
          refine ⟨by push_cast; omega, fun id => ?_⟩
          rw [List.mem_append, List.mem_singleton, ids, next, or_assoc]
          refine or_congr_right ?_
          push_cast
          omega

/-- A row no child has the id of is left as it was, and the one of a child is made
from the child. -/
theorem get?_merge (distinct : Distinct idOf old.ids given)
    (performed : merge idOf old.ids update (inserting new) old given = .ok merged) :
    (∀ id, id ∉ (assigned idOf old.ids old.next given).map Prod.fst →
      merged.get? id = old.get? id) ∧
    ∀ before child after, given = before ++ child :: after →
      ∃ state written, merge idOf old.ids update (inserting new) old before = .ok state ∧
        Made update new child state (old.get? (idAt idOf old.ids old.next before child)) written ∧
        merged.get? (idAt idOf old.ids old.next before child) = some written := by
  induction given using List.reverseRecOn generalizing merged with
  | nil =>
      cases performed
      exact ⟨fun _ _ => rfl, fun before child after split => by simp at split⟩
  | append_singleton done last ih =>
      obtain ⟨state, before, step⟩ := merge_concat.mp performed
      have distinctDone : Distinct idOf old.ids done := by
        unfold Distinct at distinct ⊢
        rw [List.filterMap_append] at distinct
        exact distinct.of_append_left
      obtain ⟨next, ids⟩ := ids_merge before
      obtain ⟨others, rows⟩ := ih distinctDone before
      have unused : idAt idOf old.ids old.next done last ∉
          (assigned idOf old.ids old.next done).map Prod.fst := by
        have different := (nodup_assigned_iff old.below).mpr distinct
        rw [assigned_concat, List.map_append, List.map_singleton] at different
        exact fun used => List.disjoint_of_nodup_append different used (List.mem_singleton_self _)
      -- the last child writes its own row only
      obtain ⟨written, made, lookup⟩ : ∃ written,
          Made update new last state (old.get? (idAt idOf old.ids old.next done last)) written ∧
          ∀ id, merged.get? id = if id = idAt idOf old.ids old.next done last then some written
            else state.get? id := by
        unfold mergeChild at step
        unfold idAt
        cases matched : match? idOf old.ids last with
        | some id =>
            rw [matched] at step
            have known := (match?_eq_some_iff.mp matched).2
            have present : id ∈ state.ids := (ids id).mpr (.inl known)
            obtain ⟨row, found⟩ := Table.exists_get?_of_mem present
            dsimp only at step
            rw [found] at step
            obtain ⟨written, made, rfl⟩ := Outcome.map_eq_ok.mp step
            refine ⟨written, ?_, fun other => Table.get?_replace present written other⟩
            unfold idAt at unused
            rw [matched] at unused
            rw [← others id unused, found]
            exact made
        | none =>
            rw [matched] at step
            obtain ⟨written, made, rfl⟩ := Outcome.map_eq_ok.mp step
            dsimp only
            rw [← next]
            refine ⟨written, ?_, fun other => Table.get?_insert state written other⟩
            have free : old.get? state.next = none := by
              refine Table.get?_eq_none_iff.mpr fun used => ?_
              exact absurd (old.below _ used) (by omega)
            rw [free]
            exact made
      constructor
      · intro id free
        rw [assigned_concat, List.map_append, List.mem_append, not_or, List.map_singleton,
          List.mem_singleton] at free
        rw [lookup, if_neg free.2, others id free.1]
      · intro front child after split
        obtain ⟨_, rfl, rfl⟩ | ⟨rest, _, split⟩ := concat_eq_append_cons_iff.mp split
        · refine ⟨state, written, before, made, ?_⟩
          rw [lookup, if_pos rfl]
        · obtain ⟨earlier, row, merges, made, found⟩ := rows front child rest split
          refine ⟨earlier, row, merges, made, ?_⟩
          have listed : (idAt idOf old.ids old.next front child, child) ∈
              assigned idOf old.ids old.next done := mem_assigned.mpr ⟨front, rest, split, rfl⟩
          have apart : idAt idOf old.ids old.next front child ≠
              idAt idOf old.ids old.next done last :=
            fun same => unused (same ▸ List.mem_map_of_mem listed)
          rw [lookup, if_neg apart, found]

end Merge

section Reconciled

variable (idOf)

/-- After a table is brought in line with children it has a row for each of them, under
the id the child comes to have, and no other row. The row of a child agrees with the
child and with the row it was written over. -/
structure Reconciled (agrees : ν → Option ρ → ρ → Prop) (old : Table ρ) (given : List ν)
    (after : Table ρ) : Prop where
  ids : after.ids.Perm ((assigned idOf old.ids old.next given).map Prod.fst)
  rows : ∀ entry ∈ assigned idOf old.ids old.next given,
    ∃ row, after.get? entry.1 = some row ∧ agrees entry.2 (rowOf idOf old entry.2) row

variable {idOf} {old merged after : Table ρ} {given : List ν}

theorem get?_idAt (before : List ν) (child : ν) :
    old.get? (idAt idOf old.ids old.next before child) = rowOf idOf old child := by
  unfold idAt rowOf
  cases matched : match? idOf old.ids child with
  | some id => rw [(match?_eq_some_iff.mp matched).1, Option.bind_some]
  | none =>
      have free : old.get? (old.next + added idOf old.ids before) = none := by
        refine Table.get?_eq_none_iff.mpr fun used => ?_
        exact absurd (old.below _ used) (by omega)
      dsimp only
      rw [free]
      cases carried : idOf child with
      | none => rfl
      | some id =>
          have unknown : id ∉ old.ids := by
            intro known
            have found := match?_eq_some_iff.mpr ⟨carried, known⟩
            rw [matched] at found
            cases found
          exact (Table.get?_eq_none_iff.mpr unknown).symm

/-- The rows that are left are those of the children. -/
theorem mem_ids_kept_iff {update : ν → ρ → Except ε ρ} {new : ν → Table ρ → Except ε ρ}
    (performed : merge idOf old.ids update (inserting new) old given = .ok merged) (id : Int) :
    (id ∈ merged.ids ∧ id ∉ missing idOf old.ids given) ↔
      id ∈ (assigned idOf old.ids old.next given).map Prod.fst := by
  rw [(ids_merge performed).2, mem_ids_assigned]
  have carried : id ∈ given.filterMap (match? idOf old.ids) ↔
      id ∈ old.ids ∧ id ∉ missing idOf old.ids given := by
    unfold missing
    simp only [List.mem_filterMap, match?_eq_some_iff, List.mem_filter, Bool.not_eq_eq_eq_not,
      Bool.not_true, List.any_eq_false, beq_iff_eq, not_and, not_forall, not_not]
    constructor
    · rintro ⟨child, member, carries, known⟩
      exact ⟨known, fun _ => ⟨child, member, carries⟩⟩
    · rintro ⟨known, some⟩
      obtain ⟨child, member, carries⟩ := some known
      exact ⟨child, member, carries, known⟩
  have listed : id ∈ missing idOf old.ids given → id ∈ old.ids := List.mem_of_mem_filter
  have bound : id ∈ old.ids → id < old.next := old.below id
  rw [carried]
  constructor
  · rintro ⟨known | fresh, kept⟩
    · exact .inl ⟨known, kept⟩
    · exact .inr fresh
  · rintro (⟨known, kept⟩ | fresh)
    · exact ⟨.inl known, kept⟩
    · exact ⟨.inr fresh, fun gone => absurd (bound (listed gone)) (by omega)⟩

/-- Rows under different ids, the same as those assigned, are those assigned. -/
theorem perm_assigned_iff (same : ∀ id, id ∈ after.ids ↔
      id ∈ (assigned idOf old.ids old.next given).map Prod.fst) :
    after.ids.Perm ((assigned idOf old.ids old.next given).map Prod.fst) ↔
      Distinct idOf old.ids given := by
  have below : ∀ id ∈ old.ids, id < old.next := old.below
  rw [← nodup_assigned_iff below]
  constructor
  · exact fun perm => perm.nodup_iff.mp after.nodup_ids
  · exact fun different =>
      (List.perm_ext_iff_of_nodup after.nodup_ids different).mpr same

/-- Deleting rows one by one leaves the other ones as they are. -/
theorem get?_foldlM_remove {delete : Table ρ → Int → Except ε (Table ρ)}
    (removes : ∀ {table id next}, delete table id = .ok next → next = table.remove id)
    {gone : List Int} (performed : gone.foldlM delete merged = .ok after) (id : Int) :
    after.get? id = if id ∈ gone then none else merged.get? id := by
  induction gone generalizing merged with
  | nil =>
      cases performed
      rfl
  | cons first rest ih =>
      rw [List.foldlM_cons] at performed
      obtain ⟨state, removed, performed⟩ := Outcome.bind_eq_ok.mp performed
      cases removes removed
      rw [ih performed, Table.get?_remove]
      by_cases same : id = first
      · simp [same]
      · simp [same]

/-- **Reconciliation.** A table that is merged with children and pruned holds them, each
once, exactly when no row is matched twice and every row that is matched could be made
to agree with its child. -/
theorem reconciled_iff {update : ν → ρ → Except ε ρ} {new : ν → Table ρ → Except ε ρ}
    {delete : Table ρ → Int → Except ε (Table ρ)} {agrees : ν → Option ρ → ρ → Prop}
    {fits : ν → ρ → Prop}
    (updated : ∀ {child row written}, update child row = .ok written →
      (agrees child (some row) written ↔ fits child row))
    (created : ∀ {child state row}, new child state = .ok row → agrees child none row)
    (removes : ∀ {table id next}, delete table id = .ok next → next = table.remove id)
    (mergedOk : merge idOf old.ids update (inserting new) old given = .ok merged)
    (prunedOk : prune idOf old.ids delete given merged = .ok after) :
    Reconciled idOf agrees old given after ↔
      Distinct idOf old.ids given ∧
        ∀ child ∈ given, ∀ row, rowOf idOf old child = some row → fits child row := by
  have read := get?_foldlM_remove removes prunedOk
  have same : ∀ id, id ∈ after.ids ↔
      id ∈ (assigned idOf old.ids old.next given).map Prod.fst := by
    intro id
    rw [← mem_ids_kept_iff mergedOk, ← Table.isSome_get?_iff, ← Table.isSome_get?_iff, read]
    by_cases gone : id ∈ missing idOf old.ids given <;> simp [gone]
  have ids := perm_assigned_iff same
  have content : Distinct idOf old.ids given → ∀ before child rest,
      given = before ++ child :: rest →
        ∃ row, after.get? (idAt idOf old.ids old.next before child) = some row ∧
          (agrees child (rowOf idOf old child) row ↔
            ∀ known, rowOf idOf old child = some known → fits child known) := by
    intro distinct before child rest split
    obtain ⟨state, written, _, made, found⟩ := (get?_merge distinct mergedOk).2 _ _ _ split
    have listed : idAt idOf old.ids old.next before child ∈
        (assigned idOf old.ids old.next given).map Prod.fst :=
      List.mem_map.mpr ⟨(_, child), mem_assigned.mpr ⟨before, rest, split, rfl⟩, rfl⟩
    have kept := ((mem_ids_kept_iff mergedOk _).mpr listed).2
    refine ⟨written, by rw [read, if_neg kept, found], ?_⟩
    rw [get?_idAt] at made
    cases matched : rowOf idOf old child with
    | some row =>
        rw [matched] at made
        rw [updated made]
        exact ⟨fun fitting known same => by cases same; exact fitting, fun all => all row rfl⟩
    | none =>
        rw [matched] at made
        exact ⟨fun _ _ absent => (by cases absent), fun _ => created made⟩
  constructor
  · intro reconciled
    have distinct := ids.mp reconciled.ids
    refine ⟨distinct, fun child member row matched => ?_⟩
    obtain ⟨before, rest, split⟩ := List.append_of_mem member
    obtain ⟨found, located, agreed⟩ := content distinct before child rest split
    obtain ⟨same, stored, agree⟩ :=
      reconciled.rows (_, child) (mem_assigned.mpr ⟨before, rest, split, rfl⟩)
    rw [located] at stored
    cases stored
    exact agreed.mp agree row matched
  · rintro ⟨distinct, fitting⟩
    refine ⟨ids.mpr distinct, ?_⟩
    rintro ⟨id, child⟩ listed
    obtain ⟨before, rest, split, same⟩ := mem_assigned.mp listed
    obtain ⟨row, located, agreed⟩ := content distinct before child rest split
    refine ⟨row, by rw [same, located], agreed.mpr fun known matched => ?_⟩
    exact fitting child (by rw [split]; exact List.mem_append_right _ List.mem_cons_self) known
      matched

section Skipping

/-- Children without a row are passed over. -/
def skipping (_ : ν) (table : Table ρ) : Except ε (Table ρ) := .ok table

theorem isSome_rowOf_iff {child : ν} :
    (rowOf idOf old child).isSome ↔ (match? idOf old.ids child).isSome := by
  rw [Option.isSome_iff_exists, Option.isSome_iff_exists]
  unfold rowOf
  simp only [Option.bind_eq_some_iff, match?_eq_some_iff]
  constructor
  · rintro ⟨row, id, carried, found⟩
    exact ⟨id, carried, Table.mem_ids_of_get? found⟩
  · rintro ⟨id, carried, known⟩
    obtain ⟨row, found⟩ := Table.exists_get?_of_mem known
    exact ⟨row, id, carried, found⟩

/-- Passing children over is merging the other ones. -/
theorem merge_skipping {update : ν → ρ → Except ε ρ} (create : ν → Table ρ → Except ε (Table ρ))
    (known : List Int) (table : Table ρ) (given : List ν) :
    merge idOf known update skipping table given =
      merge idOf known update create table
        (given.filter fun child => (match? idOf known child).isSome) := by
  unfold merge
  induction given generalizing table with
  | nil => rfl
  | cons child rest ih =>
      rw [List.foldlM_cons]
      cases matched : match? idOf known child with
      | none =>
          rw [List.filter_cons_of_neg (by simp [matched]), ← ih]
          unfold mergeChild
          rw [matched]
          rfl
      | some id =>
          rw [List.filter_cons_of_pos (by simp [matched]), List.foldlM_cons]
          have same : mergeChild idOf known update skipping table child =
              mergeChild idOf known update create table child := by
            unfold mergeChild
            rw [matched]
          rw [same]
          congr 1
          funext state
          exact ih state

/-- Where children without a row are passed over, a table holds the children only if
there are none of these. -/
theorem reconciled_skipping_iff [Inhabited ε] {update : ν → ρ → Except ε ρ}
    {delete : Table ρ → Int → Except ε (Table ρ)} {agrees : ν → Option ρ → ρ → Prop}
    {fits : ν → ρ → Prop}
    (updated : ∀ {child row written}, update child row = .ok written →
      (agrees child (some row) written ↔ fits child row))
    (removes : ∀ {table id next}, delete table id = .ok next → next = table.remove id)
    (mergedOk : merge idOf old.ids update skipping old given = .ok merged)
    (prunedOk : prune idOf old.ids delete given merged = .ok after) :
    Reconciled idOf agrees old given after ↔
      Distinct idOf old.ids given ∧
        ∀ child ∈ given, ∃ row, rowOf idOf old child = some row ∧ fits child row := by
  let new : ν → Table ρ → Except ε ρ := fun _ _ => .error default
  rw [merge_skipping (inserting new)] at mergedOk
  -- with all children matched this is the merge that creates rows
  have all : (∀ child ∈ given, (match? idOf old.ids child).isSome) →
      (Reconciled idOf agrees old given after ↔ Distinct idOf old.ids given ∧
        ∀ child ∈ given, ∀ row, rowOf idOf old child = some row → fits child row) := by
    intro matched
    rw [List.filter_eq_self.mpr matched] at mergedOk
    exact reconciled_iff updated (fun made => by cases made) removes mergedOk prunedOk
  constructor
  · intro reconciled
    have matched : ∀ child ∈ given, (match? idOf old.ids child).isSome := by
      intro child member
      obtain ⟨before, rest, split⟩ := List.append_of_mem member
      by_contra unmatched
      have unmatched := Option.not_isSome_iff_eq_none.mp unmatched
      obtain ⟨row, found, _⟩ :=
        reconciled.rows (_, child) (mem_assigned.mpr ⟨before, rest, split, rfl⟩)
      have read := get?_foldlM_remove removes prunedOk
        (idAt idOf old.ids old.next before child)
      rw [found] at read
      have listed : idAt idOf old.ids old.next before child ∈ merged.ids := by
        split at read
        · cases read
        · exact Table.mem_ids_of_get? read.symm
      have none : added idOf old.ids
          (given.filter fun child => (match? idOf old.ids child).isSome) = 0 := by
        unfold added
        rw [List.countP_filter, List.countP_eq_zero]
        intro other _
        cases match? idOf old.ids other <;> simp
      rw [(ids_merge mergedOk).2, none] at listed
      unfold idAt at listed
      rw [unmatched] at listed
      obtain known | fresh := listed
      · exact absurd (old.below _ known) (by dsimp only; omega)
      · dsimp only at fresh
        omega
    obtain ⟨distinct, fitting⟩ := (all matched).mp reconciled
    refine ⟨distinct, fun child member => ?_⟩
    obtain ⟨row, found⟩ :=
      Option.isSome_iff_exists.mp (isSome_rowOf_iff.mpr (matched child member))
    exact ⟨row, found, fitting child member row found⟩
  · rintro ⟨distinct, fitting⟩
    refine (all fun child member => ?_).mpr ⟨distinct, fun child member row found => ?_⟩
    · obtain ⟨row, found, _⟩ := fitting child member
      exact isSome_rowOf_iff.mp (Option.isSome_iff_exists.mpr ⟨row, found⟩)
    · obtain ⟨known, located, fit⟩ := fitting child member
      rw [found] at located
      cases located
      exact fit

end Skipping

end Reconciled

end Foundation.Reconcile

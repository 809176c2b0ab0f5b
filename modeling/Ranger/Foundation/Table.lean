import Ranger.Foundation.AssocMap

/-! # Tables that give out ids

A table of a database is the map from the ids of its rows to the rows. A new row
takes the next id, which is above all that are in use.
-/

namespace Foundation

universe u v

/-- A table of rows, each under its id, with the next id to be given out. -/
structure Table (ρ : Type u) where
  rows : AssocMap Int ρ
  next : Int
  below : ∀ id ∈ rows.keys, id < next

namespace Table

variable {ρ : Type u}

/-- The table without rows. -/
def empty : Table ρ := ⟨∅, 1, nofun⟩

def ids (table : Table ρ) : List Int := table.rows.keys

def get? (table : Table ρ) (id : Int) : Option ρ := table.rows.get? id

theorem nodup_ids (table : Table ρ) : table.ids.Nodup := table.rows.nodup

theorem next_not_mem (table : Table ρ) : table.next ∉ table.ids :=
  fun used => Int.lt_irrefl _ (table.below _ used)

theorem isSome_get?_iff {table : Table ρ} {id : Int} : (table.get? id).isSome ↔ id ∈ table.ids :=
  AssocMap.isSome_get?_iff

theorem get?_eq_none_iff {table : Table ρ} {id : Int} : table.get? id = none ↔ id ∉ table.ids :=
  AssocMap.get?_eq_none_iff

theorem mem_ids_of_get? {table : Table ρ} {id : Int} {row : ρ} (found : table.get? id = some row) :
    id ∈ table.ids := isSome_get?_iff.mp (Option.isSome_iff_exists.mpr ⟨row, found⟩)

theorem exists_get?_of_mem {table : Table ρ} {id : Int} (used : id ∈ table.ids) :
    ∃ row, table.get? id = some row := Option.isSome_iff_exists.mp (isSome_get?_iff.mpr used)

/-- Add a row under the next id. -/
def insert (table : Table ρ) (row : ρ) : Table ρ where
  rows := table.rows.put table.next row
  next := table.next + 1
  below := by
    intro id used
    rw [AssocMap.keys_put_of_not_mem table.next_not_mem, List.mem_append,
      List.mem_singleton] at used
    obtain old | rfl := used
    · exact Int.lt_trans (table.below id old) (Int.lt_succ _)
    · exact Int.lt_succ _

/-- Replace the row of an id; there is nothing to replace under an id that is not in use. -/
def replace (table : Table ρ) (id : Int) (row : ρ) : Table ρ :=
  if present : id ∈ table.ids then
    { table with
      rows := table.rows.put id row
      below := by
        rw [AssocMap.keys_put_of_mem present]
        exact table.below }
  else table

def remove (table : Table ρ) (id : Int) : Table ρ where
  rows := table.rows.filterKeys (· != id)
  next := table.next
  below := by
    intro other used
    rw [AssocMap.keys_filterKeys] at used
    exact table.below other (List.mem_of_mem_filter used)

/-- Rewrite the rows where they are. -/
def mapRows (table : Table ρ) (f : ρ → ρ) : Table ρ where
  rows :=
    ⟨table.rows.entries.map fun entry => (entry.1, f entry.2), by
      rw [List.map_map]
      exact table.rows.nodup⟩
  next := table.next
  below := by
    intro id used
    rw [AssocMap.keys, List.map_map] at used
    exact table.below id used

/-- The first row that passes a test, with its id. -/
def find? (table : Table ρ) (test : ρ → Bool) : Option (Int × ρ) :=
  table.rows.entries.find? fun entry => test entry.2

@[simp] theorem ids_empty : (empty : Table ρ).ids = [] := rfl

@[simp] theorem ids_insert (table : Table ρ) (row : ρ) :
    (table.insert row).ids = table.ids ++ [table.next] :=
  AssocMap.keys_put_of_not_mem table.next_not_mem row

@[simp] theorem next_insert (table : Table ρ) (row : ρ) :
    (table.insert row).next = table.next + 1 := rfl

theorem get?_insert (table : Table ρ) (row : ρ) (id : Int) :
    (table.insert row).get? id = if id = table.next then some row else table.get? id :=
  AssocMap.get?_put _ _ _ _

/-- The rows that are there stay where they are. -/
theorem get?_insert_of_some {table : Table ρ} {id : Int} {old : ρ}
    (found : table.get? id = some old) (row : ρ) : (table.insert row).get? id = some old := by
  have other : id ≠ table.next := by
    rintro rfl
    exact table.next_not_mem (mem_ids_of_get? found)
  rw [get?_insert, if_neg other, found]

@[simp] theorem ids_replace (table : Table ρ) (id : Int) (row : ρ) :
    (table.replace id row).ids = table.ids := by
  unfold replace
  split
  · next present => exact AssocMap.keys_put_of_mem present row
  · rfl

@[simp] theorem next_replace (table : Table ρ) (id : Int) (row : ρ) :
    (table.replace id row).next = table.next := by
  unfold replace
  split <;> rfl

theorem get?_replace {table : Table ρ} {id : Int} (present : id ∈ table.ids) (row : ρ)
    (other : Int) :
    (table.replace id row).get? other = if other = id then some row else table.get? other := by
  unfold replace
  rw [dif_pos present]
  exact AssocMap.get?_put _ _ _ _

theorem get?_replace_self {table : Table ρ} {id : Int} (present : id ∈ table.ids) (row : ρ) :
    (table.replace id row).get? id = some row := by
  rw [get?_replace present, if_pos rfl]

theorem get?_replace_of_ne {table : Table ρ} {id other : Int} (apart : other ≠ id) (row : ρ) :
    (table.replace id row).get? other = table.get? other := by
  by_cases present : id ∈ table.ids
  · rw [get?_replace present, if_neg apart]
  · unfold replace
    rw [dif_neg present]

@[simp] theorem ids_remove (table : Table ρ) (id : Int) :
    (table.remove id).ids = table.ids.filter (· != id) := AssocMap.keys_filterKeys _ _

theorem get?_remove (table : Table ρ) (id other : Int) :
    (table.remove id).get? other = if other = id then none else table.get? other := by
  have read := AssocMap.get?_filterKeys table.rows (· != id) other
  by_cases same : other = id
  · rw [if_pos same]
    rw [same, if_neg (by simp)] at read
    exact same ▸ read
  · rw [if_neg same]
    rw [if_pos (by simpa using same)] at read
    exact read

theorem entries_insert (table : Table ρ) (row : ρ) :
    (table.insert row).rows.entries = table.rows.entries ++ [(table.next, row)] :=
  AssocMap.entries_put_of_not_mem table.next_not_mem row

theorem entries_replace {table : Table ρ} {id : Int} (present : id ∈ table.ids) (row : ρ) :
    (table.replace id row).rows.entries =
      table.rows.entries.map fun entry => if entry.1 = id then (id, row) else entry := by
  unfold replace
  rw [dif_pos present]
  exact AssocMap.entries_put_of_mem present row

theorem get?_eq_some_iff {table : Table ρ} {id : Int} {row : ρ} :
    table.get? id = some row ↔ (id, row) ∈ table.rows.entries := AssocMap.get?_eq_some_iff

/-- A reading that does not see what changed in a row. -/
theorem map_replace {α : Type v} {table : Table ρ} {id : Int} {old row : ρ} {read : ρ → α}
    (found : table.get? id = some old) (same : read row = read old) :
    (table.replace id row).rows.entries.map (fun entry => read entry.2) =
      table.rows.entries.map fun entry => read entry.2 := by
  rw [entries_replace (mem_ids_of_get? found), List.map_map]
  refine List.map_congr_left fun entry member => ?_
  by_cases own : entry.1 = id
  · subst own
    have located := get?_eq_some_iff.mpr member
    rw [found, Option.some.injEq] at located
    simp only [Function.comp_apply, ↓reduceIte, same, located]
  · simp only [Function.comp_apply, own, ↓reduceIte]

/-- What a search finds is a row that passes. -/
theorem find?_eq_some {table : Table ρ} {test : ρ → Bool} {id : Int} {row : ρ}
    (found : table.find? test = some (id, row)) : table.get? id = some row ∧ test row = true := by
  have located : table.rows.entries.find? (fun entry => test entry.2) = some (id, row) := found
  have passes := List.find?_some located
  exact ⟨get?_eq_some_iff.mpr (List.mem_of_find?_eq_some located), passes⟩

theorem find?_eq_none {table : Table ρ} {test : ρ → Bool} (missing : table.find? test = none)
    {id : Int} {row : ρ} (found : table.get? id = some row) : test row = false :=
  Bool.eq_false_iff.mpr (List.find?_eq_none.mp missing _ (get?_eq_some_iff.mp found))

/-- A row that was found is still the first one to pass when another row does not pass
afterwards, or it passes itself. -/
theorem find?_replace {table : Table ρ} {test : ρ → Bool} {id other : Int} {row new : ρ}
    (found : table.find? test = some (id, row)) (passes : test new = decide (other = id)) :
    (table.replace other new).find? test = some (id, if other = id then new else row) := by
  by_cases present : other ∈ table.ids
  · obtain ⟨holds, before, behind, split, fails⟩ := List.find?_eq_some_iff_append.mp found
    have distinct := table.rows.nodup
    unfold find?
    rw [entries_replace present, List.find?_eq_some_iff_append]
    rw [split, List.map_append, List.map_cons, List.nodup_append] at distinct
    refine ⟨?_, before.map fun entry => if entry.1 = other then (other, new) else entry,
      behind.map fun entry => if entry.1 = other then (other, new) else entry, ?_, ?_⟩
    · split
      · next same =>
        rw [passes]
        exact decide_eq_true same
      · exact holds
    · rw [split, List.map_append, List.map_cons]
      by_cases same : other = id
      · subst same
        rw [if_pos rfl, if_pos rfl]
      · rw [if_neg fun back => same back.symm, if_neg same]
    · intro entry listed
      obtain ⟨entry, among, rfl⟩ := List.mem_map.mp listed
      split
      · next own =>
        -- the row that is found stands behind `before`
        have apart : entry.1 ≠ id :=
          distinct.2.2 _ (List.mem_map_of_mem among) _ List.mem_cons_self
        rw [passes, decide_eq_false fun same => apart (own.trans same)]
        rfl
      · exact fails entry among
  · have apart : other ≠ id := by
      rintro rfl
      exact present (mem_ids_of_get? (find?_eq_some found).1)
    unfold replace
    rw [dif_neg present, if_neg apart]
    exact found

section Readings

variable {α : Type v} {read : Int × ρ → Option α}

/-- A reading that ignores a row does not see whether it is there. -/
theorem filterMap_insert {table : Table ρ} {row : ρ} (ignored : read (table.next, row) = none) :
    (table.insert row).rows.entries.filterMap read = table.rows.entries.filterMap read := by
  rw [entries_insert, List.filterMap_append]
  simp only [List.filterMap_cons, ignored, List.filterMap_nil, List.append_nil]

theorem filterMap_mapRows {table : Table ρ} {f : ρ → ρ}
    (same : ∀ entry ∈ table.rows.entries, read (entry.1, f entry.2) = read entry) :
    (table.mapRows f).rows.entries.filterMap read = table.rows.entries.filterMap read := by
  unfold mapRows
  rw [List.filterMap_map]
  exact List.filterMap_congr same

theorem filterMap_replace {table : Table ρ} {id : Int} {old row : ρ}
    (found : table.get? id = some old) (ignoredOld : read (id, old) = none)
    (ignored : read (id, row) = none) :
    (table.replace id row).rows.entries.filterMap read = table.rows.entries.filterMap read := by
  rw [entries_replace (mem_ids_of_get? found), List.filterMap_map]
  refine List.filterMap_congr fun entry member => ?_
  by_cases same : entry.1 = id
  · subst same
    have own := get?_eq_some_iff.mpr member
    rw [found, Option.some.injEq] at own
    subst own
    simp only [Function.comp_apply, ↓reduceIte, ignored, ignoredOld]
  · simp only [Function.comp_apply, same, ↓reduceIte]

theorem filterMap_remove {table : Table ρ} {id : Int} {old : ρ} (found : table.get? id = some old)
    (ignored : read (id, old) = none) :
    (table.remove id).rows.entries.filterMap read = table.rows.entries.filterMap read := by
  unfold remove AssocMap.filterKeys
  rw [List.filterMap_filter]
  refine List.filterMap_congr fun entry member => ?_
  by_cases same : entry.1 = id
  · subst same
    have own := get?_eq_some_iff.mpr member
    rw [found, Option.some.injEq] at own
    subst own
    simp only [bne_self_eq_false, Bool.false_eq_true, ↓reduceIte, ignored]
  · simp only [bne_iff_ne, ne_eq, same, not_false_eq_true, ↓reduceIte]

end Readings

section Where

variable {table : Table ρ} {test : ρ → Bool}

/-- The rows that pass a test, in the order of their ids. -/
def rowsWhere (table : Table ρ) (test : ρ → Bool) : List ρ :=
  (table.rows.entries.map (·.2)).filter test

theorem rowsWhere_insert (table : Table ρ) (row : ρ) (test : ρ → Bool) :
    (table.insert row).rowsWhere test = table.rowsWhere test ++ [row].filter test := by
  unfold rowsWhere
  rw [entries_insert, List.map_append, List.filter_append]
  rfl

theorem mem_rowsWhere {row : ρ} :
    row ∈ table.rowsWhere test ↔ ∃ id, table.get? id = some row ∧ test row = true := by
  unfold rowsWhere
  rw [List.mem_filter, List.mem_map]
  constructor
  · rintro ⟨⟨entry, member, rfl⟩, passes⟩
    exact ⟨entry.1, get?_eq_some_iff.mpr member, passes⟩
  · rintro ⟨id, found, passes⟩
    exact ⟨⟨(id, row), get?_eq_some_iff.mp found, rfl⟩, passes⟩

/-- The rows that pass a test go, one after another. -/
def removeWhere (table : Table ρ) (test : ρ → Bool) : Table ρ :=
  ((table.rows.entries.filter fun entry => test entry.2).map Prod.fst).foldl remove table

theorem entries_removeWhere (table : Table ρ) (test : ρ → Bool) :
    (table.removeWhere test).rows.entries =
      table.rows.entries.filter fun entry => !test entry.2 := by
  have removed : ∀ (ids : List Int) (table : Table ρ), (ids.foldl remove table).rows.entries =
      table.rows.entries.filter fun entry => decide (entry.1 ∉ ids) := by
    intro ids
    induction ids with
    | nil => exact fun table => (List.filter_eq_self.mpr fun _ _ => by simp).symm
    | cons id rest ih =>
        intro table
        rw [List.foldl_cons, ih]
        change (table.rows.entries.filter (·.1 != id)).filter _ = _
        rw [List.filter_filter]
        refine List.filter_congr fun entry _ => ?_
        by_cases same : entry.1 = id
        · simp [same]
        · simp [same]
  unfold removeWhere
  rw [removed]
  refine List.filter_congr fun entry member => ?_
  have listed : entry.1 ∈ (table.rows.entries.filter fun entry => test entry.2).map Prod.fst ↔
      test entry.2 = true := by
    constructor
    · intro among
      obtain ⟨other, passes, same⟩ := List.mem_map.mp among
      have ⟨there, passed⟩ := List.mem_filter.mp passes
      rwa [List.inj_on_of_nodup_map table.rows.nodup there member same] at passed
    · exact fun passes => List.mem_map_of_mem (List.mem_filter.mpr ⟨member, passes⟩)
  by_cases passes : test entry.2 = true
  · rw [passes, decide_eq_false (not_not.mpr (listed.mpr passes))]
    rfl
  · rw [Bool.eq_false_iff.mpr passes]
    exact decide_eq_true fun among => passes (listed.mp among)

theorem rowsWhere_removeWhere (table : Table ρ) (gone test : ρ → Bool) :
    (table.removeWhere gone).rowsWhere test =
      (table.rowsWhere test).filter fun row => !gone row := by
  unfold rowsWhere
  rw [entries_removeWhere, List.filter_filter, List.filter_map, List.filter_map,
    List.filter_filter]
  exact congrArg _ (List.filter_congr fun entry _ => Bool.and_comm _ _)

/-- Rows that are added are seen behind the others. -/
theorem rowsWhere_foldl_insert (rows : List ρ) (table : Table ρ) (test : ρ → Bool) :
    (rows.foldl insert table).rowsWhere test = table.rowsWhere test ++ rows.filter test := by
  induction rows generalizing table with
  | nil => exact (List.append_nil _).symm
  | cons row rest ih =>
      rw [List.foldl_cons, ih, rowsWhere_insert, List.append_assoc, ← List.filter_append]
      rfl

/-- A row that neither passed nor passes is not seen. -/
theorem rowsWhere_replace {id : Int} {old row : ρ} (found : table.get? id = some old)
    (outside : test old = false) (stays : test row = false) :
    (table.replace id row).rowsWhere test = table.rowsWhere test := by
  have read : ∀ entries : List (Int × ρ), (entries.map (·.2)).filter test =
      entries.filterMap fun entry => if test entry.2 then some entry.2 else none := by
    intro entries
    rw [List.filter_map, ← List.filterMap_eq_map, List.filterMap_filter]
    rfl
  unfold rowsWhere
  rw [read, read]
  refine filterMap_replace found ?_ ?_
  · simp only [outside, Bool.false_eq_true, ↓reduceIte]
  · simp only [stays, Bool.false_eq_true, ↓reduceIte]

/-- The row that a search finds is the first of those that pass, and is replaced there. -/
theorem rowsWhere_of_find? {id : Int} {row : ρ} (found : table.find? test = some (id, row)) :
    ∃ rest, table.rowsWhere test = row :: rest ∧ ∀ changed, test changed = true →
      (table.replace id changed).rowsWhere test = changed :: rest := by
  obtain ⟨passes, before, behind, listed, others⟩ := List.find?_eq_some_iff_append.mp found
  have distinct : (before ++ (id, row) :: behind).map Prod.fst |>.Nodup :=
    listed ▸ table.rows.nodup
  rw [List.map_append, List.map_cons, List.nodup_middle, List.nodup_cons, List.mem_append,
    not_or] at distinct
  have none : (before.map Prod.snd).filter test = [] := by
    refine List.filter_eq_nil_iff.mpr fun other member => ?_
    obtain ⟨entry, earlier, rfl⟩ := List.mem_map.mp member
    simpa using others entry earlier
  refine ⟨(behind.map Prod.snd).filter test, ?_, fun changed kept => ?_⟩
  · unfold rowsWhere
    rw [listed, List.map_append, List.filter_append, none, List.map_cons, List.nil_append,
      List.filter_cons_of_pos passes]
  · have untouched : ∀ entries : List (Int × ρ), id ∉ entries.map Prod.fst →
        (entries.map fun entry => if entry.1 = id then (id, changed) else entry) = entries := by
      intro entries absent
      refine (List.map_congr_left fun entry member => if_neg fun same => absent ?_).trans
        (List.map_id entries)
      exact same ▸ List.mem_map_of_mem member
    unfold rowsWhere
    rw [entries_replace (mem_ids_of_get? (find?_eq_some found).1), listed, List.map_append,
      List.map_cons, untouched _ distinct.1.1, untouched _ distinct.1.2, if_pos rfl,
      List.map_append, List.filter_append, none, List.map_cons, List.nil_append,
      List.filter_cons_of_pos kept]

end Where

end Table

end Foundation

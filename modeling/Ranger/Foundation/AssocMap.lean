import Mathlib.Data.List.Basic
import Mathlib.Data.List.Nodup
import Mathlib.Data.List.Perm.Subperm

/-! # Finite maps as entry lists

A finite map is the list of its entries in the order an iteration meets them,
no key twice. Statements about every map therefore cover every iteration order
of a hash table with the same content.
-/

namespace Foundation

universe u v

theorem mem_of_lookup_eq_some {κ : Type u} {υ : Type v} [DecidableEq κ] {key : κ} {value : υ}
    {entries : List (κ × υ)} (found : entries.lookup key = some value) :
    (key, value) ∈ entries := by
  obtain ⟨before, after, split, _⟩ := List.lookup_eq_some_iff.mp found
  rw [split]
  exact List.mem_append_right _ List.mem_cons_self

/-- A finite map given by its entries, no key twice. -/
structure AssocMap (κ : Type u) (υ : Type v) where
  entries : List (κ × υ)
  nodup : (entries.map Prod.fst).Nodup

namespace AssocMap

variable {κ : Type u} {υ : Type v}

/-- The map without entries. -/
def empty : AssocMap κ υ := ⟨[], List.nodup_nil⟩

def keys (m : AssocMap κ υ) : List κ := m.entries.map Prod.fst

def isEmpty (m : AssocMap κ υ) : Bool := m.entries.isEmpty

def size (m : AssocMap κ υ) : Nat := m.entries.length

/-- The entries whose keys pass a test. -/
def filterKeys (m : AssocMap κ υ) (keep : κ → Bool) : AssocMap κ υ :=
  ⟨m.entries.filter fun entry => keep entry.1, m.nodup.sublist (List.filter_sublist.map _)⟩

/-- The map without its first entries. -/
def drop (m : AssocMap κ υ) (count : Nat) : AssocMap κ υ :=
  ⟨m.entries.drop count, m.nodup.sublist ((List.drop_sublist count m.entries).map _)⟩

/-- The map of one key. -/
def single (key : κ) (value : υ) : AssocMap κ υ := ⟨[(key, value)], List.nodup_singleton key⟩

instance : EmptyCollection (AssocMap κ υ) := ⟨empty⟩

variable [DecidableEq κ]

/-- The value a key is mapped to. -/
def get? (m : AssocMap κ υ) (key : κ) : Option υ := m.entries.lookup key

def containsKey (m : AssocMap κ υ) (key : κ) : Bool := decide (key ∈ m.keys)

omit [DecidableEq κ] in
/-- Overwriting the entries of one key leaves the keys as they are. -/
private theorem overwrite_keys [DecidableEq κ] (key : κ) (value : υ) (entries : List (κ × υ)) :
    (entries.map fun entry => if entry.1 = key then (key, value) else entry).map Prod.fst =
      entries.map Prod.fst := by
  rw [List.map_map]
  apply List.map_congr_left
  intro entry _
  by_cases same : entry.1 = key
  · simp only [Function.comp_apply, same, ↓reduceIte]
  · simp only [Function.comp_apply, same, ↓reduceIte]

/-- Map a key to a value, in place when the key is mapped already and behind the
other entries when it is not. -/
def put (m : AssocMap κ υ) (key : κ) (value : υ) : AssocMap κ υ :=
  if fresh : key ∈ m.keys then
    ⟨m.entries.map fun entry => if entry.1 = key then (key, value) else entry, by
      rw [overwrite_keys]
      exact m.nodup⟩
  else
    ⟨m.entries ++ [(key, value)], by
      rw [List.map_append, List.map_singleton, ← List.concat_eq_append]
      exact m.nodup.concat fresh⟩

/-- The map without a key. -/
def remove (m : AssocMap κ υ) (key : κ) : AssocMap κ υ := m.filterKeys fun other => other != key

/-- Two maps have the same content. -/
def equalTo [BEq υ] (m other : AssocMap κ υ) : Bool :=
  m.size == other.size && m.entries.all fun entry => other.get? entry.1 == some entry.2

/-- Map a key to a value unless the key is mapped already. -/
def putIfAbsent (m : AssocMap κ υ) (key : κ) (value : υ) : AssocMap κ υ :=
  if m.containsKey key then m else m.put key value

@[simp] theorem get?_empty (key : κ) : (∅ : AssocMap κ υ).get? key = none := rfl

theorem containsKey_iff {m : AssocMap κ υ} {key : κ} : m.containsKey key ↔ key ∈ m.keys :=
  decide_eq_true_iff

private theorem lookup_cons_eq (key first : κ) (content : υ) (rest : List (κ × υ)) :
    ((first, content) :: rest).lookup key = if key = first then some content
      else rest.lookup key := by
  by_cases same : key = first
  · subst same
    simp only [List.lookup_cons_self, ↓reduceIte]
  · simp only [List.lookup_cons, beq_eq_false_iff_ne.mpr same, same, ↓reduceIte]

theorem mem_of_get?_eq_some {m : AssocMap κ υ} {key : κ} {value : υ}
    (found : m.get? key = some value) : (key, value) ∈ m.entries :=
  mem_of_lookup_eq_some found

theorem isSome_get?_iff {m : AssocMap κ υ} {key : κ} : (m.get? key).isSome ↔ key ∈ m.keys := by
  unfold get? keys
  rw [List.lookup_isSome_iff, List.mem_map]
  simp only [beq_iff_eq, @eq_comm κ key]

theorem get?_eq_some_iff {m : AssocMap κ υ} {key : κ} {value : υ} :
    m.get? key = some value ↔ (key, value) ∈ m.entries := by
  refine ⟨mem_of_get?_eq_some, fun member => ?_⟩
  have mapped : key ∈ m.keys := List.mem_map.mpr ⟨_, member, rfl⟩
  obtain ⟨other, found⟩ := Option.isSome_iff_exists.mp (isSome_get?_iff.mpr mapped)
  have sameEntry := List.inj_on_of_nodup_map m.nodup (mem_of_get?_eq_some found) member rfl
  rw [found, (Prod.mk.inj sameEntry).2]

theorem get?_eq_none_iff {m : AssocMap κ υ} {key : κ} : m.get? key = none ↔ key ∉ m.keys := by
  rw [← isSome_get?_iff, Option.not_isSome_iff_eq_none]

theorem equalTo_refl [BEq υ] [LawfulBEq υ] (m : AssocMap κ υ) : m.equalTo m = true := by
  unfold equalTo
  rw [beq_self_eq_true, Bool.true_and, List.all_eq_true]
  intro entry member
  rw [get?_eq_some_iff.mpr member]
  exact beq_self_eq_true _

/-- Maps with the same content map every key to the same value. -/
theorem get?_eq_of_equalTo [BEq υ] [LawfulBEq υ] {m other : AssocMap κ υ}
    (same : m.equalTo other = true) (key : κ) : m.get? key = other.get? key := by
  obtain ⟨sizes, entries⟩ := Bool.and_eq_true_iff.mp same
  have found : ∀ entry ∈ m.entries, other.get? entry.1 = some entry.2 :=
    fun entry member => eq_of_beq (List.all_eq_true.mp entries entry member)
  cases read : m.get? key with
  | some value => exact (found _ (mem_of_get?_eq_some read)).symm
  | none =>
      -- as many keys as the other map has are among its keys
      have within : m.keys ⊆ other.keys := by
        intro listed member
        obtain ⟨entry, own, rfl⟩ := List.mem_map.mp member
        apply isSome_get?_iff.mp
        rw [found entry own]
        rfl
      have long : other.keys.length ≤ m.keys.length := by
        unfold keys
        rw [List.length_map, List.length_map]
        exact Nat.le_of_eq (eq_of_beq sizes).symm
      have all := (List.subperm_of_subset m.nodup within).perm_of_length_le long
      apply Eq.symm
      apply get?_eq_none_iff.mpr
      exact fun listed => get?_eq_none_iff.mp read (all.mem_iff.mpr listed)

/-- A lookup after overwriting entries of one key. -/
theorem lookup_overwrite (key other : κ) (value : υ) (entries : List (κ × υ)) :
    (entries.map fun entry => if entry.1 = key then (key, value) else entry).lookup other =
      if other = key ∧ key ∈ entries.map Prod.fst then some value else entries.lookup other := by
  induction entries with
  | nil => simp
  | cons entry rest ih =>
      obtain ⟨first, content⟩ := entry
      by_cases head : first = key
      · subst first
        by_cases same : other = key
        · subst other
          simp
        · simp [lookup_cons_eq, ih, same]
      · by_cases same : other = first
        · subst other
          simp [head]
        · have absentHead : ¬key = first := fun equal => head equal.symm
          simp only [List.map_cons, head, ↓reduceIte, lookup_cons_eq, same, ih, List.mem_cons,
            absentHead, false_or]

private theorem lookup_append_single (key other : κ) (value : υ) (entries : List (κ × υ))
    (fresh : key ∉ entries.map Prod.fst) :
    (entries ++ [(key, value)]).lookup other =
      if other = key then some value else entries.lookup other := by
  induction entries with
  | nil =>
      by_cases same : other = key
      · simp [same]
      · simp [lookup_cons_eq, same]
  | cons entry rest ih =>
      obtain ⟨first, content⟩ := entry
      simp only [List.map_cons, List.mem_cons, not_or] at fresh
      by_cases same : other = first
      · subst other
        simp [Ne.symm fresh.1]
      · simp [lookup_cons_eq, same, ih fresh.2]

/-- A lookup after a write reads the write at its key and the old map elsewhere. -/
theorem get?_put (m : AssocMap κ υ) (key other : κ) (value : υ) :
    (m.put key value).get? other = if other = key then some value else m.get? other := by
  by_cases present : key ∈ m.keys
  · have written := lookup_overwrite key other value m.entries
    simp only [put, present, ↓reduceDIte, get?]
    rw [written]
    have listed : key ∈ m.entries.map Prod.fst := present
    simp only [listed, and_true]
  · simp only [put, present, ↓reduceDIte, get?]
    exact lookup_append_single key other value m.entries present

theorem entries_put_of_mem {m : AssocMap κ υ} {key : κ} (present : key ∈ m.keys) (value : υ) :
    (m.put key value).entries =
      m.entries.map fun entry => if entry.1 = key then (key, value) else entry := by
  simp only [put, present, ↓reduceDIte]

/-- Writing a key that is mapped changes its entry where it stands. -/
theorem entries_put_of_get? {m : AssocMap κ υ} {key : κ} {old : υ} (found : m.get? key = some old)
    (value : υ) : ∃ before after, m.entries = before ++ (key, old) :: after ∧
      (m.put key value).entries = before ++ (key, value) :: after := by
  have listed := mem_of_get?_eq_some found
  obtain ⟨before, after, split⟩ := List.append_of_mem listed
  have present : key ∈ m.keys := List.mem_map_of_mem listed
  have once := m.nodup
  rw [split, List.map_append, List.map_cons, List.nodup_append, List.nodup_cons] at once
  obtain ⟨_, ⟨notAfter, _⟩, apart⟩ := once
  have others : ∀ part : List (κ × υ), (∀ entry ∈ part, entry.1 ≠ key) →
      (part.map fun entry => if entry.1 = key then (key, value) else entry) = part := by
    intro part elsewhere
    calc part.map (fun entry => if entry.1 = key then (key, value) else entry)
        = part.map id := List.map_congr_left fun entry member => if_neg (elsewhere entry member)
      _ = part := List.map_id part
  refine ⟨before, after, split, ?_⟩
  rw [entries_put_of_mem present, split, List.map_append, List.map_cons, if_pos rfl,
    others before, others after]
  · intro entry later same
    exact notAfter (List.mem_map.mpr ⟨entry, later, same⟩)
  · exact fun entry earlier =>
      apart entry.1 (List.mem_map_of_mem earlier) key List.mem_cons_self

theorem entries_put_of_not_mem {m : AssocMap κ υ} {key : κ} (fresh : key ∉ m.keys) (value : υ) :
    (m.put key value).entries = m.entries ++ [(key, value)] := by
  simp only [put, fresh, ↓reduceDIte]

theorem keys_put_of_mem {m : AssocMap κ υ} {key : κ} (present : key ∈ m.keys) (value : υ) :
    (m.put key value).keys = m.keys := by
  simp only [put, present, ↓reduceDIte]
  exact overwrite_keys key value m.entries

theorem keys_put_of_not_mem {m : AssocMap κ υ} {key : κ} (fresh : key ∉ m.keys) (value : υ) :
    (m.put key value).keys = m.keys ++ [key] := by
  simp only [put, fresh, ↓reduceDIte]
  exact List.map_append

omit [DecidableEq κ] in
theorem keys_filterKeys (m : AssocMap κ υ) (keep : κ → Bool) :
    (m.filterKeys keep).keys = m.keys.filter keep :=
  List.filter_map.symm

/-- A filtered map keeps the values of the keys that pass. -/
theorem get?_filterKeys (m : AssocMap κ υ) (keep : κ → Bool) (key : κ) :
    (m.filterKeys keep).get? key = if keep key then m.get? key else none := by
  cases found : (m.filterKeys keep).get? key with
  | some value =>
      have member := get?_eq_some_iff.mp found
      obtain ⟨listed, kept⟩ := List.mem_filter.mp member
      rw [if_pos kept]
      exact (get?_eq_some_iff.mpr listed).symm
  | none =>
      by_cases kept : keep key = true
      · rw [if_pos kept]
        cases listed : m.get? key with
        | none => rfl
        | some value =>
            have member := get?_eq_some_iff.mp listed
            have survives : (key, value) ∈ (m.filterKeys keep).entries :=
              List.mem_filter.mpr ⟨member, kept⟩
            rw [get?_eq_some_iff.mpr survives] at found
            cases found
      · rw [if_neg kept]

theorem get?_remove (m : AssocMap κ υ) (key other : κ) :
    (m.remove key).get? other = if other = key then none else m.get? other := by
  unfold remove
  rw [get?_filterKeys]
  by_cases same : other = key
  · simp [same]
  · simp [same]

theorem get?_putIfAbsent (m : AssocMap κ υ) (key other : κ) (value : υ) :
    (m.putIfAbsent key value).get? other = (m.get? other).or (if other = key then some value
      else none) := by
  unfold putIfAbsent
  by_cases present : m.containsKey key
  · simp only [present, ↓reduceIte]
    by_cases same : other = key
    · subst other
      obtain ⟨found, read⟩ := Option.isSome_iff_exists.mp
        (isSome_get?_iff.mpr (containsKey_iff.mp present))
      simp only [read, Option.some_or]
    · simp only [same, ↓reduceIte, Option.or_none]
  · simp only [present, Bool.false_eq_true, ↓reduceIte, get?_put]
    by_cases same : other = key
    · subst same
      have absent : m.get? other = none :=
        get?_eq_none_iff.mpr fun member => present (containsKey_iff.mpr member)
      simp only [↓reduceIte, absent, Option.none_or]
    · simp only [same, ↓reduceIte, Option.or_none]

/-- Writing entries one after another. -/
def putAll (m : AssocMap κ υ) (written : List (κ × υ)) : AssocMap κ υ :=
  written.foldl (fun current entry => current.put entry.1 entry.2) m

/-- Writing entries one after another, keeping the first of a key. -/
def putAllIfAbsent (m : AssocMap κ υ) (written : List (κ × υ)) : AssocMap κ υ :=
  written.foldl (fun current entry => current.putIfAbsent entry.1 entry.2) m

/-- The last write of a key counts. -/
theorem get?_putAll (m : AssocMap κ υ) (written : List (κ × υ)) (key : κ) :
    (m.putAll written).get? key = (written.reverse.lookup key).or (m.get? key) := by
  induction written generalizing m with
  | nil => simp [putAll]
  | cons entry rest ih =>
      obtain ⟨first, content⟩ := entry
      have unfolded : m.putAll ((first, content) :: rest) = (m.put first content).putAll rest :=
        rfl
      have split : (rest.reverse ++ [(first, content)]).lookup key =
          (rest.reverse.lookup key).or ([(first, content)].lookup key) := List.lookup_append
      rw [unfolded, ih, List.reverse_cons, split, get?_put, Option.or_assoc, lookup_cons_eq,
        List.lookup_nil]
      by_cases same : key = first
      · simp only [same, ↓reduceIte, Option.some_or]
      · simp only [same, ↓reduceIte, Option.none_or]

/-- A lookup after writing entries reads one of them, or the old map at a key none has. -/
theorem get?_putAll_cases (m : AssocMap κ υ) (written : List (κ × υ)) (key : κ) :
    (∃ value, (key, value) ∈ written ∧ (m.putAll written).get? key = some value) ∨
      (∀ value, (key, value) ∉ written) ∧ (m.putAll written).get? key = m.get? key := by
  rw [get?_putAll]
  cases found : written.reverse.lookup key with
  | some value =>
      exact .inl ⟨value, List.mem_reverse.mp (mem_of_lookup_eq_some found), Option.some_or⟩
  | none =>
      refine .inr ⟨fun value member => ?_, Option.none_or⟩
      have absent := List.lookup_eq_none_iff.mp found _ (List.mem_reverse.mpr member)
      simp at absent

/-- Entries of distinct keys are written one behind the other. -/
theorem entries_putAll_of_nodup {written : List (κ × υ)} (m : AssocMap κ υ)
    (distinct : ((m.entries ++ written).map Prod.fst).Nodup) :
    (m.putAll written).entries = m.entries ++ written := by
  induction written generalizing m with
  | nil => exact (List.append_nil _).symm
  | cons entry rest ih =>
      have fresh : entry.1 ∉ m.keys := by
        rw [List.map_append, List.map_cons, List.nodup_middle, List.nodup_cons] at distinct
        exact fun listed => distinct.1 (List.mem_append_left _ listed)
      have placed := entries_put_of_not_mem fresh entry.2
      have again := ih (m.put entry.1 entry.2) (by
        rw [placed, List.append_assoc]
        exact distinct)
      change ((m.put entry.1 entry.2).putAll rest).entries = _
      rw [again, placed, List.append_assoc]
      rfl

/-- Writing the entries of a map with their values changed. -/
theorem get?_putAll_map {ω : Type v} (m : AssocMap κ ω) (source : AssocMap κ υ) (change : υ → ω)
    (key : κ) :
    (m.putAll (source.entries.map fun entry => (entry.1, change entry.2))).get? key =
      ((source.get? key).map change).or (m.get? key) := by
  rcases get?_putAll_cases m (source.entries.map fun entry => (entry.1, change entry.2)) key with
    ⟨value, written, read⟩ | ⟨unwritten, read⟩
  · obtain ⟨⟨other, old⟩, listed, same⟩ := List.mem_map.mp written
    cases same
    rw [read, get?_eq_some_iff.mpr listed]
    rfl
  · have absent : source.get? key = none := by
      apply get?_eq_none_iff.mpr
      intro listed
      obtain ⟨⟨other, old⟩, member, same⟩ := List.mem_map.mp listed
      cases same
      exact unwritten (change old) (List.mem_map.mpr ⟨_, member, rfl⟩)
    rw [read, absent]
    rfl

/-- Whatever is read from written entries is one of them. -/
theorem mem_of_get?_putAll {written : List (κ × υ)} {key : κ} {value : υ}
    (found : ((∅ : AssocMap κ υ).putAll written).get? key = some value) :
    (key, value) ∈ written := by
  rw [get?_putAll, get?_empty, Option.or_none] at found
  exact List.mem_reverse.mp (mem_of_lookup_eq_some found)

/-- A key among written entries is mapped. -/
theorem isSome_get?_putAll {written : List (κ × υ)} {key : κ} {value : υ}
    (member : (key, value) ∈ written) :
    (((∅ : AssocMap κ υ).putAll written).get? key).isSome = true := by
  rw [get?_putAll, get?_empty, Option.or_none, List.lookup_isSome_iff]
  exact ⟨(key, value), List.mem_reverse.mpr member, beq_self_eq_true key⟩

/-- The first write of a key counts. -/
theorem get?_putAllIfAbsent (m : AssocMap κ υ) (written : List (κ × υ)) (key : κ) :
    (m.putAllIfAbsent written).get? key = (m.get? key).or (written.lookup key) := by
  induction written generalizing m with
  | nil => simp [putAllIfAbsent]
  | cons entry rest ih =>
      obtain ⟨first, content⟩ := entry
      have unfolded : m.putAllIfAbsent ((first, content) :: rest) =
          (m.putIfAbsent first content).putAllIfAbsent rest := rfl
      rw [unfolded, ih, get?_putIfAbsent, Option.or_assoc, lookup_cons_eq]
      by_cases same : key = first
      · simp only [same, ↓reduceIte, Option.some_or]
      · simp only [same, ↓reduceIte, Option.none_or]

end AssocMap

end Foundation

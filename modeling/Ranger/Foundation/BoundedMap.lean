import Ranger.Foundation.AssocMap

/-! # Bounded maps in access order

A map that keeps its entries in the order of their last access, eldest first,
and drops the eldest entry when an insertion exceeds its capacity.
-/

namespace Foundation

universe u v

/-- A map of at most `capacity` entries, the least recently accessed first. -/
structure BoundedMap (κ : Type u) (υ : Type v) where
  capacity : Nat
  entries : List (κ × υ)
  nodup : (entries.map Prod.fst).Nodup
  bounded : entries.length ≤ capacity

namespace BoundedMap

variable {κ : Type u} {υ : Type v}

def keys (m : BoundedMap κ υ) : List κ := m.entries.map Prod.fst

/-- The map of the given capacity without entries. -/
def ofCapacity (capacity : Nat) : BoundedMap κ υ :=
  ⟨capacity, [], List.nodup_nil, Nat.zero_le _⟩

variable [DecidableEq κ]

/-- Whether a key is mapped. The order of access stays as it is. -/
def containsKey (m : BoundedMap κ υ) (key : κ) : Bool := decide (key ∈ m.keys)

/-- The entries of the other keys. -/
def others (m : BoundedMap κ υ) (key : κ) : List (κ × υ) :=
  m.entries.filter fun entry => entry.1 ≠ key

theorem key_not_mem_others (m : BoundedMap κ υ) (key : κ) :
    key ∉ (m.others key).map Prod.fst := by
  intro member
  obtain ⟨entry, kept, same⟩ := List.mem_map.mp member
  have different : entry.1 ≠ key := by simpa only [others, List.mem_filter, decide_eq_true_eq]
    using (List.mem_filter.mp kept).2
  exact different same

theorem length_others_lt (m : BoundedMap κ υ) {key : κ} (present : key ∈ m.keys) :
    (m.others key).length < m.entries.length := by
  obtain ⟨entry, member, same⟩ := List.mem_map.mp present
  exact List.length_filter_lt_length_iff_exists.mpr
    ⟨entry, member, by simpa only [ne_eq, decide_eq_true_eq, Decidable.not_not] using same⟩

/-- Make an entry of a mapped key the most recent one. -/
def renew (m : BoundedMap κ υ) (key : κ) (value : υ) (present : key ∈ m.keys) :
    BoundedMap κ υ where
  capacity := m.capacity
  entries := m.others key ++ [(key, value)]
  nodup := by
    rw [List.map_append, List.map_singleton, ← List.concat_eq_append]
    exact (m.nodup.sublist (List.filter_sublist.map _)).concat (m.key_not_mem_others key)
  bounded := by
    have fewer := m.length_others_lt present
    have within := m.bounded
    simp only [List.length_append, List.length_singleton]
    omega

omit [DecidableEq κ] in
theorem mem_keys_of_mem {m : BoundedMap κ υ} {entry : κ × υ} (member : entry ∈ m.entries) :
    entry.1 ∈ m.keys := List.mem_map.mpr ⟨entry, member, rfl⟩

theorem mem_keys_of_lookup {m : BoundedMap κ υ} {key : κ} {value : υ}
    (found : m.entries.lookup key = some value) : key ∈ m.keys :=
  mem_keys_of_mem (mem_of_lookup_eq_some found)

/-- Read a key. A key that is mapped becomes the most recently accessed one. -/
def get (m : BoundedMap κ υ) (key : κ) : Option υ × BoundedMap κ υ :=
  match found : m.entries.lookup key with
  | none => (none, m)
  | some value => (some value, m.renew key value (mem_keys_of_lookup found))

/-- Insert an entry for a key that is not mapped, dropping the eldest entry when
the capacity is exceeded. -/
def insert (m : BoundedMap κ υ) (key : κ) (value : υ) (fresh : key ∉ m.keys) :
    BoundedMap κ υ where
  capacity := m.capacity
  entries := if m.capacity < m.entries.length + 1 then (m.entries ++ [(key, value)]).tail
    else m.entries ++ [(key, value)]
  nodup := by
    have grown : ((m.entries ++ [(key, value)]).map Prod.fst).Nodup := by
      rw [List.map_append, List.map_singleton, ← List.concat_eq_append]
      exact m.nodup.concat fresh
    split
    · exact grown.sublist ((List.tail_sublist _).map _)
    · exact grown
  bounded := by
    have within := m.bounded
    split
    · simp only [List.length_tail, List.length_append, List.length_singleton]
      omega
    · simp only [List.length_append, List.length_singleton]
      omega

/-- Map a key to a value. The key becomes the most recently accessed one; only
an insertion can evict. -/
def put (m : BoundedMap κ υ) (key : κ) (value : υ) : BoundedMap κ υ :=
  if present : key ∈ m.keys then m.renew key value present else m.insert key value present

theorem containsKey_iff {m : BoundedMap κ υ} {key : κ} : m.containsKey key ↔ key ∈ m.keys :=
  decide_eq_true_iff

/-- Every entry after an access of a mapped key was there or is the new one. -/
theorem mem_renew {m : BoundedMap κ υ} {key : κ} {value : υ} (present : key ∈ m.keys)
    {entry : κ × υ} (member : entry ∈ (m.renew key value present).entries) :
    entry ∈ m.entries ∨ entry = (key, value) := by
  rcases List.mem_append.mp member with kept | last
  · exact Or.inl (List.mem_filter.mp kept).1
  · exact Or.inr (List.mem_singleton.mp last)

/-- Every entry after a write was there or is the written one. -/
theorem mem_put {m : BoundedMap κ υ} {key : κ} {value : υ} {entry : κ × υ}
    (member : entry ∈ (m.put key value).entries) : entry ∈ m.entries ∨ entry = (key, value) := by
  unfold put at member
  split at member
  · next present => exact mem_renew present member
  · have grown : entry ∈ m.entries ++ [(key, value)] := by
      simp only [insert] at member
      split at member
      · exact List.mem_of_mem_tail member
      · exact member
    rcases List.mem_append.mp grown with kept | last
    · exact Or.inl kept
    · exact Or.inr (List.mem_singleton.mp last)

/-- A map with room keeps every entry when a new key is written. -/
theorem entries_put_of_room {m : BoundedMap κ υ} {key : κ} (value : υ) (fresh : key ∉ m.keys)
    (room : m.entries.length < m.capacity) :
    (m.put key value).entries = m.entries ++ [(key, value)] := by
  have fits : ¬ m.capacity < m.entries.length + 1 := by omega
  simp only [put, fresh, ↓reduceDIte, insert, fits, ↓reduceIte]

@[simp] theorem capacity_put (m : BoundedMap κ υ) (key : κ) (value : υ) :
    (m.put key value).capacity = m.capacity := by
  unfold put
  split <;> rfl

@[simp] theorem capacity_get (m : BoundedMap κ υ) (key : κ) :
    (m.get key).2.capacity = m.capacity := by
  unfold get
  split <;> rfl

/-- What a read answers and which map it leaves. -/
theorem get_cases (m : BoundedMap κ υ) (key : κ) :
    (key ∉ m.keys ∧ m.get key = (none, m)) ∨
      ∃ value, ∃ present : key ∈ m.keys,
        (key, value) ∈ m.entries ∧ m.get key = (some value, m.renew key value present) := by
  unfold get
  split
  · next missing =>
      refine Or.inl ⟨fun member => ?_, rfl⟩
      obtain ⟨entry, listed, same⟩ := List.mem_map.mp member
      have differs := List.lookup_eq_none_iff.mp missing entry listed
      rw [same] at differs
      exact bne_iff_ne.mp differs rfl
  · next value found =>
      exact Or.inr ⟨value, mem_keys_of_lookup found, mem_of_lookup_eq_some found, rfl⟩

/-- Every entry after a read was there before. -/
theorem mem_get {m : BoundedMap κ υ} {key : κ} {entry : κ × υ}
    (member : entry ∈ (m.get key).2.entries) : entry ∈ m.entries := by
  obtain ⟨_, read⟩ | ⟨value, present, listed, read⟩ := m.get_cases key
  · rwa [read] at member
  · rw [read] at member
    rcases mem_renew present member with kept | fresh
    · exact kept
    · exact fresh ▸ listed

/-- A read keeps the keys that are mapped. -/
theorem mem_keys_get_iff {m : BoundedMap κ υ} {key other : κ} :
    other ∈ (m.get key).2.keys ↔ other ∈ m.keys := by
  constructor
  · intro member
    obtain ⟨entry, listed, same⟩ := List.mem_map.mp member
    exact same ▸ mem_keys_of_mem (mem_get listed)
  · intro member
    obtain ⟨_, read⟩ | ⟨value, present, _, read⟩ := m.get_cases key
    · rwa [read]
    · rw [read]
      have renewed : (m.renew key value present).keys =
          (m.others key).map Prod.fst ++ [key] := by
        simp only [keys, renew, List.map_append, List.map_singleton]
      rw [renewed]
      by_cases same : other = key
      · exact List.mem_append_right _ (List.mem_singleton.mpr same)
      · obtain ⟨entry, listed, named⟩ := List.mem_map.mp member
        have kept : entry ∈ m.others key := by
          refine List.mem_filter.mpr ⟨listed, ?_⟩
          simpa only [ne_eq, decide_eq_true_eq, named] using same
        exact List.mem_append_left _ (List.mem_map.mpr ⟨entry, kept, named⟩)

theorem length_get (m : BoundedMap κ υ) (key : κ) :
    (m.get key).2.entries.length ≤ m.entries.length := by
  obtain ⟨_, read⟩ | ⟨value, present, _, read⟩ := m.get_cases key
  · exact Nat.le_of_eq (congrArg (fun answer => answer.2.entries.length) read)
  · have fewer := m.length_others_lt present
    rw [read]
    simp only [renew, List.length_append, List.length_singleton]
    omega

end BoundedMap

end Foundation

import Mathlib.Data.List.Sort
import Ranger.Admin.PolicyValidator

/-! # What a resource signature tells apart

Policies with the same resources have the same signature, as long as no value is
repeated: the values of a level are written in their order, and so are the levels.
-/

namespace Ranger

open Foundation

section Order

theorem code_lt (char : Char) :
    char.toNat < 0xD800 ∨ 0xDFFF < char.toNat ∧ char.toNat < 0x110000 := char.valid

/-- The units of a character are told apart from those of the ones behind it. -/
theorem codeUnits_append_inj {first second : Char} {rest others : List Nat}
    (same : codeUnits first ++ rest = codeUnits second ++ others) :
    first = second ∧ rest = others := by
  have codes : first.toNat = second.toNat → first = second := Char.toNat_inj.mp
  have boundFirst := code_lt first
  have boundSecond := code_lt second
  unfold codeUnits at same
  dsimp only at same
  split at same
  · split at same
    · simp only [List.cons_append, List.nil_append, List.cons.injEq] at same
      exact ⟨codes same.1, same.2⟩
    · simp only [List.cons_append, List.nil_append, List.cons.injEq] at same
      omega
  · split at same
    · simp only [List.cons_append, List.nil_append, List.cons.injEq] at same
      omega
    · simp only [List.cons_append, List.nil_append, List.cons.injEq] at same
      exact ⟨codes (by omega), same.2.2⟩

theorem codeUnits_ne_nil (char : Char) : codeUnits char ≠ [] := by
  unfold codeUnits
  dsimp only
  split <;> exact List.cons_ne_nil _ _

/-- Texts with the same units are the same. -/
theorem eq_of_codeUnits {first second : List Char}
    (same : first.flatMap codeUnits = second.flatMap codeUnits) : first = second := by
  induction first generalizing second with
  | nil =>
      cases second with
      | nil => rfl
      | cons char rest =>
          rw [List.flatMap_nil, List.flatMap_cons, eq_comm, List.append_eq_nil_iff] at same
          exact absurd same.1 (codeUnits_ne_nil char)
  | cons char rest ih =>
      cases second with
      | nil =>
          rw [List.flatMap_nil, List.flatMap_cons, List.append_eq_nil_iff] at same
          exact absurd same.1 (codeUnits_ne_nil char)
      | cons other others =>
          rw [List.flatMap_cons, List.flatMap_cons] at same
          obtain ⟨rfl, tails⟩ := codeUnits_append_inj same
          rw [ih tails]

theorem precedes_antisymm {first second : String} (before : precedes first second = true)
    (after : precedes second first = true) : first = second := by
  have same := le_antisymm (of_decide_eq_true before) (of_decide_eq_true after)
  exact String.toList_inj.mp (eq_of_codeUnits same)

theorem precedes_total (first second : String) :
    precedes first second = true ∨ precedes second first = true :=
  (le_total (first.toList.flatMap codeUnits) (second.toList.flatMap codeUnits)).imp
    decide_eq_true decide_eq_true

theorem precedes_trans {first second third : String} (before : precedes first second = true)
    (after : precedes second third = true) : precedes first third = true :=
  decide_eq_true (le_trans (of_decide_eq_true before) (of_decide_eq_true after))

instance : Std.Total fun first second : String => precedes first second = true :=
  ⟨precedes_total⟩

instance : IsTrans String fun first second => precedes first second = true :=
  ⟨fun _ _ _ => precedes_trans⟩

instance {β : Type} : Std.Total fun first second : String × β =>
    precedes first.1 second.1 = true := ⟨fun first second => precedes_total first.1 second.1⟩

instance {β : Type} : IsTrans (String × β) fun first second => precedes first.1 second.1 = true :=
  ⟨fun _ _ _ => precedes_trans⟩

end Order

/-- The same resource names with the same set of values and the same flags. -/
def SameResources (first second : AssocMap String RangerPolicyResource) : Prop :=
  (∀ name, name ∈ first.keys ↔ name ∈ second.keys) ∧
    ∀ name resource other, first.get? name = some resource → second.get? name = some other →
      (∀ value, value ∈ resource.values ↔ value ∈ other.values) ∧
        resource.isExcludes = other.isExcludes ∧ resource.isRecursive = other.isRecursive

/-- No level names a value twice. -/
def NoRepeats (resources : AssocMap String RangerPolicyResource) : Prop :=
  ∀ entry ∈ resources.entries, entry.2.values.Nodup

/-- What there is to compare of two resource maps. -/
theorem sameResources_iff {first second : AssocMap String RangerPolicyResource} :
    SameResources first second ↔
      (∀ name ∈ first.keys, name ∈ second.keys) ∧ (∀ name ∈ second.keys, name ∈ first.keys) ∧
        ∀ entry ∈ first.entries, ∀ other ∈ second.entries, entry.1 = other.1 →
          (entry.2.values ⊆ other.2.values ∧ other.2.values ⊆ entry.2.values) ∧
            entry.2.isExcludes = other.2.isExcludes ∧
            entry.2.isRecursive = other.2.isRecursive := by
  constructor
  · rintro ⟨keys, levels⟩
    refine ⟨fun name => (keys name).mp, fun name => (keys name).mpr, ?_⟩
    rintro ⟨name, resource⟩ listed ⟨_, other⟩ listedOther rfl
    obtain ⟨values, flags⟩ := levels name resource other (AssocMap.get?_eq_some_iff.mpr listed)
      (AssocMap.get?_eq_some_iff.mpr listedOther)
    exact ⟨⟨fun value => (values value).mp, fun value => (values value).mpr⟩, flags⟩
  · rintro ⟨forth, back, levels⟩
    refine ⟨fun name => ⟨forth name, back name⟩, fun name resource other found foundOther => ?_⟩
    obtain ⟨⟨values, valuesBack⟩, flags⟩ := levels _ (AssocMap.get?_eq_some_iff.mp found) _
      (AssocMap.get?_eq_some_iff.mp foundOther) rfl
    exact ⟨fun value => ⟨fun of => values of, fun of => valuesBack of⟩, flags⟩

instance (first second : AssocMap String RangerPolicyResource) :
    Decidable (SameResources first second) := decidable_of_iff' _ sameResources_iff

instance (resources : AssocMap String RangerPolicyResource) : Decidable (NoRepeats resources) :=
  inferInstanceAs (Decidable (∀ entry ∈ resources.entries, entry.2.values.Nodup))

theorem SameResources.symm {first second : AssocMap String RangerPolicyResource}
    (same : SameResources first second) : SameResources second first := by
  refine ⟨fun name => (same.1 name).symm, fun name resource other found foundOther => ?_⟩
  obtain ⟨values, excludes, recursive⟩ := same.2 name other resource foundOther found
  exact ⟨fun value => (values value).symm, excludes.symm, recursive.symm⟩

/-- The same resource names with the same values up to order and the same flags. -/
def SameUpToOrder (first second : AssocMap String RangerPolicyResource) : Prop :=
  (∀ name, name ∈ first.keys ↔ name ∈ second.keys) ∧
    ∀ name resource other, first.get? name = some resource → second.get? name = some other →
      resource.values.Perm other.values ∧
        resource.isExcludes = other.isExcludes ∧ resource.isRecursive = other.isRecursive

theorem SameUpToOrder.symm {first second : AssocMap String RangerPolicyResource}
    (same : SameUpToOrder first second) : SameUpToOrder second first := by
  refine ⟨fun name => (same.1 name).symm, fun name resource other found foundOther => ?_⟩
  obtain ⟨values, excludes, recursive⟩ := same.2 name other resource foundOther found
  exact ⟨values.symm, excludes.symm, recursive.symm⟩

/-- Without repeated values the order is all that the same sets of values leave open. -/
theorem SameResources.upToOrder {first second : AssocMap String RangerPolicyResource}
    (distinct : NoRepeats first) (distinctOther : NoRepeats second)
    (same : SameResources first second) : SameUpToOrder first second := by
  refine ⟨same.1, fun name resource other found foundOther => ?_⟩
  obtain ⟨values, flags⟩ := same.2 name resource other found foundOther
  refine ⟨(List.perm_ext_iff_of_nodup ?_ ?_).mpr values, flags⟩
  · exact distinct _ (AssocMap.get?_eq_some_iff.mp found)
  · exact distinctOther _ (AssocMap.get?_eq_some_iff.mp foundOther)

def sortedValues (values : List String) : List String :=
  values.insertionSort fun first second => precedes first second

theorem sortedValues_eq_of_perm {values others : List String} (shuffled : values.Perm others) :
    sortedValues values = sortedValues others := by
  refine List.Perm.eq_of_pairwise (fun first second _ _ before after =>
    precedes_antisymm before after) (List.pairwise_insertionSort _ _)
    (List.pairwise_insertionSort _ _) ?_
  exact (List.perm_insertionSort _ _).trans (shuffled.trans (List.perm_insertionSort _ _).symm)

/-- The levels of a policy in the order of their names. -/
def levels (policy : RangerPolicy) : List (String × RangerPolicyResource) :=
  policy.resources.entries.insertionSort fun first second => precedes first.1 second.1

theorem levels_perm (policy : RangerPolicy) :
    (levels policy).Perm policy.resources.entries := List.perm_insertionSort _ _

theorem getResourceString_eq (policy : RangerPolicy) :
    getResourceString policy =
      mapText ((levels policy).map fun entry => (entry.1, resourceViewText entry.2)) := by
  have sorts := List.map_insertionSort (fun first second => precedes first.1 second.1 = true)
    (fun first second : String × String => precedes first.1 second.1 = true)
    (fun entry : String × RangerPolicyResource => (entry.1, resourceViewText entry.2))
    policy.resources.entries
  unfold getResourceString levels
  rw [sorts fun _ _ _ _ => Iff.rfl]

/-- What a signature is made of: the names of the levels, each with its values in their
order and its flags. -/
def levelKey (entry : String × RangerPolicyResource) : String × List String × Bool × Bool :=
  (entry.1, sortedValues entry.2.values, entry.2.isExcludes, entry.2.isRecursive)

theorem levelKeys_eq_of_same {policy other : RangerPolicy}
    (same : SameUpToOrder policy.resources other.resources) :
    (levels policy).map levelKey = (levels other).map levelKey := by
  have keys : ∀ {first second : RangerPolicy}, SameUpToOrder first.resources second.resources →
      ∀ key ∈ (levels first).map levelKey, key ∈ (levels second).map levelKey := by
    intro first second same key listed
    obtain ⟨⟨name, resource⟩, stored, rfl⟩ := List.mem_map.mp listed
    have found := AssocMap.get?_eq_some_iff.mpr ((levels_perm first).mem_iff.mp stored)
    have used := (same.1 name).mp (AssocMap.isSome_get?_iff.mp (by rw [found]; rfl))
    obtain ⟨counterpart, foundOther⟩ :=
      Option.isSome_iff_exists.mp (AssocMap.isSome_get?_iff.mpr used)
    obtain ⟨values, excludes, recursive⟩ := same.2 name resource counterpart found foundOther
    have storedOther := (levels_perm second).mem_iff.mpr (AssocMap.get?_eq_some_iff.mp foundOther)
    refine List.mem_map.mpr ⟨_, storedOther, ?_⟩
    simp only [levelKey, sortedValues_eq_of_perm values, excludes, recursive]
  have named : ∀ policy : RangerPolicy, (((levels policy).map levelKey).map Prod.fst).Nodup := by
    intro policy
    rw [List.map_map]
    exact ((levels_perm policy).map Prod.fst).nodup_iff.mpr policy.resources.nodup
  have sorted : ∀ policy : RangerPolicy, ((levels policy).map levelKey).Pairwise
      fun first second => precedes first.1 second.1 = true :=
    fun policy => List.pairwise_map.mpr (List.pairwise_insertionSort
      (fun first second : String × RangerPolicyResource => precedes first.1 second.1 = true) _)
  have shuffled : ((levels policy).map levelKey).Perm ((levels other).map levelKey) :=
    (List.perm_ext_iff_of_nodup (named _).of_map (named _).of_map).mpr fun key =>
      ⟨keys same key, keys same.symm key⟩
  refine List.Perm.eq_of_pairwise (fun first second listed listedOther before after => ?_)
    (sorted policy) (sorted other) shuffled
  exact List.inj_on_of_nodup_map (named policy) listed (shuffled.mem_iff.mpr listedOther)
    (precedes_antisymm before after)

/-- Policies with the same names, the same values up to order and the same flags have the
same signature text. -/
theorem getResourceString_eq_of_same {policy other : RangerPolicy}
    (same : SameUpToOrder policy.resources other.resources) :
    getResourceString policy = getResourceString other := by
  let text := fun key : String × List String × Bool × Bool =>
    (key.1, "\x7bvalues=" ++ listText key.2.1 ++ ",excludes=" ++ boolText key.2.2.1 ++
      ",recursive=" ++ boolText key.2.2.2 ++ "\x7d")
  have byKey : ∀ policy : RangerPolicy, getResourceString policy =
      mapText (((levels policy).map levelKey).map text) := by
    intro policy
    rw [getResourceString_eq, List.map_map]
    rfl
  rw [byKey, byKey, levelKeys_eq_of_same same]

/-- **Equal resources, equal signatures.** Policies with the same resources have the
same signature when no value is repeated. -/
theorem resourceSignature_eq_of_same [Platform] {policy other : RangerPolicy}
    (distinct : NoRepeats policy.resources) (distinctOther : NoRepeats other.resources)
    (same : SameResources policy.resources other.resources) :
    resourceSignature policy = resourceSignature other :=
  congrArg Platform.md5Hex
    (getResourceString_eq_of_same (same.upToOrder distinct distinctOther))

end Ranger

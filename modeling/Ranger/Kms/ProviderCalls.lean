import Ranger.Kms.KeyStoreProvider

/-! # What the calls of a provider do

Each call either leaves the key store as it is, or sets the entry of one alias, or takes
out the entries of one key. The lemmas say which, and how the cache follows.
-/

namespace Ranger

open Foundation

namespace RangerKeyStoreProvider

open KeyProvider RangerKeyStore

variable [Platform] {provider : RangerKeyStoreProvider} {name : String}

theorem contains_iff {keyAlias : String} :
    provider.contains keyAlias = true ↔
      (provider.entries.get? (convertAlias keyAlias)).isSome = true := by
  unfold contains engineContainsAlias
  rw [AssocMap.containsKey_iff, AssocMap.isSome_get?_iff]

theorem get?_of_not_contains {keyAlias : String} (absent : provider.contains keyAlias = false) :
    provider.entries.get? (convertAlias keyAlias) = none := by
  apply Option.not_isSome_iff_eq_none.mp
  rw [← contains_iff, absent]
  exact Bool.false_ne_true

section Congruence

variable {reloaded : RangerKeyStoreProvider}

theorem contains_congr (same : ∀ keyAlias, provider.entries.get? keyAlias =
    reloaded.entries.get? keyAlias) (keyAlias : String) :
    provider.contains keyAlias = reloaded.contains keyAlias := by
  rw [Bool.eq_iff_iff, contains_iff, contains_iff, same]

theorem getKeyVersion_congr (same : ∀ keyAlias, provider.entries.get? keyAlias =
    reloaded.entries.get? keyAlias) (masterKey : provider.masterKey = reloaded.masterKey)
    (versionName : String) :
    provider.getKeyVersion versionName = reloaded.getKeyVersion versionName := by
  unfold getKeyVersion engineGetKey
  rw [contains_congr same, same, masterKey]

end Congruence

section Metadata

/-- The provider with metadata in its cache. -/
def cached (provider : RangerKeyStoreProvider) (name : String) (metadata : Metadata) :
    RangerKeyStoreProvider :=
  { provider with cache := provider.cache.put name metadata }

/-- The metadata is in the cache, or put there from the key store, or there is none. -/
theorem getMetadata_cases (provider : RangerKeyStoreProvider) (name : String) :
    (∃ metadata, provider.cache.get? name = some metadata ∧
        provider.getMetadata name = (.ok (some metadata), provider)) ∨
      provider.cache.get? name = none ∧
        ((∃ entry metadata, provider.entries.get? (convertAlias name) = some entry ∧
            entry.sealedKey = ⟨.keyMetadata metadata, provider.masterKey⟩ ∧
            provider.getMetadata name = (.ok (some metadata), provider.cached name metadata)) ∨
          (provider.contains name = false ∧ provider.getMetadata name = (.ok none, provider)) ∨
          ∃ error, provider.getMetadata name = (.error error, provider)) := by
  unfold getMetadata
  cases known : provider.cache.get? name with
  | some metadata => exact .inl ⟨metadata, rfl, rfl⟩
  | none =>
      refine .inr ⟨rfl, ?_⟩
      cases present : provider.contains name with
      | false => exact .inr (.inl ⟨rfl, rfl⟩)
      | true =>
          obtain ⟨entry, found⟩ := Option.isSome_iff_exists.mp (contains_iff.mp present)
          unfold engineGetKey
          simp only [found, ↓reduceIte]
          by_cases own : entry.sealedKey.password = provider.masterKey
          · rw [if_pos own]
            cases key : entry.sealedKey.key with
            | secretKeySpec material algorithm => exact .inr (.inr ⟨_, rfl⟩)
            | keyMetadata metadata =>
                refine .inl ⟨entry, metadata, rfl, ?_, rfl⟩
                rw [← key, ← own]
          · rw [if_neg own]
            exact .inr (.inr ⟨_, rfl⟩)

/-- What a look at the metadata of a key changes: it may be in the cache from then on. -/
structure Looked (name : String) (before after : RangerKeyStoreProvider) : Prop where
  entries : after.entries = before.entries
  table : after.table = before.table
  masterKey : after.masterKey = before.masterKey
  changed : after.changed = before.changed
  cache : after.cache = before.cache ∨ before.cache.get? name = none ∧
    ∃ entry metadata, before.entries.get? (convertAlias name) = some entry ∧
      entry.sealedKey = ⟨.keyMetadata metadata, before.masterKey⟩ ∧
      after.cache = before.cache.put name metadata

theorem getMetadata_looked (provider : RangerKeyStoreProvider) (name : String) :
    Looked name provider (provider.getMetadata name).2 := by
  rcases getMetadata_cases provider name with
    ⟨metadata, _, same⟩ | ⟨fresh, ⟨entry, metadata, found, sealedKey, same⟩ | ⟨_, same⟩ | ⟨_, same⟩⟩
  · rw [same]
    exact ⟨rfl, rfl, rfl, rfl, .inl rfl⟩
  · rw [same]
    exact ⟨rfl, rfl, rfl, rfl, .inr ⟨fresh, entry, metadata, found, sealedKey, rfl⟩⟩
  · rw [same]
    exact ⟨rfl, rfl, rfl, rfl, .inl rfl⟩
  · rw [same]
    exact ⟨rfl, rfl, rfl, rfl, .inl rfl⟩

/-- The metadata of a key, if it is found. -/
def metadata? (provider : RangerKeyStoreProvider) (name : String) : Option Metadata :=
  (provider.getMetadata name).1.toOption.join

theorem metadata?_eq_some_iff {metadata : Metadata} :
    provider.metadata? name = some metadata ↔
      (provider.getMetadata name).1 = .ok (some metadata) := by
  unfold metadata?
  rcases provider.getMetadata name with ⟨error | found, after⟩
  · exact iff_of_false (fun known => nomatch known) fun found => nomatch found
  · change found = some metadata ↔ Except.ok found = _
    rw [Except.ok.injEq]

end Metadata

section Versions

variable {date : Nat} {sealable : Bool} {material : List UInt8}

/-- The provider with the material of a version in its key store. -/
def withVersion (provider : RangerKeyStoreProvider) (date : Nat) (versionName : String)
    (material : List UInt8) (metadata : Metadata) : RangerKeyStoreProvider :=
  { provider with
    entries := provider.entries.put (convertAlias versionName)
      (entryFor (.secretKeySpec material metadata.cipher) provider.masterKey metadata date)
    changed := true }

/-- A version is set unless its key cannot be made or sealed. -/
theorem innerSetKeyVersion_cases (provider : RangerKeyStoreProvider) (date : Nat) (sealable : Bool)
    (name versionName : String) (material : List UInt8) (metadata : Metadata) :
    ((∃ error, provider.innerSetKeyVersion date sealable name versionName material metadata =
        (.error error, provider)) ∧ (material = [] ∨ sealable = false)) ∨
      sealable = true ∧
        provider.innerSetKeyVersion date sealable name versionName material metadata =
          (.ok ⟨name, versionName, material⟩,
            provider.withVersion date versionName material metadata) := by
  unfold innerSetKeyVersion setKeyEntry
  cases material with
  | nil => exact .inl ⟨⟨_, rfl⟩, .inl rfl⟩
  | cons first rest =>
      cases sealable with
      | false => exact .inl ⟨⟨_, rfl⟩, .inr rfl⟩
      | true => exact .inr ⟨rfl, rfl⟩

/-- A key is refused, or cached with one version that is then set. -/
theorem createKey_cases (provider : RangerKeyStoreProvider) (date : Nat) (sealable : Bool)
    (name : String) (material : List UInt8) (options : Options) :
    ((∃ error, provider.createKey date sealable name material options = (.error error, provider)) ∧
        (provider.contains name = true ∨ (provider.cache.get? name).isSome = true ∨
          options.bitLength ≠ bitsOf material)) ∨
      (provider.contains name = false ∧ provider.cache.get? name = none ∧
        options.bitLength = bitsOf material ∧
        provider.createKey date sealable name material options =
          (provider.cached name (options.metadata date)).innerSetKeyVersion date sealable name
            (buildVersionName name 0) material (options.metadata date)) := by
  unfold createKey
  cases present : provider.contains name with
  | true => exact .inl ⟨⟨_, rfl⟩, .inl rfl⟩
  | false =>
      cases known : provider.cache.containsKey name with
      | true =>
          refine .inl ⟨⟨_, rfl⟩, .inr (.inl ?_)⟩
          exact AssocMap.isSome_get?_iff.mpr (AssocMap.containsKey_iff.mp known)
      | false =>
          have fresh : provider.cache.get? name = none := by
            apply AssocMap.get?_eq_none_iff.mpr
            rw [← AssocMap.containsKey_iff, known]
            exact Bool.false_ne_true
          rw [Bool.false_or, if_neg Bool.false_ne_true]
          by_cases long : options.bitLength = bitsOf material
          · exact .inr ⟨rfl, fresh, long, if_neg (not_not.mpr long)⟩
          · exact .inl ⟨⟨_, if_pos long⟩, .inr (.inr long)⟩

/-- A version is refused, or counted in the cache and then set. -/
theorem rollNewVersion_cases (provider : RangerKeyStoreProvider) (date : Nat) (sealable : Bool)
    (name : String) (material : List UInt8) :
    (∃ error, provider.rollNewVersion date sealable name material =
          (.error error, (provider.getMetadata name).2) ∧
        ∀ metadata, (provider.getMetadata name).1 = .ok (some metadata) →
          metadata.bitLength ≠ bitsOf material) ∨
      ∃ metadata, (provider.getMetadata name).1 = .ok (some metadata) ∧
        metadata.bitLength = bitsOf material ∧
        provider.rollNewVersion date sealable name material =
          ((provider.getMetadata name).2.cached name metadata.addVersion).innerSetKeyVersion date
            sealable name (buildVersionName name metadata.versions) material
            metadata.addVersion := by
  unfold rollNewVersion
  rcases read : provider.getMetadata name with ⟨result, after⟩
  cases result with
  | error error => exact .inl ⟨error, rfl, fun metadata found => nomatch found⟩
  | ok found =>
      cases found with
      | none => exact .inl ⟨_, rfl, fun metadata found => nomatch found⟩
      | some metadata =>
          by_cases long : metadata.bitLength = bitsOf material
          · exact .inr ⟨metadata, rfl, long, if_neg (not_not.mpr long)⟩
          · refine .inl ⟨_, if_pos long, fun other found => ?_⟩
            rw [← Option.some.inj (Except.ok.inj found)]
            exact long

end Versions

section Deletion

variable (deleted : String → Bool)

/-- The aliases of a key. -/
def aliasesOf (name : String) (metadata : Metadata) : List String :=
  (List.range metadata.versions.toNat).map (fun version => buildVersionName name version) ++ [name]

/-- The provider without the entries of some aliases. -/
def erased (provider : RangerKeyStoreProvider) (aliases : List String) : RangerKeyStoreProvider :=
  aliases.foldl (fun provider keyAlias => deleteEntry provider deleted keyAlias) provider

theorem deleteKey_cases (provider : RangerKeyStoreProvider) (name : String) :
    (∃ error, provider.deleteKey deleted name = (.error error, provider)) ∨
      ∃ metadata, (provider.getMetadata name).1 = .ok (some metadata) ∧
        provider.deleteKey deleted name =
          (.ok (), { erased deleted (provider.getMetadata name).2 (aliasesOf name metadata) with
            cache := (provider.getMetadata name).2.cache.remove name
            changed := true }) := by
  have kept : ∀ (aliases : List String) (before : RangerKeyStoreProvider),
      (erased deleted before aliases).cache = before.cache := by
    intro aliases
    induction aliases with
    | nil => exact fun _ => rfl
    | cons first rest ih =>
        intro before
        refine (ih (before.deleteEntry deleted first)).trans ?_
        unfold deleteEntry
        split <;> rfl
  have refused : (∃ error, provider.getMetadata name = (.error error, provider)) ∨
      provider.getMetadata name = (.ok none, provider) ∨
      ∃ metadata after, provider.getMetadata name = (.ok (some metadata), after) := by
    rcases getMetadata_cases provider name with
      ⟨metadata, _, same⟩ | ⟨_, ⟨_, metadata, _, _, same⟩ | ⟨_, same⟩ | ⟨error, same⟩⟩
    · exact .inr (.inr ⟨metadata, provider, same⟩)
    · exact .inr (.inr ⟨metadata, _, same⟩)
    · exact .inr (.inl same)
    · exact .inl ⟨error, same⟩
  unfold deleteKey
  rcases refused with ⟨error, read⟩ | read | ⟨metadata, after, read⟩
  · rw [read]
    exact .inl ⟨error, rfl⟩
  · rw [read]
    exact .inl ⟨_, rfl⟩
  · rw [read]
    refine .inr ⟨metadata, rfl, ?_⟩
    have whole : erased deleted after (aliasesOf name metadata) =
        ((List.range metadata.versions.toNat).foldl (fun provider version =>
          deleteEntry provider deleted (buildVersionName name version)) after).deleteEntry
          deleted name := by
      unfold erased aliasesOf
      rw [List.foldl_append, List.foldl_map]
      rfl
    have cache := kept (aliasesOf name metadata) after
    dsimp only
    rw [← whole, cache]

theorem get?_deleteEntry (provider : RangerKeyStoreProvider) (keyAlias other : String) :
    (provider.deleteEntry deleted keyAlias).entries.get? other =
      if other = convertAlias keyAlias then none else provider.entries.get? other := by
  unfold deleteEntry
  cases present : provider.contains keyAlias with
  | true => exact AssocMap.get?_remove _ _ _
  | false =>
      rw [if_neg Bool.false_ne_true]
      split
      · next same =>
        rw [same]
        exact get?_of_not_contains present
      · rfl

theorem get?_erased (aliases : List String) (provider : RangerKeyStoreProvider) (other : String) :
    (erased deleted provider aliases).entries.get? other =
      if other ∈ aliases.map convertAlias then none else provider.entries.get? other := by
  induction aliases generalizing provider with
  | nil => rfl
  | cons first rest ih =>
      have turn : (erased deleted provider (first :: rest)).entries.get? other =
          if other ∈ rest.map convertAlias then none
          else (provider.deleteEntry deleted first).entries.get? other :=
        ih (provider.deleteEntry deleted first)
      rw [turn, get?_deleteEntry, List.map_cons]
      by_cases later : other ∈ rest.map convertAlias
      · simp [later]
      · simp [later]

theorem erased_masterKey (aliases : List String) (provider : RangerKeyStoreProvider) :
    (erased deleted provider aliases).masterKey = provider.masterKey := by
  induction aliases generalizing provider with
  | nil => rfl
  | cons first rest ih =>
      refine (ih (provider.deleteEntry deleted first)).trans ?_
      unfold deleteEntry
      split <;> rfl

end Deletion

section Flushing

variable {date : Nat} {sealable : String → Bool}

/-- What setting the metadata of some names changes: the entries of their aliases. -/
structure Reset (metadata : List (String × Metadata)) (before after : RangerKeyStoreProvider) :
    Prop where
  entries : ∀ keyAlias, keyAlias ∉ metadata.map (fun entry => convertAlias entry.1) →
    after.entries.get? keyAlias = before.entries.get? keyAlias
  kept : ∀ keyAlias, (before.entries.get? keyAlias).isSome = true →
    (after.entries.get? keyAlias).isSome = true
  cache : after.cache = before.cache
  table : after.table = before.table
  masterKey : after.masterKey = before.masterKey
  changed : after.changed = before.changed

theorem setMetadata_reset (metadata : List (String × Metadata))
    (provider : RangerKeyStoreProvider) :
    Reset metadata provider (setMetadata date sealable metadata provider).2 := by
  induction metadata generalizing provider with
  | nil => exact ⟨fun _ _ => rfl, fun _ present => present, rfl, rfl, rfl, rfl⟩
  | cons entry rest ih =>
      obtain ⟨name, metadata⟩ := entry
      unfold setMetadata setKeyEntry
      cases sealable name with
      | false => exact ⟨fun _ _ => rfl, fun _ present => present, rfl, rfl, rfl, rfl⟩
      | true =>
          let next : RangerKeyStoreProvider := { provider with
            entries := provider.entries.put (convertAlias name)
              (entryFor (.keyMetadata metadata) provider.masterKey metadata date) }
          have later := ih next
          refine ⟨?_, ?_, later.cache, later.table, later.masterKey, later.changed⟩
          · intro keyAlias outside
            rw [List.map_cons, List.mem_cons, not_or] at outside
            refine (later.entries keyAlias outside.2).trans ?_
            exact (AssocMap.get?_put _ _ _ _).trans (if_neg outside.1)
          · intro keyAlias present
            apply later.kept
            have read : next.entries.get? keyAlias = if keyAlias = convertAlias name then
                some (entryFor (.keyMetadata metadata) provider.masterKey metadata date)
              else provider.entries.get? keyAlias := AssocMap.get?_put _ _ _ _
            rw [read]
            split
            · rfl
            · exact present

/-- Nothing is flushed without a change. Else the metadata is set, and the store is written. -/
theorem flush_cases (provider : RangerKeyStoreProvider) (date : Nat)
    (sealable stored : String → Bool) :
    (provider.changed = false ∧ provider.flush date sealable stored = (.ok (), provider)) ∨
      provider.changed = true ∧
        ((∃ error, provider.flush date sealable stored =
            (.error error, (setMetadata date sealable provider.cache.entries provider).2)) ∨
          (setMetadata date sealable provider.cache.entries provider).1 = .ok () ∧
            provider.flush date sealable stored =
              (.ok (), { (setMetadata date sealable provider.cache.entries provider).2 with
                table := engineStore stored
                  (setMetadata date sealable provider.cache.entries provider).2.masterKey
                  (setMetadata date sealable provider.cache.entries provider).2.entries
                  (setMetadata date sealable provider.cache.entries provider).2.table
                changed := false })) := by
  unfold flush
  cases provider.changed with
  | false => exact .inl ⟨rfl, rfl⟩
  | true =>
      refine .inr ⟨rfl, ?_⟩
      rw [if_pos rfl]
      rcases setMetadata date sealable provider.cache.entries provider with ⟨result, after⟩
      cases result with
      | error error => exact .inl ⟨error, rfl⟩
      | ok => exact .inr ⟨rfl, rfl⟩

end Flushing

end RangerKeyStoreProvider

end Ranger

import Ranger.Kms.ProviderCalls

/-! # Calls of a provider that fail

A call that creates a key, rolls it or deletes it may throw. What can be read through the
provider is then as it was, unless it was a version that could not be sealed: the metadata
was cached before.
-/

namespace Ranger

open Foundation

namespace RangerKeyStoreProvider

open KeyProvider RangerKeyStore

section Calls

variable [Platform]

/-- The versions of a key that are there. -/
def getKeyVersions (provider : RangerKeyStoreProvider) (name : String) :
    Except KmsException (List KeyVersion) × RangerKeyStoreProvider :=
  match provider.getMetadata name with
  | (.error error, provider) => (.error error, provider)
  | (.ok none, provider) => (.ok [], provider)
  | (.ok (some metadata), provider) =>
      (((List.range metadata.versions.toNat).mapM fun version =>
        provider.getKeyVersion (buildVersionName name version)).map List.reduceOption, provider)

/-- What is read through a provider is the same. -/
structure SameResults (before after : RangerKeyStoreProvider) : Prop where
  getMetadata : ∀ name, (after.getMetadata name).1 = (before.getMetadata name).1
  getKeys : after.getKeys = before.getKeys
  getKeyVersions : ∀ name, (after.getKeyVersions name).1 = (before.getKeyVersions name).1
  getKeyVersion : ∀ versionName, after.getKeyVersion versionName = before.getKeyVersion versionName

section Views

variable {before after : RangerKeyStoreProvider}

/-- Beside the key store it is the metadata that counts. -/
theorem sameResults_of_getMetadata (entries : after.entries = before.entries)
    (masterKey : after.masterKey = before.masterKey)
    (metadata : ∀ name, (after.getMetadata name).1 = (before.getMetadata name).1) :
    SameResults before after where
  getMetadata := metadata
  getKeys := by
    unfold getKeys
    rw [entries]
  getKeyVersions name := by
    have first := getMetadata_looked after name
    have second := getMetadata_looked before name
    have same := metadata name
    unfold getKeyVersions
    rcases read : after.getMetadata name with ⟨found, afterRead⟩
    rcases readBefore : before.getMetadata name with ⟨foundBefore, beforeRead⟩
    rw [read] at first same
    rw [readBefore] at second same
    cases same
    have alike : afterRead.entries = beforeRead.entries :=
      first.entries.trans (entries.trans second.entries.symm)
    have versions := @getKeyVersion_congr _ afterRead beforeRead (fun _ => by rw [alike])
      (first.masterKey.trans (masterKey.trans second.masterKey.symm))
    match found with
    | .error error => rfl
    | .ok none => rfl
    | .ok (some metadata) => simp only [versions]
  getKeyVersion := getKeyVersion_congr (fun _ => by rw [entries]) masterKey

/-- Metadata that is read again is the same. -/
theorem sameResults_getMetadata (provider : RangerKeyStoreProvider) (name : String) :
    SameResults provider (provider.getMetadata name).2 := by
  have looked := getMetadata_looked provider name
  refine sameResults_of_getMetadata looked.entries looked.masterKey fun other => ?_
  obtain ⟨metadata, _, read⟩ | ⟨fresh, ⟨entry, metadata, _, _, read⟩ | ⟨_, read⟩ | ⟨_, read⟩⟩ :=
    getMetadata_cases provider name
  · rw [read]
  · rw [read]
    by_cases same : other = name
    · rw [same, read]
      unfold RangerKeyStoreProvider.getMetadata cached
      dsimp only
      rw [AssocMap.get?_put, if_pos rfl]
    · unfold RangerKeyStoreProvider.getMetadata cached
      dsimp only
      rw [AssocMap.get?_put, if_neg same]
      cases provider.cache.get? other with
      | some metadata => rfl
      | none =>
          change Prod.fst (if provider.contains other = true then _ else _) = _
          split
          · split <;> rfl
          · rfl
  · rw [read]
  · rw [read]

end Views

namespace Call

/-- A call that edits keys. -/
def EditsKeys : Call → Prop
  | createKey .. => True
  | rollNewVersion .. => True
  | deleteKey .. => True
  | flush .. => False
  | getMetadata .. => False

/-- The checks are passed, and the version cannot be sealed. -/
def Unsealed (provider : RangerKeyStoreProvider) : Call → Prop
  | createKey _ sealable name material options =>
      provider.contains name = false ∧ provider.cache.get? name = none ∧
        options.bitLength = bitsOf material ∧ material ≠ [] ∧ sealable = false
  | rollNewVersion _ sealable name material =>
      ∃ metadata, provider.metadata? name = some metadata ∧
        metadata.bitLength = bitsOf material ∧ material ≠ [] ∧ sealable = false
  | _ => False

end Call

/-- No `IOException` is thrown, or what is read through the provider stays the same. -/
def FailsCleanly {ρ : Type} (provider : RangerKeyStoreProvider)
    (outcome : Except KmsException ρ × RangerKeyStoreProvider) : Prop :=
  ∀ message, outcome.1 = .error (.io message) → SameResults provider outcome.2

section Failures

variable {provider : RangerKeyStoreProvider} {date : Nat} {sealable : Bool} {name : String}
  {material : List UInt8} {metadata : Metadata}

/-- What throws an `IOException` while a version is set is the sealing. -/
theorem innerSetKeyVersion_of_io {message versionName : String}
    (thrown : (provider.innerSetKeyVersion date sealable name versionName material metadata).1 =
      .error (.io message)) : material ≠ [] ∧ sealable = false := by
  unfold innerSetKeyVersion setKeyEntry at thrown
  cases material with
  | nil => cases thrown
  | cons first rest =>
      cases sealable with
      | true => cases thrown
      | false => exact ⟨List.cons_ne_nil _ _, rfl⟩

theorem innerSetKeyVersion_of_unsealed (some : material ≠ []) (versionName : String) :
    provider.innerSetKeyVersion date false name versionName material metadata =
      (.error (.io ("Can't store key " ++ versionName)), provider) := by
  unfold innerSetKeyVersion setKeyEntry
  cases material with
  | nil => exact absurd rfl some
  | cons first rest => rfl

/-- Cached metadata is what is read. -/
theorem getMetadata_cached : ((provider.cached name metadata).getMetadata name).1 =
    .ok (some metadata) := by
  unfold getMetadata cached
  dsimp only
  rw [AssocMap.get?_put, if_pos rfl]

theorem failsCleanly_map {ρ τ : Type} (outcome : Except KmsException ρ × RangerKeyStoreProvider)
    (read : ρ → τ) :
    FailsCleanly provider (outcome.1.map read, outcome.2) ↔ FailsCleanly provider outcome := by
  obtain ⟨result, after⟩ := outcome
  cases result with
  | ok value => exact ⟨fun _ _ => nofun, fun _ _ => nofun⟩
  | error error =>
      constructor
      · intro clean message thrown
        cases thrown
        exact clean message rfl
      · intro clean message thrown
        cases thrown
        exact clean message rfl

theorem failsCleanly_of_sameResults {ρ : Type}
    {outcome : Except KmsException ρ × RangerKeyStoreProvider}
    (same : SameResults provider outcome.2) : FailsCleanly provider outcome := fun _ _ => same

theorem sameResults_refl (provider : RangerKeyStoreProvider) : SameResults provider provider :=
  ⟨fun _ => rfl, rfl, fun _ => rfl, fun _ => rfl⟩

theorem createKey_failsCleanly_iff (options : Options) :
    FailsCleanly provider (provider.createKey date sealable name material options) ↔
      ¬(Call.createKey date sealable name material options).Unsealed provider := by
  obtain ⟨⟨error, refused⟩, why⟩ | ⟨absent, fresh, long, created⟩ :=
    createKey_cases provider date sealable name material options
  · rw [refused]
    refine iff_of_true (failsCleanly_of_sameResults (sameResults_refl provider)) ?_
    intro ⟨absent, fresh, long, _⟩
    obtain present | known | short := why
    · exact Bool.false_ne_true (absent.symm.trans present)
    · rw [fresh] at known
      cases known
    · exact short long
  · rw [created]
    constructor
    · intro clean unsealed
      obtain ⟨_, _, _, some, rfl⟩ := unsealed
      rw [innerSetKeyVersion_of_unsealed some] at clean
      have same := (clean _ rfl).getMetadata name
      rw [getMetadata_cached] at same
      unfold getMetadata at same
      rw [fresh, absent] at same
      cases same
    · intro sealed message thrown
      exact absurd ⟨absent, fresh, long, innerSetKeyVersion_of_io thrown⟩ sealed

omit [Platform] in
theorem addVersion_ne (metadata : Metadata) : metadata.addVersion ≠ metadata := by
  intro same
  have counted : intSucc metadata.versions = metadata.versions := congrArg Metadata.versions same
  unfold intSucc Int.bmod at counted
  dsimp only at counted
  split at counted <;> omega

theorem rollNewVersion_failsCleanly_iff :
    FailsCleanly provider (provider.rollNewVersion date sealable name material) ↔
      ¬(Call.rollNewVersion date sealable name material).Unsealed provider := by
  obtain ⟨error, refused, short⟩ | ⟨metadata, read, long, rolled⟩ :=
    rollNewVersion_cases provider date sealable name material
  · rw [refused]
    refine iff_of_true (failsCleanly_of_sameResults (sameResults_getMetadata provider name)) ?_
    intro ⟨metadata, known, long, _⟩
    exact short metadata (metadata?_eq_some_iff.mp known) long
  · rw [rolled]
    constructor
    · intro clean unsealed
      obtain ⟨_, _, _, some, rfl⟩ := unsealed
      rw [innerSetKeyVersion_of_unsealed some] at clean
      have same := (clean _ rfl).getMetadata name
      rw [getMetadata_cached, read] at same
      exact addVersion_ne metadata (Option.some.inj (Except.ok.inj same))
    · intro sealed message thrown
      refine absurd ⟨metadata, metadata?_eq_some_iff.mpr read, long, ?_⟩ sealed
      exact innerSetKeyVersion_of_io thrown

theorem deleteKey_failsCleanly (deleted : String → Bool) :
    FailsCleanly provider (provider.deleteKey deleted name) := by
  obtain ⟨error, refused⟩ | ⟨metadata, _, done⟩ := deleteKey_cases deleted provider name
  · rw [refused]
    exact failsCleanly_of_sameResults (sameResults_refl provider)
  · rw [done]
    exact fun _ => nofun

/-- **Failed key operations.** A call that creates, rolls or deletes a key and throws an
`IOException` changes nothing that is read exactly when it is not the sealing that failed. -/
theorem failsCleanly_iff (provider : RangerKeyStoreProvider) {call : Call}
    (edits : call.EditsKeys) :
    FailsCleanly provider (call.perform provider) ↔ ¬call.Unsealed provider := by
  cases call with
  | createKey date sealable name material options =>
      exact (failsCleanly_map _ _).trans (createKey_failsCleanly_iff options)
  | rollNewVersion date sealable name material =>
      exact (failsCleanly_map _ _).trans rollNewVersion_failsCleanly_iff
  | deleteKey deleted name =>
      refine iff_of_true ?_ id
      exact (failsCleanly_map _ _).mpr (deleteKey_failsCleanly deleted)
  | flush => exact edits.elim
  | getMetadata => exact edits.elim

end Failures

end Calls

section Example

attribute [local instance] Platform.ascii

/-- A key of eight bits that cannot be sealed. -/
def unsealedCall : Call := .createKey 0 false "orders" [7] { cipher := "AES", bitLength := 8 }

/-- **The metadata of a key stays that was not made.** -/
theorem unsealed_key_is_listed : ¬∀ (provider : RangerKeyStoreProvider) (call : Call),
    call.EditsKeys → FailsCleanly provider (call.perform provider) := by
  intro clean
  have same := (clean { masterKey := "secret" } unsealedCall trivial
    "Can't store key orders@0" (by decide)).getMetadata "orders"
  revert same
  decide

def wrongLengthCall : Call := .createKey 0 false "orders" [7] { cipher := "AES", bitLength := 16 }

/-- A key of the wrong length leaves nothing behind. -/
theorem wrong_length_fails_cleanly :
    FailsCleanly { masterKey := "secret" } (wrongLengthCall.perform { masterKey := "secret" }) := by
  have edits : wrongLengthCall.EditsKeys := trivial
  refine (failsCleanly_iff _ edits).mpr fun unsealed => ?_
  exact absurd unsealed.2.2.1 (by decide)

end Example

end RangerKeyStoreProvider

end Ranger

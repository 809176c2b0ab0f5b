import Ranger.Foundation.Delimited
import Ranger.Kms.KeyMaterial
import Ranger.Kms.Mediation

/-! # Keys that no user may edit

The material of a version stays what it is while no user is granted to create, roll or
delete its key under any spelling, whatever else is asked of the server and however the
requests take turns.
-/

namespace Ranger

open Foundation KeyProvider RangerKeyStore

namespace RangerKeyStoreProvider

variable [Platform]

/-- An alias has an entry with material, and no cached name has that alias. -/
structure HasEntry (provider : RangerKeyStoreProvider) (keyAlias masterKey : String)
    (entry : SecretKeyEntry) : Prop where
  found : provider.entries.get? keyAlias = some entry
  unlocks : provider.masterKey = masterKey
  apart : ∀ name, (provider.cache.get? name).isSome = true → convertAlias name ≠ keyAlias

/-- The entry of a version: its key is no metadata. -/
def OfVersion (entry : SecretKeyEntry) : Prop :=
  ∀ metadata, entry.sealedKey.key ≠ .keyMetadata metadata

variable {provider : RangerKeyStoreProvider} {keyAlias masterKey name : String}
  {entry : SecretKeyEntry}

namespace HasEntry

/-- Metadata is not found under the alias of a version. -/
theorem looked (stored : provider.HasEntry keyAlias masterKey entry) (version : OfVersion entry)
    (name : String) : (provider.getMetadata name).2.HasEntry keyAlias masterKey entry := by
  have looked := getMetadata_looked provider name
  refine ⟨?_, looked.masterKey.trans stored.unlocks, fun other cached => ?_⟩
  · rw [looked.entries]
    exact stored.found
  · rcases looked.cache with same | ⟨_, row, metadata, found, sealedKey, same⟩
    · rw [same] at cached
      exact stored.apart other cached
    · rw [same, AssocMap.get?_put] at cached
      by_cases own : other = name
      · rintro rfl
        rw [← own, stored.found, Option.some.injEq] at found
        rw [← found] at sealedKey
        exact version metadata (congrArg SealedObject.key sealedKey)
      · rw [if_neg own] at cached
        exact stored.apart other cached

/-- A name whose metadata is found has another alias. -/
theorem ne_of_metadata (stored : provider.HasEntry keyAlias masterKey entry)
    (version : OfVersion entry) {metadata : Metadata}
    (read : (provider.getMetadata name).1 = .ok (some metadata)) :
    convertAlias name ≠ keyAlias := by
  rcases getMetadata_cases provider name with
    ⟨_, known, _⟩ | ⟨_, ⟨row, other, found, sealedKey, _⟩ | ⟨_, same⟩ | ⟨_, same⟩⟩
  · apply stored.apart name
    rw [known]
    rfl
  · rintro rfl
    rw [stored.found, Option.some.injEq] at found
    rw [← found] at sealedKey
    exact version other (congrArg SealedObject.key sealedKey)
  · rw [same] at read
    cases read
  · rw [same] at read
    cases read

theorem cached (stored : provider.HasEntry keyAlias masterKey entry)
    (other : convertAlias name ≠ keyAlias) (metadata : Metadata) :
    (provider.cached name metadata).HasEntry keyAlias masterKey entry := by
  refine ⟨stored.found, stored.unlocks, fun found cached => ?_⟩
  unfold RangerKeyStoreProvider.cached at cached
  dsimp only at cached
  rw [AssocMap.get?_put] at cached
  by_cases same : found = name
  · rw [same]
    exact other
  · rw [if_neg same] at cached
    exact stored.apart found cached

theorem innerSetKeyVersion (stored : provider.HasEntry keyAlias masterKey entry) (date : Nat)
    (sealable : Bool) {versionName : String} (material : List UInt8) (metadata : Metadata)
    (other : convertAlias versionName ≠ keyAlias) :
    (provider.innerSetKeyVersion date sealable name versionName material metadata).2.HasEntry
      keyAlias masterKey entry := by
  rcases innerSetKeyVersion_cases provider date sealable name versionName material metadata with
    ⟨⟨error, refused⟩, _⟩ | ⟨_, written⟩
  · rw [refused]
    exact stored
  · rw [written]
    refine ⟨?_, stored.unlocks, stored.apart⟩
    exact (AssocMap.get?_put _ _ _ _).trans ((if_neg other.symm).trans stored.found)

/-- A call that edits no spelling of a key leaves the versions of the key as they are. -/
theorem perform (keeps : Platform.KeepsSeparator) {key : String} {number : Int}
    (stored : provider.HasEntry (convertAlias (buildVersionName key number)) masterKey entry)
    (version : OfVersion entry) {call : Call}
    (spared : ∀ name ∈ call.name?, convertAlias name = convertAlias key →
      call = .getMetadata name) :
    (call.perform provider).2.HasEntry (convertAlias (buildVersionName key number)) masterKey
      entry := by
  have foreign : ∀ (name : String) (count : Int), convertAlias name ≠ convertAlias key →
      convertAlias (buildVersionName name count) ≠ convertAlias (buildVersionName key number) := by
    intro name count other same
    rw [LiveKeys.convertAlias_versioned keeps, LiveKeys.convertAlias_versioned keeps] at same
    have lists := congrArg String.toList same
    rw [toList_buildVersionName, toList_buildVersionName] at lists
    exact other (String.toList_inj.mp
      (Delimited.append_cons_inj_right (plain_toString count) (plain_toString number) lists).1)
  cases call with
  | getMetadata name => exact stored.looked version name
  | createKey date sealable name material options =>
      have other : convertAlias name ≠ convertAlias key := fun same => by
        cases spared name rfl same
      change (provider.createKey date sealable name material options).2.HasEntry _ _ _
      rcases createKey_cases provider date sealable name material options with
        ⟨⟨error, refused⟩, _⟩ | ⟨absent, _, _, written⟩
      · rw [refused]
        exact stored
      · rw [written]
        refine (stored.cached ?_ _).innerSetKeyVersion date sealable material _
          (foreign name 0 other)
        rintro same
        rw [← Bool.not_eq_true, contains_iff, same, stored.found] at absent
        exact absent rfl
  | rollNewVersion date sealable name material =>
      have other : convertAlias name ≠ convertAlias key := fun same => by
        cases spared name rfl same
      change (provider.rollNewVersion date sealable name material).2.HasEntry _ _ _
      rcases rollNewVersion_cases provider date sealable name material with
        ⟨error, refused, _⟩ | ⟨metadata, read, _, written⟩
      · rw [refused]
        exact stored.looked version name
      · rw [written]
        exact ((stored.looked version name).cached (stored.ne_of_metadata version read)
          _).innerSetKeyVersion date sealable material _ (foreign name _ other)
  | deleteKey deleted name =>
      have other : convertAlias name ≠ convertAlias key := fun same => by
        cases spared name rfl same
      change (provider.deleteKey deleted name).2.HasEntry _ _ _
      rcases deleteKey_cases deleted provider name with ⟨error, refused⟩ | ⟨metadata, read, done⟩
      · rw [refused]
        exact stored
      · rw [done]
        have looked := stored.looked version name
        refine ⟨?_, (erased_masterKey deleted _ _).trans looked.unlocks, fun found cached => ?_⟩
        · change (erased deleted _ _).entries.get? _ = _
          rw [get?_erased, if_neg ?_]
          · exact looked.found
          · intro listed
            obtain ⟨keyAlias, named, same⟩ := List.mem_map.mp listed
            unfold aliasesOf at named
            rcases List.mem_append.mp named with versions | own
            · obtain ⟨count, _, rfl⟩ := List.mem_map.mp versions
              exact foreign name count other same
            · rw [List.mem_singleton.mp own] at same
              exact stored.ne_of_metadata version read same
        · apply looked.apart found
          change (((provider.getMetadata name).2.cache.remove name).get? found).isSome = true
            at cached
          rw [AssocMap.get?_remove] at cached
          split at cached
          · cases cached
          · exact cached
  | flush date sealable stores =>
      change (provider.flush date sealable stores).2.HasEntry _ _ _
      have reset : Reset provider.cache.entries provider
          (setMetadata date sealable provider.cache.entries provider).2 :=
        setMetadata_reset _ provider
      have kept : (setMetadata date sealable provider.cache.entries provider).2.HasEntry
          (convertAlias (buildVersionName key number)) masterKey entry := by
        refine ⟨?_, reset.masterKey.trans stored.unlocks, ?_⟩
        · rw [reset.entries]
          · exact stored.found
          · intro listed
            obtain ⟨⟨name, metadata⟩, cached, same⟩ := List.mem_map.mp listed
            refine stored.apart name ?_ same
            apply AssocMap.isSome_get?_iff.mpr
            exact List.mem_map_of_mem cached
        · rw [reset.cache]
          exact stored.apart
      rcases flush_cases provider date sealable stores with
        ⟨_, same⟩ | ⟨_, ⟨error, same⟩ | ⟨_, same⟩⟩
      · rw [same]
        exact stored
      · rw [same]
        exact kept
      · rw [same]
        exact ⟨kept.found, kept.unlocks, kept.apart⟩

/-- What is read of the version. -/
theorem getKeyVersion {key : String} {number : Int} {material : List UInt8} {algorithm : String}
    (stored : provider.HasEntry (convertAlias (buildVersionName key number)) masterKey entry)
    (sealedKey : entry.sealedKey = ⟨.secretKeySpec material algorithm, masterKey⟩) :
    provider.getKeyVersion (buildVersionName key number) =
      .ok (some ⟨key, buildVersionName key number, material⟩) := by
  have present : provider.contains (buildVersionName key number) = true := by
    rw [contains_iff, stored.found]
    rfl
  unfold RangerKeyStoreProvider.getKeyVersion engineGetKey
  rw [if_pos present, stored.found]
  simp only [sealedKey, stored.unlocks, ↓reduceIte, getBaseName_buildVersionName]

end HasEntry

/-- The entry behind a version that is read. -/
theorem stored_of_getKeyVersion {key : String} {number : Int} {material : List UInt8}
    (read : provider.getKeyVersion (buildVersionName key number) =
      .ok (some ⟨key, buildVersionName key number, material⟩)) :
    ∃ entry algorithm,
      provider.entries.get? (convertAlias (buildVersionName key number)) = some entry ∧
        entry.sealedKey = ⟨.secretKeySpec material algorithm, provider.masterKey⟩ := by
  unfold RangerKeyStoreProvider.getKeyVersion engineGetKey at read
  split at read
  · cases found : provider.entries.get? (convertAlias (buildVersionName key number)) with
    | none =>
        rw [found] at read
        cases read
    | some entry =>
        rw [found] at read
        dsimp only at read
        by_cases own : entry.sealedKey.password = provider.masterKey
        · rw [if_pos own] at read
          rcases sealed : entry.sealedKey with ⟨sealedKey, password⟩
          rw [sealed] at read own
          cases sealedKey with
          | keyMetadata metadata => cases read
          | secretKeySpec material algorithm =>
              rw [getBaseName_buildVersionName] at read
              cases read
              change password = provider.masterKey at own
              exact ⟨entry, algorithm, rfl, by rw [sealed, own]⟩
        · rw [if_neg own] at read
          cases read
  · cases read

end RangerKeyStoreProvider

namespace KMS

open RangerKeyStoreProvider

section Server

variable [Platform] {ω : Type}

/-- What the requests of a server share: the lists in force, the key store, and what the
providers between the server and the key store keep for themselves. -/
structure KeyServer (ω : Type) where
  acls : KeyACLs
  keyStore : RangerKeyStoreProvider
  wrapper : ω

/-- The lists are read anew, or a provider asks for metadata on its own account. -/
inductive KeyServerChange (ω : Type) where
  | reload (acls : KeyACLs)
  | lookup (name : String) (wrapper : ω)

namespace KeyServer

/-- The providers in front of the key store. -/
abbrev Behind (ω : Type) := (call : ProviderCall) → RangerKeyStoreProvider × ω →
  Except KmsException call.Result × RangerKeyStoreProvider × ω

def answer (behind : Behind ω) : (question : KMSQuestion) → KeyServer ω →
    question.Answer × KeyServer ω
  | .hasAccess type ugi, server => (server.acls.hasAccess type ugi, server)
  | .assertAccess type ugi operation key, server =>
      (server.acls.assertAccess type ugi operation key, server)
  | .hasAccessToKey aclName ugi opType, server =>
      (server.acls.hasAccessToKey aclName ugi opType, server)
  | .isACLPresent aclName opType, server => (server.acls.isACLPresent aclName opType, server)
  | .provider call, server =>
      let (result, keyStore, wrapper) := behind call (server.keyStore, server.wrapper)
      (result, { server with keyStore := keyStore, wrapper := wrapper })

def change : KeyServerChange ω → KeyServer ω → KeyServer ω
  | .reload acls, server => { server with acls := acls }
  | .lookup name wrapper, server =>
      { server with keyStore := (server.keyStore.getMetadata name).2, wrapper := wrapper }

/-- A call of the key store that a provider makes to serve a call: the same, with material
that may be generated, or a look at metadata. -/
def Carries (call : ProviderCall) : Call → Prop
  | .createKey _ _ name _ _ => ∃ material options, call = .createKey name material options
  | .rollNewVersion _ _ name _ => ∃ material, call = .rollNewVersion name material
  | .deleteKey _ name => call = .deleteKey name
  | .flush _ _ _ => call = .flush
  | .getMetadata _ => True

/-- The key store after some calls. -/
def afterCalls (keyStore : RangerKeyStoreProvider) (calls : List Call) :
    RangerKeyStoreProvider :=
  calls.foldl (fun keyStore call => (call.perform keyStore).2) keyStore

/-- The providers in front of the key store pass on what they are asked. -/
def PassesOn (behind : Behind ω) : Prop :=
  ∀ call before, ∃ calls : List Call, (∀ inner ∈ calls, Carries call inner) ∧
    (behind call before).2.1 = afterCalls before.1 calls

/-- The lists grant none of the users to edit a spelling of the key. -/
def Refuses (acls : KeyACLs) (users : UserGroupInformation → Prop) (key : String) : Prop :=
  ∀ user, users user → ∀ name, convertAlias name = convertAlias key →
    ∀ type ∈ [KMSACLsType.create, .rollover, .delete], ∀ operation,
      acls.assertAccess type user operation (some name) ≠ .ok ()

end KeyServer

open KeyServer KMSHistory

/-- A turn brings in none but the users, and no lists that grant them to edit the key. -/
def Turn.Spares (users : UserGroupInformation → Prop) (key : String) :
    Turn (UserGroupInformation × KMSRequest) (KeyServerChange ω) → Prop
  | .start owner => users owner.1
  | .proceed _ => True
  | .outside (.reload acls) => Refuses acls users key
  | .outside (.lookup _ _) => True

/-- A user of whom is known that it was granted no edit of the key. -/
def Ungranted (users : UserGroupInformation → Prop) (key : String)
    (owner : UserGroupInformation × KMSRequest) (past : KMSHistory) : Prop :=
  users owner.1 ∧ ∀ name, convertAlias name = convertAlias key →
    ∀ type ∈ [KMSACLsType.create, .rollover, .delete], ∀ operation,
      ¬past.Granted type owner.1 operation (some name)

theorem Ungranted.snoc {users : UserGroupInformation → Prop} {key : String}
    {owner : UserGroupInformation × KMSRequest} {past : KMSHistory}
    (ungranted : Ungranted users key owner past) {event : KMSEvent}
    (other : ∀ name, convertAlias name = convertAlias key →
      ∀ type ∈ [KMSACLsType.create, .rollover, .delete], ∀ operation,
        event ≠ ⟨.assertAccess type owner.1 operation (some name), .ok ()⟩) :
    Ungranted users key owner (past ++ [event]) := by
  refine ⟨ungranted.1, fun name same type listed operation granted => ?_⟩
  rcases List.mem_append.mp granted with before | now
  · exact ungranted.2 name same type listed operation before
  · exact other name same type listed operation (List.mem_singleton.mp now).symm

/-- A call that is passed on for a user without a grant spares the key. -/
theorem spared_of_ungranted {settings : KMSSettings} {users : UserGroupInformation → Prop}
    {key : String} {owner : UserGroupInformation × KMSRequest} {past : KMSHistory}
    (ungranted : Ungranted users key owner past) {call : ProviderCall}
    (permitted : Permitted settings owner.1 past (.provider call)) {inner : Call}
    (serves : Carries call inner) :
    ∀ name ∈ inner.name?, convertAlias name = convertAlias key → inner = .getMetadata name := by
  have granted := permitted.1
  intro name named same
  cases inner with
  | getMetadata other =>
      cases named
      rfl
  | flush => cases named
  | createKey date sealable other material options =>
      cases named
      obtain ⟨_, _, rfl⟩ := serves
      exact absurd granted.1 (ungranted.2 name same .create (by simp) _)
  | rollNewVersion date sealable other material =>
      cases named
      obtain ⟨_, rfl⟩ := serves
      exact absurd granted.1 (ungranted.2 name same .rollover (by simp) _)
  | deleteKey deleted other =>
      cases named
      cases serves
      exact absurd granted (ungranted.2 name same .delete (by simp) _)

theorem HasEntry.afterCalls (keeps : Platform.KeepsSeparator) {key : String} {number : Int}
    {masterKey : String} {entry : SecretKeyEntry} (version : OfVersion entry) {calls : List Call}
    (spared : ∀ call ∈ calls, ∀ name ∈ call.name?, convertAlias name = convertAlias key →
      call = .getMetadata name) {keyStore : RangerKeyStoreProvider}
    (stored : keyStore.HasEntry (convertAlias (buildVersionName key number)) masterKey entry) :
    (KeyServer.afterCalls keyStore calls).HasEntry (convertAlias (buildVersionName key number))
      masterKey entry := by
  induction calls generalizing keyStore with
  | nil => exact stored
  | cons call rest ih =>
      exact ih (fun later listed => spared later (List.mem_cons_of_mem call listed))
        (stored.perform keeps version (spared call List.mem_cons_self))

/-- What is kept of the server: the lists refuse, and the version is stored. -/
def Spared (users : UserGroupInformation → Prop) (key : String) (number : Int)
    (masterKey : String) (entry : SecretKeyEntry) (server : KeyServer ω) : Prop :=
  Refuses server.acls users key ∧
    server.keyStore.HasEntry (convertAlias (buildVersionName key number)) masterKey entry

/-- An answer keeps the server, and grants no edit of the key. -/
theorem Spared.answer (keeps : Platform.KeepsSeparator) {settings : KMSSettings}
    {behind : Behind ω} (passesOn : PassesOn behind) {users : UserGroupInformation → Prop}
    {key : String} {number : Int} {masterKey : String} {entry : SecretKeyEntry}
    (version : OfVersion entry) {owner : UserGroupInformation × KMSRequest} {past : KMSHistory}
    {question : KMSQuestion} {server : KeyServer ω} (ungranted : Ungranted users key owner past)
    (permitted : Permitted settings owner.1 past question)
    (spared : Spared users key number masterKey entry server) :
    Spared users key number masterKey entry (KeyServer.answer behind question server).2 ∧
      Ungranted users key owner
        (past ++ [⟨question, (KeyServer.answer behind question server).1⟩]) := by
  have unasserted : ∀ {question : KMSQuestion} {answer : question.Answer},
      (∀ type ugi operation key, question ≠ .assertAccess type ugi operation key) →
        Ungranted users key owner (past ++ [⟨question, answer⟩]) := by
    intro question answer other
    refine ungranted.snoc fun name _ type _ operation event => ?_
    exact other type owner.1 operation (some name) (congrArg Sigma.fst event)
  cases question with
  | provider call =>
      refine ⟨⟨spared.1, ?_⟩, unasserted fun _ _ _ _ same => by cases same⟩
      obtain ⟨calls, serves, same⟩ := passesOn call (server.keyStore, server.wrapper)
      change (behind call (server.keyStore, server.wrapper)).2.1.HasEntry _ _ _
      rw [same]
      exact HasEntry.afterCalls keeps version (fun inner listed =>
        spared_of_ungranted ungranted permitted (serves inner listed)) spared.2
  | assertAccess type ugi operation asked =>
      refine ⟨spared, ungranted.snoc fun name same type listed operation event => ?_⟩
      injection event with question told
      cases question
      exact spared.1 owner.1 ungranted.1 name same type listed operation told
  | hasAccess => exact ⟨spared, unasserted fun _ _ _ _ same => by cases same⟩
  | hasAccessToKey => exact ⟨spared, unasserted fun _ _ _ _ same => by cases same⟩
  | isACLPresent => exact ⟨spared, unasserted fun _ _ _ _ same => by cases same⟩

/-- **Ungranted keys.** A version that is in the key store, under an alias of no cached name,
keeps its material in every run in which no user is granted to create, roll or delete a
spelling of its key, however requests, reloads and look-ups take turns. -/
theorem version_unchanged (keeps : Platform.KeepsSeparator) (settings : KMSSettings)
    {behind : Behind ω} (passesOn : PassesOn behind) {users : UserGroupInformation → Prop}
    {key : String} {number : Int} {material : List UInt8} {server : KeyServer ω}
    (read : server.keyStore.getKeyVersion (buildVersionName key number) =
      .ok (some ⟨key, buildVersionName key number, material⟩))
    (apart : ∀ name, (server.keyStore.cache.get? name).isSome = true →
      convertAlias name ≠ convertAlias (buildVersionName key number))
    (refuses : Refuses server.acls users key)
    {turns : List (Turn (UserGroupInformation × KMSRequest) (KeyServerChange ω))}
    (spares : ∀ turn ∈ turns, Turn.Spares users key turn) :
    (afterTurns settings (fun _ => KeyServer.answer behind) KeyServer.change server
      turns).shared.keyStore.getKeyVersion (buildVersionName key number) =
        .ok (some ⟨key, buildVersionName key number, material⟩) := by
  obtain ⟨entry, algorithm, found, sealedKey⟩ := stored_of_getKeyVersion read
  have version : OfVersion entry := by
    intro metadata same
    rw [sealedKey] at same
    cases same
  have programs : ∀ owner, Turn.Spares (ω := ω) users key (.start owner) →
      Ungranted users key owner [] ∧ (serve settings owner.1 owner.2).Meets
        (Permitted settings owner.1) (Finished settings owner) [] := by
    intro owner fair
    refine ⟨⟨fair, fun _ _ _ _ _ granted => ?_⟩, serve_meets settings owner⟩
    exact absurd granted List.not_mem_nil
  have changes : ∀ (change : KeyServerChange ω) (now : KeyServer ω),
      Turn.Spares users key (.outside change) →
        Spared users key number server.keyStore.masterKey entry now →
          Spared users key number server.keyStore.masterKey entry
            (KeyServer.change change now) := by
    intro change now fair spared
    cases change with
    | reload acls => exact ⟨fair, spared.2⟩
    | lookup name wrapper => exact ⟨spared.1, spared.2.looked version name⟩
  have start : (⟨server, []⟩ : Server (KeyServer ω)).Safe
      (Spared users key number server.keyStore.masterKey entry) (Ungranted users key)
      (fun owner => Permitted settings owner.1) (Finished settings) :=
    ⟨⟨refuses, found, rfl, apart⟩, fun _ listed => absurd listed List.not_mem_nil,
      fun _ listed => absurd listed List.not_mem_nil⟩
  have safe := Concurrent.safe_of_run (Turn.Spares users key) programs
    (fun owner past question now ungranted permitted spared =>
      spared.answer keeps passesOn version ungranted permitted) changes start spares
  exact safe.shared.2.getKeyVersion sealedKey

end Server

section Example

attribute [local instance] Platform.ascii

open KeyServer

/-- The key store without providers in front of it; it encrypts no keys. -/
private def direct : Behind Unit
  | .createKey name material options, (keyStore, _) =>
      let (result, keyStore) := keyStore.createKey 0 true name (material.getD [0, 0]) options
      (result, keyStore, ())
  | .rollNewVersion name material, (keyStore, _) =>
      let (result, keyStore) := keyStore.rollNewVersion 0 true name (material.getD [0, 0])
      (result, keyStore, ())
  | .deleteKey name, (keyStore, _) =>
      let (result, keyStore) := keyStore.deleteKey (fun _ => true) name
      (result, keyStore, ())
  | .flush, (keyStore, _) =>
      let (result, keyStore) := keyStore.flush 0 (fun _ => true) fun _ => true
      (result, keyStore, ())
  | .getKeyVersion versionName, (keyStore, _) => (keyStore.getKeyVersion versionName, keyStore, ())
  | .getKeys, (keyStore, _) => (.ok keyStore.getKeys, keyStore, ())
  | .getKeyVersions name, (keyStore, _) =>
      (((List.range 1).mapM fun version =>
        keyStore.getKeyVersion (buildVersionName name version)).map List.reduceOption, keyStore, ())
  | .getMetadata name, (keyStore, _) =>
      let (result, keyStore) := keyStore.getMetadata name
      (result, keyStore, ())
  | .getKeysMetadata names, (keyStore, _) => (.ok (names.map keyStore.metadata?), keyStore, ())
  | .getCurrentKey name, (keyStore, _) =>
      (keyStore.getKeyVersion (buildVersionName name 0), keyStore, ())
  | .generateEncryptedKey _, before => (.error (.io "no cipher"), before)
  | .decryptEncryptedKey _, before => (.error (.io "no cipher"), before)
  | .warmUpEncryptedKeys _, before => (.error (.io "no cipher"), before)

private theorem direct_passesOn : PassesOn direct := by
  intro call before
  cases call with
  | createKey name material options =>
      exact ⟨[.createKey 0 true name (material.getD [0, 0]) options], by simp [Carries], rfl⟩
  | rollNewVersion name material =>
      exact ⟨[.rollNewVersion 0 true name (material.getD [0, 0])], by simp [Carries], rfl⟩
  | deleteKey name => exact ⟨[.deleteKey (fun _ => true) name], by simp [Carries], rfl⟩
  | flush => exact ⟨[.flush 0 (fun _ => true) fun _ => true], by simp [Carries], rfl⟩
  | getMetadata name => exact ⟨[.getMetadata name], by simp [Carries], rfl⟩
  | getKeyVersion | getKeys | getKeyVersions | getKeysMetadata | getCurrentKey
  | generateEncryptedKey | decryptEncryptedKey | warmUpEncryptedKeys =>
      exact ⟨[], fun _ listed => absurd listed List.not_mem_nil, rfl⟩

/-- A plugin whose policies leave the key "zone" to nobody, in any spelling. -/
private def guarded : RangerKmsAuthorizer where
  kmsPlugin := some (some fun request =>
    { isAccessDetermined := true
      isAllowed := (request.resource.getValue "keyname").map Platform.lowerCase != some "zone" })
  blacklistedAcls _ := none

private def zoneStore : RangerKeyStoreProvider :=
  ((RangerKeyStoreProvider.createKey { masterKey := "master" } 0 true "zone" [1, 2]
    ⟨"AES", 16, none, []⟩).2.flush 0 (fun _ => true) fun _ => true).2

private def zoneServer : KeyServer Unit where
  acls := guarded.keyACLs
  keyStore := { zoneStore with cache := ∅ }
  wrapper := ()

private def someone : UserGroupInformation := ⟨"someone", []⟩

private def attempts : List (Turn (UserGroupInformation × KMSRequest) (KeyServerChange Unit)) :=
  [.start (someone, .deleteKey "ZONE"), .start (someone, .createKey { name := some "other" }),
    .proceed 0, .proceed 1, .proceed 1, .proceed 1, .outside (.lookup "zone" ()), .proceed 1]

private theorem guarded_refuses : Refuses guarded.keyACLs (fun _ => True) "zone" := by
  intro user _ name same type _ operation granted
  have lower : Platform.lowerCase name = "zone" := same
  change (if guarded.hasAccess type user name = true then Except.ok () else Except.error _) =
    Except.ok () at granted
  have refused : guarded.hasAccess type user name = false := by
    change (Option.map Platform.lowerCase (RangerAccessResource.getValue
      (RangerAccessResource.setValue {} "keyname" (some name)) "keyname") != some "zone") = false
    rw [RangerAccessResource.getValue_setValue, if_pos rfl, Option.map_some, lower]
    rfl
  rw [refused, if_neg Bool.false_ne_true] at granted
  cases granted

/-- Nobody takes the key out or replaces it, by whatever spelling. -/
theorem zone_unchanged :
    (afterTurns ⟨fun _ => [], fun _ => true, "AES", 16, true⟩ (fun _ => KeyServer.answer direct)
      KeyServer.change zoneServer attempts).shared.keyStore.getKeyVersion "zone@0" =
        .ok (some ⟨"zone", "zone@0", [1, 2]⟩) := by
  have read : zoneServer.keyStore.getKeyVersion (buildVersionName "zone" 0) =
      .ok (some ⟨"zone", buildVersionName "zone" 0, [1, 2]⟩) := by decide +kernel
  have apart : ∀ name, (zoneServer.keyStore.cache.get? name).isSome = true →
      convertAlias name ≠ convertAlias (buildVersionName "zone" 0) :=
    fun _ cached => absurd cached Bool.false_ne_true
  have spares : ∀ turn ∈ attempts, Turn.Spares (fun _ => True) "zone" turn := by
    simp [attempts, Turn.Spares]
  exact version_unchanged keepsSeparator_ascii _ direct_passesOn read apart guarded_refuses spares

end Example

end KMS

end Ranger

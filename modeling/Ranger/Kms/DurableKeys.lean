import Ranger.Foundation.Run
import Ranger.Kms.ProviderCalls

/-! # Keys behind a flush

The table is written when a provider is flushed, and a new provider reads it. The two show
the same keys as long as no write to the table is lost, every key that is in the cache
without its entry waits for a flush, and spellings of one name have one metadata.
-/

namespace Ranger

open Foundation KeyProvider RangerKeyStore

namespace RangerKeyStore

variable {stored : String → Bool} {password keyAlias : String}
  {entries : AssocMap String SecretKeyEntry} {table : KeyTable}

/-- The rows that are written take the place of those that were there. -/
theorem get?_engineStore (stored : String → Bool) (password : String)
    (entries : AssocMap String SecretKeyEntry) (table : KeyTable) (keyAlias : String) :
    (engineStore stored password entries table).get? keyAlias =
      ((if stored keyAlias then entries.get? keyAlias else none).map
        fun entry => mapObjectToEntity entry password).or (table.get? keyAlias) := by
  have written : engineStore stored password entries table =
      table.putAll ((entries.filterKeys stored).entries.map fun entry =>
        (entry.1, mapObjectToEntity entry.2 password)) := by
    unfold engineStore AssocMap.putAll AssocMap.filterKeys
    rw [List.foldl_map, List.foldl_filter]
  rw [written, ← AssocMap.get?_filterKeys]
  exact AssocMap.get?_putAll_map table (entries.filterKeys stored)
    (fun entry => mapObjectToEntity entry password) keyAlias

/-- The entries of the rows of a table. -/
def entriesOf (table : KeyTable) : AssocMap String SecretKeyEntry :=
  (∅ : AssocMap String SecretKeyEntry).putAll
    (table.entries.map fun row => (row.1, entryOf row.2))

theorem get?_entriesOf (table : KeyTable) (keyAlias : String) :
    (entriesOf table).get? keyAlias = (table.get? keyAlias).map entryOf := by
  unfold entriesOf
  rw [AssocMap.get?_putAll_map, AssocMap.get?_empty, Option.or_none]

/-- **Loading.** Rows are loaded exactly when all of them were written with the password,
and the store then has their entries. -/
theorem engineLoad_ok_iff :
    engineLoad (some table) password ∅ = .ok entries ↔
      (∀ row ∈ table.entries, row.2.digest = password) ∧ entries = entriesOf table := by
  have turn : ∀ (rows : List (String × XXRangerKeyStore))
      (before : AssocMap String SecretKeyEntry),
      rows.foldlM (loadRow password) before = .ok entries ↔
        (∀ row ∈ rows, row.2.digest = password) ∧
          entries = before.putAll (rows.map fun row => (row.1, entryOf row.2)) := by
    intro rows
    induction rows with
    | nil =>
        intro before
        refine ⟨fun loaded => ⟨fun row listed => (nomatch listed), ?_⟩, fun loaded => ?_⟩
        · exact (Except.ok.inj loaded).symm
        · exact congrArg Except.ok loaded.2.symm
    | cons row rest ih =>
        intro before
        rw [List.foldlM_cons, List.forall_mem_cons]
        unfold loadRow
        by_cases own : row.2.digest = password
        · rw [if_pos own]
          exact (ih _).trans (and_congr_left' (and_iff_right own).symm)
        · rw [if_neg own]
          exact ⟨fun loaded => (nomatch loaded), fun loaded => absurd loaded.1.1 own⟩
  change (if table.isEmpty then Except.ok ∅ else table.entries.foldlM (loadRow password) ∅) =
    _ ↔ _
  by_cases empty : table.isEmpty = true
  · have rows : table.entries = [] := List.isEmpty_iff.mp empty
    rw [if_pos empty, entriesOf, rows]
    exact turn [] ∅
  · rw [if_neg empty]
    exact turn table.entries ∅

theorem mapObjectToEntity_entryOf {row : XXRangerKeyStore} (own : row.digest = password) :
    mapObjectToEntity (entryOf row) password = row := by
  rw [← own]
  rfl

end RangerKeyStore

namespace RangerKeyStoreProvider

section View

variable [Platform]

/-- Two providers show the same names, metadata and versions. -/
structure SameView (first second : RangerKeyStoreProvider) : Prop where
  keys : ∀ name, name ∈ first.getKeys ↔ name ∈ second.getKeys
  metadata : ∀ name, (first.getMetadata name).1 = (second.getMetadata name).1
  versions : ∀ versionName, first.getKeyVersion versionName = second.getKeyVersion versionName

/-- The rows of the table are those of the entries, and what is in the cache is in the
entry of its alias. -/
structure Stored (provider : RangerKeyStoreProvider) : Prop where
  table : ∀ keyAlias, provider.table.get? keyAlias =
    (provider.entries.get? keyAlias).map fun entry => mapObjectToEntity entry provider.masterKey
  cache : ∀ name metadata, provider.cache.get? name = some metadata →
    ∃ entry, provider.entries.get? (convertAlias name) = some entry ∧
      entry.sealedKey = ⟨.keyMetadata metadata, provider.masterKey⟩

variable {provider reloaded : RangerKeyStoreProvider}

omit [Platform] in
theorem mem_getKeys_iff {name : String} :
    name ∈ provider.getKeys ↔
      (provider.entries.get? name).isSome = true ∧ name.toList.contains '@' = false := by
  unfold getKeys
  rw [List.mem_filter, AssocMap.isSome_get?_iff, Bool.not_eq_true']

theorem getMetadata_congr (same : ∀ keyAlias, provider.entries.get? keyAlias =
    reloaded.entries.get? keyAlias) (masterKey : provider.masterKey = reloaded.masterKey)
    {name : String} (fresh : provider.cache.get? name = none)
    (fresh' : reloaded.cache.get? name = none) :
    (provider.getMetadata name).1 = (reloaded.getMetadata name).1 := by
  unfold getMetadata engineGetKey
  rw [fresh, fresh', contains_congr same, same, masterKey]
  cases reloaded.contains name with
  | false => rfl
  | true =>
      simp only [↓reduceIte]
      cases reloaded.entries.get? (convertAlias name) with
      | none => rfl
      | some entry =>
          by_cases own : entry.sealedKey.password = reloaded.masterKey
          · simp only [own, ↓reduceIte]
            cases entry.sealedKey.key <;> rfl
          · simp only [own, ↓reduceIte]

/-- What is in the entry of an alias is what is found for a name that is not cached. -/
theorem getMetadata_of_entry {name : String} {entry : SecretKeyEntry} {metadata : Metadata}
    (fresh : provider.cache.get? name = none)
    (found : provider.entries.get? (convertAlias name) = some entry)
    (own : entry.sealedKey = ⟨.keyMetadata metadata, provider.masterKey⟩) :
    (provider.getMetadata name).1 = .ok (some metadata) := by
  have present : provider.contains name = true := by
    rw [contains_iff, found]
    rfl
  unfold getMetadata engineGetKey
  rw [fresh, found]
  simp only [present, own, ↓reduceIte]

omit [Platform] in
/-- A provider is made exactly when the rows were written with its master key. -/
theorem new_ok_iff {table : KeyTable} {masterKey : String} :
    RangerKeyStoreProvider.new true table masterKey = .ok provider ↔
      (∀ row ∈ table.entries, row.2.digest = masterKey) ∧
        provider = { entries := entriesOf table, table := table, masterKey := masterKey } := by
  unfold RangerKeyStoreProvider.new
  rw [if_pos rfl]
  constructor
  · intro started
    rcases loaded : engineLoad (some table) masterKey ∅ with error | entries
    · rw [loaded] at started
      nomatch started
    · rw [loaded] at started
      obtain ⟨own, same⟩ := engineLoad_ok_iff.mp loaded
      refine ⟨own, ?_⟩
      rw [← same]
      exact (Except.ok.inj started).symm
  · rintro ⟨own, rfl⟩
    rw [engineLoad_ok_iff.mpr ⟨own, rfl⟩]
    rfl

/-- **Reading back.** A provider over stored rows shows what was stored. -/
theorem Stored.sameView (written : provider.Stored) :
    ∃ reloaded, RangerKeyStoreProvider.new true provider.table provider.masterKey = .ok reloaded ∧
      provider.SameView reloaded := by
  have own : ∀ row ∈ provider.table.entries, row.2.digest = provider.masterKey := by
    intro row listed
    have read : provider.table.get? row.1 = some row.2 := AssocMap.get?_eq_some_iff.mpr listed
    rw [written.table] at read
    obtain ⟨entry, _, same⟩ := Option.map_eq_some_iff.mp read
    rw [← same]
    rfl
  let reloaded : RangerKeyStoreProvider :=
    { entries := entriesOf provider.table
      table := provider.table
      masterKey := provider.masterKey }
  have same : ∀ keyAlias, provider.entries.get? keyAlias = reloaded.entries.get? keyAlias := by
    intro keyAlias
    refine Eq.symm ((get?_entriesOf provider.table keyAlias).trans ?_)
    rw [written.table, Option.map_map]
    exact Option.map_id'
  have fresh : ∀ name, reloaded.cache.get? name = none := fun _ => rfl
  refine ⟨reloaded, new_ok_iff.mpr ⟨own, rfl⟩, ?_, ?_, ?_⟩
  · intro name
    rw [mem_getKeys_iff, mem_getKeys_iff, same]
  · intro name
    cases known : provider.cache.get? name with
    | none => exact getMetadata_congr same rfl known (fresh name)
    | some metadata =>
        obtain ⟨entry, found, own⟩ := written.cache name metadata known
        have cached : (provider.getMetadata name).1 = .ok (some metadata) := by
          unfold getMetadata
          rw [known]
        rw [cached]
        exact (getMetadata_of_entry (fresh name) ((same _).symm.trans found) own).symm
  · intro versionName
    exact getKeyVersion_congr same rfl versionName

end View

section Conditions

variable [Platform]

/-- The metadata that a call puts in the cache, under its name. -/
def Call.caches (provider : RangerKeyStoreProvider) : Call → Option (String × Metadata)
  | createKey date _ name material options =>
      if provider.contains name = false ∧ provider.cache.get? name = none ∧
        options.bitLength = bitsOf material then some (name, options.metadata date)
      else none
  | rollNewVersion _ _ name material => (provider.metadata? name).map fun metadata =>
      (name, if metadata.bitLength = bitsOf material then metadata.addVersion else metadata)
  | deleteKey _ _ => none
  | flush _ _ _ => none
  | getMetadata name => (provider.metadata? name).map fun metadata => (name, metadata)

/-- Other spellings of a name are cached with the same metadata. -/
def AgreesWith (cache : AssocMap String Metadata) (entry : String × Metadata) : Prop :=
  ∀ known ∈ cache.entries, known.1 ≠ entry.1 → convertAlias known.1 = convertAlias entry.1 →
    known.2 = entry.2

variable (provider : RangerKeyStoreProvider)

/-- A version is set unless a flush is due anyway, and no write to the table is lost that
would change it. -/
def Lossless : Call → Prop
  | .createKey _ sealable name material options =>
      provider.contains name = false → provider.cache.get? name = none →
        options.bitLength = bitsOf material →
          sealable = true ∧ material ≠ [] ∨ provider.changed = true
  | .rollNewVersion _ sealable name material =>
      ∀ metadata ∈ provider.metadata? name, metadata.bitLength = bitsOf material →
        sealable = true ∧ material ≠ [] ∨ provider.changed = true
  | .deleteKey deleted name =>
      ∀ metadata ∈ provider.metadata? name, ∀ keyAlias ∈ aliasesOf name metadata,
        (provider.table.get? (convertAlias keyAlias)).isSome = true →
          deleted (convertAlias keyAlias) = true
  | .flush _ sealable stored =>
      provider.changed = true → (∀ name ∈ provider.cache.keys, sealable name = true) →
        (∀ name ∈ provider.cache.keys, stored (convertAlias name) = true) ∧
          ∀ entry ∈ provider.entries.entries,
            entry.1 ∉ provider.cache.keys.map convertAlias → stored entry.1 = true ∨
              provider.table.get? entry.1 = some (mapObjectToEntity entry.2 provider.masterKey)
  | .getMetadata _ => True

/-- The condition on a call: the cache stays coherent, and no write is lost. -/
structure Recorded (call : Call) : Prop where
  agrees : ∀ entry ∈ call.caches provider, AgreesWith provider.cache entry
  lossless : provider.Lossless call

instance (cache : AssocMap String Metadata) (entry : String × Metadata) :
    Decidable (AgreesWith cache entry) :=
  inferInstanceAs (Decidable (∀ known ∈ cache.entries, _ → _ → _))

instance (call : Call) : Decidable (provider.Lossless call) := by
  cases call <;> unfold Lossless <;> infer_instance

instance (call : Call) : Decidable (provider.Recorded call) :=
  decidable_of_iff ((∀ entry ∈ call.caches provider, AgreesWith provider.cache entry) ∧
    provider.Lossless call) ⟨fun both => ⟨both.1, both.2⟩, fun both => ⟨both.agrees, both.lossless⟩⟩

/-- Whenever a flush returns, a new provider over the table shows the same keys. -/
def Durable (calls : List Call) : Prop :=
  ∀ done date sealable stored rest, calls = done ++ .flush date sealable stored :: rest →
    let flushed := (Run.final Call.perform provider done).flush date sealable stored
    flushed.1 = .ok () →
      ∃ reloaded, RangerKeyStoreProvider.new true flushed.2.table flushed.2.masterKey =
        .ok reloaded ∧ flushed.2.SameView reloaded

end Conditions

section Agreement

variable [Platform] {cache : AssocMap String Metadata} {name : String} {metadata : Metadata}

/-- Cached spellings of one name have one metadata. -/
def Agreeing (cache : AssocMap String Metadata) : Prop :=
  ∀ name other metadata known, cache.get? name = some metadata → cache.get? other = some known →
    convertAlias other = convertAlias name → known = metadata

theorem Agreeing.cached {after : AssocMap String Metadata} (agreeing : Agreeing cache)
    (agrees : AgreesWith cache (name, metadata))
    (read : ∀ other, after.get? other = if other = name then some metadata else cache.get? other) :
    Agreeing after := by
  intro first second found known here there same
  rw [read] at here there
  by_cases own : first = name
  · rw [if_pos own] at here
    by_cases own' : second = name
    · rw [if_pos own'] at there
      exact (Option.some.inj there).symm.trans (Option.some.inj here)
    · rw [if_neg own'] at there
      rw [own] at same
      rw [← Option.some.inj here]
      exact agrees (second, known) (AssocMap.get?_eq_some_iff.mp there) own' same
  · rw [if_neg own] at here
    by_cases own' : second = name
    · rw [if_pos own'] at there
      rw [own'] at same
      rw [← Option.some.inj there]
      exact (agrees (first, found) (AssocMap.get?_eq_some_iff.mp here) own same.symm).symm
    · rw [if_neg own'] at there
      exact agreeing first second found known here there same

theorem Agreeing.remove (agreeing : Agreeing cache) (name : String) :
    Agreeing (cache.remove name) := by
  intro first second found known here there same
  rw [AssocMap.get?_remove] at here there
  split at here
  · cases here
  · split at there
    · cases there
    · exact agreeing first second found known here there same

end Agreement

/-- What holds of a provider between calls. -/
structure Backed [Platform] (provider : RangerKeyStoreProvider) : Prop where
  rows : ∀ keyAlias, (provider.table.get? keyAlias).isSome = true →
    (provider.entries.get? keyAlias).isSome = true
  agreeing : Agreeing provider.cache
  stored : provider.changed = false → provider.Stored

namespace Backed

variable [Platform] {provider : RangerKeyStoreProvider} {name : String}

/-- **Loading.** A provider that was just loaded has stored everything. -/
theorem of_new {table : KeyTable} {masterKey : String}
    (loaded : RangerKeyStoreProvider.new true table masterKey = .ok provider) :
    provider.Backed := by
  obtain ⟨own, rfl⟩ := new_ok_iff.mp loaded
  refine ⟨fun keyAlias present => ?_, fun _ _ _ _ here => (nomatch here), fun _ => ⟨?_, ?_⟩⟩
  · rw [get?_entriesOf, Option.isSome_map]
    exact present
  · intro keyAlias
    rw [get?_entriesOf, Option.map_map]
    cases read : table.get? keyAlias with
    | none => rfl
    | some row =>
        have written := own (keyAlias, row) (AssocMap.get?_eq_some_iff.mp read)
        exact congrArg some (mapObjectToEntity_entryOf written).symm
  · exact fun _ _ here => nomatch here

/-- **Looking.** Metadata is cached as it is in its entry. -/
theorem getMetadata (backed : provider.Backed)
    (agrees : ∀ metadata ∈ provider.metadata? name, AgreesWith provider.cache (name, metadata)) :
    (provider.getMetadata name).2.Backed := by
  rcases getMetadata_cases provider name with
    ⟨_, _, same⟩ | ⟨_, ⟨entry, metadata, found, own, same⟩ | ⟨_, same⟩ | ⟨_, same⟩⟩
  · rw [same]
    exact backed
  · have known : provider.metadata? name = some metadata := metadata?_eq_some_iff.mpr (by rw [same])
    rw [same]
    refine ⟨backed.rows, backed.agreeing.cached (agrees metadata known) ?_, fun clean => ?_⟩
    · exact fun other => AssocMap.get?_put _ _ _ _
    · have written := backed.stored clean
      refine ⟨written.table, fun other cached here => ?_⟩
      have read : (provider.cached name metadata).cache.get? other =
          if other = name then some metadata else provider.cache.get? other :=
        AssocMap.get?_put _ _ _ _
      rw [read] at here
      by_cases self : other = name
      · rw [if_pos self] at here
        cases here
        rw [self]
        exact ⟨entry, found, own⟩
      · rw [if_neg self] at here
        exact written.cache other cached here
  · rw [same]
    exact backed
  · rw [same]
    exact backed

/-- **Adding a version.** It is set, or a flush is due anyway. -/
theorem innerSetKeyVersion {date : Nat} {sealable : Bool} {versionName : String}
    {material : List UInt8} {metadata : Metadata}
    (rows : ∀ keyAlias, (provider.table.get? keyAlias).isSome = true →
      (provider.entries.get? keyAlias).isSome = true)
    (agreeing : Agreeing provider.cache)
    (due : sealable = true ∧ material ≠ [] ∨ provider.changed = true) :
    (provider.innerSetKeyVersion date sealable name versionName material metadata).2.Backed := by
  rcases innerSetKeyVersion_cases provider date sealable name versionName material metadata with
    ⟨⟨error, refused⟩, unset⟩ | ⟨_, written⟩
  · rw [refused]
    refine ⟨rows, agreeing, fun clean => ?_⟩
    change provider.changed = false at clean
    rcases due with ⟨sealed, filled⟩ | changed
    · rcases unset with empty | unsealed
      · exact absurd empty filled
      · exact absurd sealed (unsealed ▸ Bool.false_ne_true)
    · exact absurd changed (clean ▸ Bool.false_ne_true)
  · rw [written]
    refine ⟨fun keyAlias present => ?_, agreeing, fun clean => nomatch clean⟩
    have read : (provider.withVersion date versionName material metadata).entries.get? keyAlias =
        if keyAlias = convertAlias versionName then
          some (entryFor (.secretKeySpec material metadata.cipher) provider.masterKey metadata date)
        else provider.entries.get? keyAlias := AssocMap.get?_put _ _ _ _
    rw [read]
    split
    · rfl
    · exact rows keyAlias present

theorem createKey (backed : provider.Backed) {date : Nat} {sealable : Bool}
    {material : List UInt8} {options : Options}
    (recorded : provider.Recorded (.createKey date sealable name material options)) :
    (provider.createKey date sealable name material options).2.Backed := by
  rcases createKey_cases provider date sealable name material options with
    ⟨⟨error, refused⟩, _⟩ | ⟨absent, fresh, long, written⟩
  · rw [refused]
    exact backed
  · rw [written]
    have agrees := recorded.agrees (name, options.metadata date)
      (if_pos ⟨absent, fresh, long⟩)
    refine innerSetKeyVersion backed.rows ?_ ?_
    · exact backed.agreeing.cached agrees fun other => AssocMap.get?_put _ _ _ _
    · exact recorded.lossless absent fresh long

theorem rollNewVersion (backed : provider.Backed) {date : Nat} {sealable : Bool}
    {material : List UInt8}
    (recorded : provider.Recorded (.rollNewVersion date sealable name material)) :
    (provider.rollNewVersion date sealable name material).2.Backed := by
  have looked := getMetadata_looked provider name
  rcases rollNewVersion_cases provider date sealable name material with
    ⟨error, refused, short⟩ | ⟨metadata, found, long, written⟩
  · rw [refused]
    apply backed.getMetadata
    intro metadata known
    apply recorded.agrees (name, metadata)
    have short := short metadata (metadata?_eq_some_iff.mp known)
    change (provider.metadata? name).map _ = _
    rw [known]
    exact congrArg (fun cached => some (name, cached)) (if_neg short)
  · have known := metadata?_eq_some_iff.mpr found
    have agrees : AgreesWith provider.cache (name, metadata.addVersion) := by
      apply recorded.agrees (name, metadata.addVersion)
      change (provider.metadata? name).map _ = _
      rw [known]
      exact congrArg (fun cached => some (name, cached)) (if_pos long)
    rw [written]
    apply innerSetKeyVersion
    · intro keyAlias present
      change ((provider.getMetadata name).2.entries.get? keyAlias).isSome = true
      rw [looked.entries]
      apply backed.rows
      rw [← looked.table]
      exact present
    · apply backed.agreeing.cached agrees
      intro other
      refine (AssocMap.get?_put _ _ _ _).trans ?_
      by_cases own : other = name
      · rw [if_pos own, if_pos own]
      · rw [if_neg own, if_neg own]
        rcases looked.cache with same | ⟨_, _, found, _, _, same⟩
        · rw [same]
        · rw [same]
          exact (AssocMap.get?_put _ _ _ _).trans (if_neg own)
    · change _ ∨ (provider.getMetadata name).2.changed = true
      rw [looked.changed]
      exact recorded.lossless metadata known long

/-- Taking entries out whose rows are deleted leaves no row without its entry. -/
theorem rows_erased {deleted : String → Bool} (aliases : List String)
    (rows : ∀ keyAlias, (provider.table.get? keyAlias).isSome = true →
      (provider.entries.get? keyAlias).isSome = true)
    (gone : ∀ keyAlias ∈ aliases, (provider.table.get? (convertAlias keyAlias)).isSome = true →
      deleted (convertAlias keyAlias) = true) :
    ∀ keyAlias, ((erased deleted provider aliases).table.get? keyAlias).isSome = true →
      ((erased deleted provider aliases).entries.get? keyAlias).isSome = true := by
  induction aliases generalizing provider with
  | nil => exact rows
  | cons first rest ih =>
      have table : ∀ keyAlias, ((provider.deleteEntry deleted first).table.get? keyAlias).isSome =
          true → (provider.table.get? keyAlias).isSome = true ∧ keyAlias ≠ convertAlias first := by
        intro keyAlias
        unfold deleteEntry
        cases present : provider.contains first with
        | true =>
            intro kept
            by_cases own : keyAlias = convertAlias first
            · exfalso
              subst own
              simp only [↓reduceIte] at kept
              cases done : deleted (convertAlias first) with
              | true =>
                  simp only [done, ↓reduceIte, AssocMap.get?_remove] at kept
                  cases kept
              | false =>
                  simp only [done, Bool.false_eq_true, ↓reduceIte] at kept
                  have taken := gone first List.mem_cons_self kept
                  rw [done] at taken
                  cases taken
            · refine ⟨?_, own⟩
              cases done : deleted (convertAlias first) with
              | true =>
                  simpa only [done, ↓reduceIte, AssocMap.get?_remove, own] using kept
              | false => simpa only [done, Bool.false_eq_true, ↓reduceIte] using kept
        | false =>
            intro kept
            refine ⟨kept, fun own => ?_⟩
            have entry := rows keyAlias kept
            rw [own, get?_of_not_contains present] at entry
            cases entry
      apply ih
      · intro keyAlias kept
        obtain ⟨kept, other⟩ := table keyAlias kept
        rw [get?_deleteEntry, if_neg other]
        exact rows keyAlias kept
      · intro keyAlias listed kept
        exact gone keyAlias (List.mem_cons_of_mem _ listed) (table _ kept).1

theorem deleteKey (backed : provider.Backed) {deleted : String → Bool}
    (recorded : provider.Recorded (.deleteKey deleted name)) :
    (provider.deleteKey deleted name).2.Backed := by
  have looked := getMetadata_looked provider name
  rcases deleteKey_cases deleted provider name with ⟨error, refused⟩ | ⟨metadata, found, gone⟩
  · rw [refused]
    exact backed
  · rw [gone]
    have cache : Agreeing ((provider.getMetadata name).2.cache.remove name) := by
      have same : ∀ other, ((provider.getMetadata name).2.cache.remove name).get? other =
          (provider.cache.remove name).get? other := by
        intro other
        rw [AssocMap.get?_remove, AssocMap.get?_remove]
        by_cases own : other = name
        · rw [if_pos own, if_pos own]
        · rw [if_neg own, if_neg own]
          rcases looked.cache with same | ⟨_, _, found, _, _, same⟩
          · rw [same]
          · rw [same]
            exact (AssocMap.get?_put _ _ _ _).trans (if_neg own)
      intro first second found known here there
      rw [same] at here there
      exact backed.agreeing.remove name first second found known here there
    refine ⟨?_, cache, fun clean => nomatch clean⟩
    apply rows_erased
    · rw [looked.table, looked.entries]
      exact backed.rows
    · rw [looked.table]
      exact recorded.lossless metadata (metadata?_eq_some_iff.mpr found)

end Backed

section Flushed

variable [Platform] {provider : RangerKeyStoreProvider} {date : Nat} {sealable : String → Bool}

/-- Metadata is set only when all of it can be sealed. -/
theorem sealable_of_setMetadata (metadata : List (String × Metadata))
    (set : (setMetadata date sealable metadata provider).1 = .ok ()) :
    ∀ entry ∈ metadata, sealable entry.1 = true := by
  induction metadata generalizing provider with
  | nil => exact fun entry listed => absurd listed List.not_mem_nil
  | cons first rest ih =>
      obtain ⟨name, own⟩ := first
      unfold setMetadata setKeyEntry at set
      cases sealed : sealable name with
      | false =>
          rw [sealed] at set
          cases set
      | true =>
          rw [sealed] at set
          rw [List.forall_mem_cons]
          exact ⟨sealed, ih set⟩

/-- **Setting metadata.** The entries hold the metadata of all names, unless two spellings
of a name have different metadata. -/
theorem entries_of_setMetadata (metadata : List (String × Metadata))
    (set : (setMetadata date sealable metadata provider).1 = .ok ())
    (agreeing : ∀ first ∈ metadata, ∀ second ∈ metadata,
      convertAlias second.1 = convertAlias first.1 → second.2 = first.2) :
    ∀ named ∈ metadata, ∃ entry,
      (setMetadata date sealable metadata provider).2.entries.get? (convertAlias named.1) =
          some entry ∧
        entry.sealedKey = ⟨.keyMetadata named.2, provider.masterKey⟩ := by
  induction metadata generalizing provider with
  | nil => exact fun named listed => absurd listed List.not_mem_nil
  | cons first rest ih =>
      obtain ⟨name, own⟩ := first
      unfold setMetadata setKeyEntry at set ⊢
      cases sealed : sealable name with
      | false =>
          rw [sealed] at set
          cases set
      | true =>
          rw [sealed] at set
          let next : RangerKeyStoreProvider := { provider with
            entries := provider.entries.put (convertAlias name)
              (entryFor (.keyMetadata own) provider.masterKey own date) }
          have later := @ih next set fun first here second there =>
            agreeing first (List.mem_cons_of_mem _ here) second (List.mem_cons_of_mem _ there)
          rw [List.forall_mem_cons]
          refine ⟨?_, later⟩
          -- the last of the names with an alias is the one that stays
          by_cases again : convertAlias name ∈ rest.map fun entry => convertAlias entry.1
          · obtain ⟨second, listed, same⟩ := List.mem_map.mp again
            have equal := agreeing (name, own) List.mem_cons_self second
              (List.mem_cons_of_mem _ listed) same
            obtain ⟨entry, found, holds⟩ := later second listed
            refine ⟨entry, Eq.trans ?_ found, ?_⟩
            · rw [same]
              rfl
            · rw [holds, equal]
          · have reset : Reset rest next (setMetadata date sealable rest next).2 :=
              setMetadata_reset rest next
            refine ⟨entryFor (.keyMetadata own) provider.masterKey own date,
              (reset.entries _ again).trans ?_, rfl⟩
            exact (AssocMap.get?_put _ _ _ _).trans (if_pos rfl)

/-- **Flushing.** A flush that returns has stored everything. -/
theorem Backed.flush (backed : provider.Backed) {stored : String → Bool}
    (lossless : provider.Lossless (.flush date sealable stored)) :
    (provider.flush date sealable stored).2.Backed := by
  have reset : Reset provider.cache.entries provider
      (setMetadata date sealable provider.cache.entries provider).2 := setMetadata_reset _ _
  have rows : ∀ keyAlias, (provider.table.get? keyAlias).isSome = true →
      ((setMetadata date sealable provider.cache.entries provider).2.entries.get?
        keyAlias).isSome = true :=
    fun keyAlias present => reset.kept keyAlias (backed.rows keyAlias present)
  rcases flush_cases provider date sealable stored with
    ⟨_, same⟩ | ⟨changed, ⟨error, same⟩ | ⟨set, same⟩⟩
  · rw [same]
    exact backed
  · rw [same]
    refine ⟨fun keyAlias present => ?_, ?_, fun clean => ?_⟩
    · rw [reset.table] at present
      exact rows keyAlias present
    · rw [reset.cache]
      exact backed.agreeing
    · rw [reset.changed, changed] at clean
      nomatch clean
  · rw [same]
    obtain ⟨names, others⟩ := lossless changed fun name listed => by
      obtain ⟨entry, known, rfl⟩ := List.mem_map.mp listed
      exact sealable_of_setMetadata _ set entry known
    have table : ∀ keyAlias, (engineStore stored
        (setMetadata date sealable provider.cache.entries provider).2.masterKey
        (setMetadata date sealable provider.cache.entries provider).2.entries
        (setMetadata date sealable provider.cache.entries provider).2.table).get? keyAlias =
        ((setMetadata date sealable provider.cache.entries provider).2.entries.get? keyAlias).map
          fun entry => mapObjectToEntity entry
            (setMetadata date sealable provider.cache.entries provider).2.masterKey := by
      intro keyAlias
      rw [get?_engineStore, reset.table, reset.masterKey]
      cases found : (setMetadata date sealable provider.cache.entries provider).2.entries.get?
        keyAlias with
      | none =>
          have absent : provider.table.get? keyAlias = none := by
            apply Option.not_isSome_iff_eq_none.mp
            intro present
            have kept := rows keyAlias present
            rw [found] at kept
            nomatch kept
          rw [absent, ite_self]
          rfl
      | some entry =>
          cases done : stored keyAlias with
          | true => rfl
          | false =>
              have other : keyAlias ∉ provider.cache.keys.map convertAlias := by
                intro listed
                obtain ⟨name, known, rfl⟩ := List.mem_map.mp listed
                have written := names name known
                rw [done] at written
                nomatch written
              have unset : keyAlias ∉
                  provider.cache.entries.map fun entry => convertAlias entry.1 := by
                intro listed
                apply other
                rw [AssocMap.keys, List.map_map]
                exact listed
              rw [reset.entries keyAlias unset] at found
              have kept := others (keyAlias, entry) (AssocMap.get?_eq_some_iff.mp found) other
              rcases kept with written | same
              · rw [done] at written
                nomatch written
              · exact same
    refine ⟨fun keyAlias present => ?_, ?_, fun _ => ⟨table, ?_⟩⟩
    · rw [table, Option.isSome_map] at present
      exact present
    · change Agreeing (setMetadata date sealable provider.cache.entries provider).2.cache
      rw [reset.cache]
      exact backed.agreeing
    · intro name metadata known
      change (setMetadata date sealable provider.cache.entries provider).2.cache.get? name = _
        at known
      rw [reset.cache] at known
      have agreeing : ∀ first ∈ provider.cache.entries, ∀ second ∈ provider.cache.entries,
          convertAlias second.1 = convertAlias first.1 → second.2 = first.2 :=
        fun first here second there => backed.agreeing first.1 second.1 first.2 second.2
          (AssocMap.get?_eq_some_iff.mpr here) (AssocMap.get?_eq_some_iff.mpr there)
      have entries := entries_of_setMetadata _ set agreeing (name, metadata)
        (AssocMap.get?_eq_some_iff.mp known)
      rw [← reset.masterKey] at entries
      exact entries

/-- What a flush that returns leaves behind is stored. -/
theorem Backed.stored_of_flush (backed : provider.Backed) {stored : String → Bool}
    (lossless : provider.Lossless (.flush date sealable stored))
    (returned : (provider.flush date sealable stored).1 = .ok ()) :
    (provider.flush date sealable stored).2.Stored := by
  apply (backed.flush lossless).stored
  rcases flush_cases provider date sealable stored with
    ⟨clean, same⟩ | ⟨_, ⟨error, same⟩ | ⟨_, same⟩⟩
  · rw [same]
    exact clean
  · rw [same] at returned
    nomatch returned
  · rw [same]

/-- **Steps.** A call that is recorded leaves the provider backed by its table. -/
theorem Backed.perform (backed : provider.Backed) {call : Call}
    (recorded : provider.Recorded call) : (call.perform provider).2.Backed := by
  cases call with
  | createKey date sealable name material options => exact backed.createKey recorded
  | rollNewVersion date sealable name material => exact backed.rollNewVersion recorded
  | deleteKey deleted name => exact backed.deleteKey recorded
  | flush date sealable stored => exact backed.flush recorded.lossless
  | getMetadata name =>
      apply backed.getMetadata
      intro metadata known
      apply recorded.agrees (name, metadata)
      change (provider.metadata? name).map _ = _
      rw [known]
      rfl

/-- **Flushed keys are durable.** On a provider that was loaded from its table, whenever a
flush returns, a new provider over the table shows the same keys, provided that every call
of the run is recorded. -/
theorem flushed_durable {readable : Bool} {table : KeyTable} {masterKey : String}
    (loaded : RangerKeyStoreProvider.new readable table masterKey = .ok provider)
    (read : readable = true ∨ table = ∅) {calls : List Call}
    (recorded : Run.Throughout Call.perform Recorded provider calls) :
    provider.Durable calls := by
  have started : RangerKeyStoreProvider.new true table masterKey = .ok provider := by
    rcases read with rfl | rfl
    · exact loaded
    · rw [← loaded]
      cases readable <;> rfl
  have steps : ∀ (provider : RangerKeyStoreProvider) (call : Call), provider.Backed →
      provider.Recorded call → (call.perform provider).2.Backed :=
    fun _ _ backed recorded => backed.perform recorded
  have always := Run.forall_prefix_of_allowed steps (Backed.of_new started) recorded.at_split
  intro done date sealable stored rest split flushed returned
  have lossless := (recorded.at_split done _ rest split).lossless
  exact ((always done _ split).stored_of_flush lossless returned).sameView

end Flushed

/-- A key is created, flushed, rolled and flushed again while the row of its first version
cannot be written, beside a key that is created, flushed and deleted. -/
private def recovered : List Call :=
  [.createKey 0 true "Zone" [1, 2] ⟨"AES", 16, none, []⟩,
    .flush 1 (fun _ => true) fun _ => true,
    .rollNewVersion 2 true "Zone" [3, 4],
    .createKey 3 true "other" [5, 6] ⟨"AES", 16, none, []⟩,
    .flush 4 (fun _ => true) fun keyAlias => keyAlias != "zone@0",
    .deleteKey (fun _ => true) "other",
    .flush 5 (fun _ => true) fun _ => true]

private def started : RangerKeyStoreProvider := { masterKey := "master" }

theorem recovered_durable : @Durable .ascii started recovered := by
  have loaded : RangerKeyStoreProvider.new true ∅ "master" = .ok started := rfl
  exact @flushed_durable .ascii _ _ _ _ loaded (.inl rfl) _ (by decide +kernel)

/-- **A lost write.** A flush returns although no row was written. -/
theorem unwritten_flush_loses_key :
    RangerKeyStoreProvider.new true ∅ "master" = .ok started ∧
      ¬ @Durable .ascii started
        [.createKey 0 true "zone" [1, 2] ⟨"AES", 16, none, []⟩,
          .flush 1 (fun _ => true) fun _ => false] := by
  refine ⟨rfl, fun durable => ?_⟩
  obtain ⟨reloaded, loaded, view⟩ := durable
    [.createKey 0 true "zone" [1, 2] ⟨"AES", 16, none, []⟩] 1 (fun _ => true) (fun _ => false) []
    rfl rfl
  obtain ⟨_, rfl⟩ := new_ok_iff.mp loaded
  have kept := (@SameView.keys .ascii _ _ view "zone").mp (by decide +kernel)
  exact absurd kept (by decide +kernel)

end RangerKeyStoreProvider

end Ranger

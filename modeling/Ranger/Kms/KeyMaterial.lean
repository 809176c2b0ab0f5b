import Mathlib
import Ranger.Foundation.Run
import Ranger.Kms.ProviderCalls

/-! # The material of live keys

A version stays readable as long as no call sets or takes out its alias for a key of
another name. Aliases are in lower case while the cache tells names apart, so this needs
that no call writes for a name that is another spelling of a live key's.
-/

namespace Ranger

open Foundation KeyProvider RangerKeyStore

/-- A name without the separator. -/
def Plain (name : String) : Prop := '@' ∉ name.toList

instance (name : String) : Decidable (Plain name) := inferInstanceAs (Decidable (_ ∉ _))

/-- `String.toLowerCase` changes the name of a version in front of its separator only,
and makes no separator. -/
structure Platform.KeepsSeparator [Platform] : Prop where
  versioned : ∀ name number,
    Platform.lowerCase (buildVersionName name number) =
      buildVersionName (Platform.lowerCase name) number
  plain : ∀ name, Plain name → Plain (Platform.lowerCase name)

namespace KeyProvider

theorem toList_buildVersionName (name : String) (number : Int) :
    (buildVersionName name number).toList =
      name.toList ++ '@' :: (toString number).toList := by
  unfold buildVersionName
  rw [String.toList_append, String.toList_append, List.append_assoc]
  rfl

theorem mem_toString {number : Int} {char : Char} (listed : char ∈ (toString number).toList) :
    char = '-' ∨ char.isDigit = true := by
  have digits : ∀ count : Nat, char ∈ count.repr.toList → char.isDigit = true := by
    intro count listed
    rw [Nat.toList_repr] at listed
    exact Nat.isDigit_of_mem_toDigits (by decide) (by decide) listed
  rw [Int.toString_eq_repr] at listed
  cases number with
  | ofNat count => exact .inr (digits count listed)
  | negSucc count =>
      unfold Int.repr at listed
      rw [String.toList_append, List.mem_append] at listed
      rcases listed with sign | digit
      · exact .inl (List.mem_singleton.mp sign)
      · exact .inr (digits _ digit)

theorem plain_toString (number : Int) : Plain (toString number) := by
  intro listed
  rcases mem_toString listed with sign | digit
  · exact absurd sign (by decide)
  · exact absurd digit (by decide)

theorem buildVersionName_inj {first second : String} {low high : Int} (plain : Plain first)
    (same : buildVersionName first low = buildVersionName second high) :
    first = second ∧ low = high := by
  have lists := congrArg String.toList same
  rw [toList_buildVersionName, toList_buildVersionName] at lists
  obtain ⟨names, _, numbers⟩ :=
    (List.append_cons_inj_of_notMem plain (plain_toString low)).mp lists
  refine ⟨String.toList_inj.mp names, Int.repr_injective ?_⟩
  rw [← Int.toString_eq_repr, ← Int.toString_eq_repr]
  exact String.toList_inj.mp numbers

theorem getBaseName_buildVersionName (name : String) (number : Int) :
    getBaseName (buildVersionName name number) = some name := by
  have digits : ∀ char ∈ (toString number).toList.reverse, (char != '@') = true := by
    intro char listed
    apply bne_iff_ne.mpr
    intro separator
    rw [separator, List.mem_reverse] at listed
    exact plain_toString number listed
  unfold getBaseName
  rw [toList_buildVersionName, List.reverse_append, List.reverse_cons, List.append_assoc,
    List.dropWhile_append_of_pos digits]
  simp

/-- The letter case of ASCII text leaves the separator and the number alone. -/
theorem keepsSeparator_ascii : @Platform.KeepsSeparator .ascii := by
  let _ := Platform.ascii
  constructor
  · intro name number
    have same : (toString number).toList.map Char.toLower = (toString number).toList := by
      refine (List.map_congr_left fun char listed => ?_).trans (List.map_id _)
      rcases mem_toString listed with rfl | digit
      · rfl
      · unfold Char.isDigit at digit
        unfold Char.toLower
        rw [Bool.and_eq_true, decide_eq_true_eq, decide_eq_true_eq] at digit
        apply dif_neg
        intro letter
        exact absurd (UInt32.le_trans letter.1 digit.2) (by decide)
    apply String.toList_inj.mp
    rw [toList_buildVersionName]
    change (String.ofList ((buildVersionName name number).toList.map Char.toLower)).toList =
      (String.ofList (name.toList.map Char.toLower)).toList ++ _
    rw [String.toList_ofList, String.toList_ofList, toList_buildVersionName, List.map_append,
      List.map_cons, same]
    rfl
  · intro name plain separator
    change '@' ∈ (String.ofList (name.toList.map Char.toLower)).toList at separator
    rw [String.toList_ofList] at separator
    obtain ⟨char, listed, lower⟩ := List.mem_map.mp separator
    rw [eq_of_toLower (by decide) lower] at listed
    exact plain listed

end KeyProvider

/-- A provider with the versions that it returned and whose keys were not deleted since. -/
structure LiveKeys where
  provider : RangerKeyStoreProvider
  live : List KeyVersion := []

open RangerKeyStoreProvider

namespace LiveKeys

section Steps

variable [Platform]

/-- The live versions after a call and its result. -/
def after (live : List KeyVersion) : Call → Except KmsException (Option KeyVersion) →
    List KeyVersion
  | _, .error _ => live
  | _, .ok (some version) => live ++ [version]
  | .deleteKey _ name, .ok none => live.filter fun version => version.name != name
  | _, .ok none => live

def step (keys : LiveKeys) (call : Call) : Except KmsException (Option KeyVersion) × LiveKeys :=
  let (result, provider) := call.perform keys.provider
  (result, ⟨provider, after keys.live call result⟩)

variable (keys : LiveKeys)

/-- No live key has another spelling of a name. -/
def Alone (name : String) : Prop :=
  ∀ version ∈ keys.live, convertAlias version.name = convertAlias name → version.name = name

/-- A call that passes its checks is for a name that is no other spelling of a live key's,
and the number of a version that is added is not taken. -/
def Separate : Call → Prop
  | .createKey _ sealable name material options =>
      keys.provider.contains name = false → keys.provider.cache.get? name = none →
        options.bitLength = bitsOf material → sealable = true → keys.Alone name
  | .rollNewVersion _ sealable name material =>
      ∀ metadata ∈ keys.provider.metadata? name,
        metadata.bitLength = bitsOf material → sealable = true →
          keys.Alone name ∧
            ∀ version ∈ keys.live, version.versionName ≠ buildVersionName name metadata.versions
  | .deleteKey _ name => (keys.provider.metadata? name).isSome = true → keys.Alone name
  | .flush _ _ _ => True
  | .getMetadata _ => True

instance (name : String) : Decidable (keys.Alone name) :=
  inferInstanceAs (Decidable (∀ version ∈ keys.live, _ → _))

instance : (call : Call) → Decidable (keys.Separate call)
  | .createKey .. => inferInstanceAs (Decidable (_ → _ → _ → _ → _))
  | .rollNewVersion .. => inferInstanceAs (Decidable (∀ metadata ∈ keys.provider.metadata? _, _))
  | .deleteKey .. => inferInstanceAs (Decidable (_ → _))
  | .flush .. => inferInstanceAs (Decidable True)
  | .getMetadata _ => inferInstanceAs (Decidable True)

/-- The material of every live version can be read, and a key that is created leaves the
entries of other live keys as they are. -/
structure Unreplaced (steps : List Call) : Prop where
  readable : ∀ done rest, steps = done ++ rest → ∀ version ∈ (Run.final step keys done).live,
    (Run.final step keys done).provider.getKeyVersion version.versionName = .ok (some version)
  untouched : ∀ done date sealable name material options rest,
    steps = done ++ .createKey date sealable name material options :: rest →
      let before := (Run.final step keys done).provider
      let created := before.createKey date sealable name material options
      (∃ error, created.1 = .error error) ∨
        ∀ version ∈ (Run.final step keys done).live, version.name ≠ name →
          ∀ keyAlias ∈ [version.name, version.versionName],
            created.2.entries.get? (convertAlias keyAlias) =
              before.entries.get? (convertAlias keyAlias)

end Steps

/-- A live version: its metadata is cached, and its material is under its alias. -/
structure Kept [Platform] (provider : RangerKeyStoreProvider) (version : KeyVersion) : Prop where
  plain : Plain version.name
  numbered : ∃ number, version.versionName = buildVersionName version.name number
  known : (provider.cache.get? version.name).isSome = true
  stored : ∃ entry algorithm,
    provider.entries.get? (convertAlias version.versionName) = some entry ∧
      entry.sealedKey = ⟨.secretKeySpec version.material algorithm, provider.masterKey⟩

/-- The live versions are kept, and no cached name holds the separator. -/
structure Faithful [Platform] (keys : LiveKeys) : Prop where
  kept : ∀ version ∈ keys.live, Kept keys.provider version
  plain : ∀ name, (keys.provider.cache.get? name).isSome = true → Plain name

section Aliases

variable [Platform] {name other : String} {low high : Int}

theorem convertAlias_versioned (keeps : Platform.KeepsSeparator) (name : String) (number : Int) :
    convertAlias (buildVersionName name number) = buildVersionName (convertAlias name) number :=
  keeps.versioned name number

/-- Versions with the same alias belong to spellings of one name and have one number. -/
theorem convertAlias_inj (keeps : Platform.KeepsSeparator) (plain : Plain name)
    (same : convertAlias (buildVersionName name low) = convertAlias (buildVersionName other high)) :
    convertAlias name = convertAlias other ∧ low = high := by
  rw [convertAlias_versioned keeps, convertAlias_versioned keeps] at same
  exact buildVersionName_inj (keeps.plain name plain) same

theorem convertAlias_versioned_ne (keeps : Platform.KeepsSeparator) (plain : Plain other) :
    convertAlias (buildVersionName name low) ≠ convertAlias other := by
  intro same
  rw [convertAlias_versioned keeps] at same
  apply keeps.plain other plain
  change '@' ∈ (convertAlias other).toList
  rw [← same, toList_buildVersionName]
  simp

end Aliases

namespace Kept

variable [Platform] {before after : RangerKeyStoreProvider} {version : KeyVersion}

/-- A version that is kept can be read. -/
theorem getKeyVersion (kept : Kept before version) :
    before.getKeyVersion version.versionName = .ok (some version) := by
  obtain ⟨entry, algorithm, found, sealedKey⟩ := kept.stored
  obtain ⟨number, numbered⟩ := kept.numbered
  have present : before.contains version.versionName = true := by
    rw [contains_iff, found]
    rfl
  have read : engineGetKey before.entries version.versionName before.masterKey =
      .ok (some (.secretKeySpec version.material algorithm)) := by
    unfold engineGetKey
    rw [found]
    simp only [sealedKey, ↓reduceIte]
  have base : getBaseName version.versionName = some version.name := by
    rw [numbered]
    exact getBaseName_buildVersionName version.name number
  unfold RangerKeyStoreProvider.getKeyVersion
  rw [if_pos present, read, base]

theorem of_same (kept : Kept before version)
    (entries : after.entries.get? (convertAlias version.versionName) =
      before.entries.get? (convertAlias version.versionName))
    (masterKey : after.masterKey = before.masterKey)
    (known : (after.cache.get? version.name).isSome = true) : Kept after version := by
  obtain ⟨entry, algorithm, found, sealedKey⟩ := kept.stored
  refine ⟨kept.plain, kept.numbered, known, entry, algorithm, ?_, ?_⟩
  · rw [entries, found]
  · rw [sealedKey, masterKey]

theorem cached (kept : Kept before version) (name : String) (metadata : Metadata) :
    Kept (before.cached name metadata) version := by
  refine kept.of_same rfl rfl ?_
  have read : (before.cached name metadata).cache.get? version.name =
      if version.name = name then some metadata else before.cache.get? version.name :=
    AssocMap.get?_put _ _ _ _
  rw [read]
  split
  · rfl
  · exact kept.known

theorem looked {name : String} (kept : Kept before version) (looked : Looked name before after) :
    Kept after version := by
  apply kept.of_same
  · rw [looked.entries]
  · exact looked.masterKey
  · rcases looked.cache with same | ⟨_, _, metadata, _, _, same⟩
    · rw [same]
      exact kept.known
    · rw [same]
      exact (kept.cached name metadata).known

/-- Setting another alias keeps a version. -/
theorem withVersion (kept : Kept before version) {date : Nat} {versionName : String}
    {material : List UInt8} {metadata : Metadata}
    (apart : convertAlias version.versionName ≠ convertAlias versionName) :
    Kept (before.withVersion date versionName material metadata) version := by
  refine kept.of_same ?_ rfl kept.known
  exact (AssocMap.get?_put _ _ _ _).trans (if_neg apart)

/-- A version that is set is kept. -/
theorem of_withVersion {date : Nat} {name : String} {number : Int} {material : List UInt8}
    {metadata : Metadata} (plain : Plain name)
    (known : (before.cache.get? name).isSome = true) :
    Kept (before.withVersion date (buildVersionName name number) material metadata)
      ⟨name, buildVersionName name number, material⟩ where
  plain := plain
  numbered := ⟨number, rfl⟩
  known := known
  stored := ⟨entryFor (.secretKeySpec material metadata.cipher) before.masterKey metadata date,
    metadata.cipher, (AssocMap.get?_put _ _ _ _).trans (if_pos rfl), rfl⟩

end Kept

namespace Faithful

variable [Platform] {keys : LiveKeys} {name : String}

theorem cached (faithful : keys.Faithful) (plain : Plain name) (metadata : Metadata) :
    Faithful ⟨keys.provider.cached name metadata, keys.live⟩ where
  kept version listed := (faithful.kept version listed).cached name metadata
  plain other known := by
    have read : (keys.provider.cached name metadata).cache.get? other =
        if other = name then some metadata else keys.provider.cache.get? other :=
      AssocMap.get?_put _ _ _ _
    by_cases own : other = name
    · rw [own]
      exact plain
    · apply faithful.plain
      rw [← known]
      exact congrArg Option.isSome (read.trans (if_neg own)).symm

/-- **Looking.** A look at the metadata of a key keeps all versions. -/
theorem getMetadata (faithful : keys.Faithful) (plain : Plain name) :
    Faithful ⟨(keys.provider.getMetadata name).2, keys.live⟩ := by
  have looked := getMetadata_looked keys.provider name
  refine ⟨fun version listed => (faithful.kept version listed).looked looked, ?_⟩
  intro other known
  rcases looked.cache with same | ⟨_, _, metadata, _, _, same⟩
  · rw [same] at known
    exact faithful.plain other known
  · rw [same] at known
    exact (faithful.cached plain metadata).plain other known

/-- **Adding a version.** An alias that no live version has is set. -/
theorem innerSetKeyVersion (faithful : keys.Faithful) {date : Nat} {sealable : Bool}
    {number : Int} {material : List UInt8} {metadata : Metadata} (plain : Plain name)
    (known : (keys.provider.cache.get? name).isSome = true)
    (apart : sealable = true → ∀ version ∈ keys.live,
      convertAlias version.versionName ≠ convertAlias (buildVersionName name number))
    (call : Call) :
    Faithful ⟨(keys.provider.innerSetKeyVersion date sealable name (buildVersionName name number)
        material metadata).2,
      after keys.live call ((keys.provider.innerSetKeyVersion date sealable name
        (buildVersionName name number) material metadata).1.map some)⟩ := by
  rcases innerSetKeyVersion_cases keys.provider date sealable name (buildVersionName name number)
    material metadata with ⟨⟨error, refused⟩, _⟩ | ⟨sealed, written⟩
  · rw [refused]
    cases call <;> exact faithful
  · rw [written]
    have versions : ∀ version ∈ keys.live ++ [⟨name, buildVersionName name number, material⟩],
        Kept (keys.provider.withVersion date (buildVersionName name number) material metadata)
          version := by
      intro version listed
      rcases List.mem_append.mp listed with older | added
      · exact (faithful.kept version older).withVersion (apart sealed version older)
      · rw [List.mem_singleton.mp added]
        exact .of_withVersion plain known
    cases call <;> exact ⟨versions, faithful.plain⟩

theorem createKey (keeps : Platform.KeepsSeparator) (faithful : keys.Faithful)
    (plain : Plain name) {date : Nat} {sealable : Bool} {material : List UInt8}
    {options : Options}
    (separate : keys.Separate (.createKey date sealable name material options)) :
    (keys.step (.createKey date sealable name material options)).2.Faithful := by
  rcases createKey_cases keys.provider date sealable name material options with
    ⟨⟨error, refused⟩, _⟩ | ⟨absent, fresh, long, written⟩
  · unfold LiveKeys.step Call.perform
    simp only [refused]
    exact faithful
  · -- a live version of the same name would have its metadata in the cache
    have apart : sealable = true → ∀ version ∈ keys.live,
        convertAlias version.versionName ≠ convertAlias (buildVersionName name 0) := by
      intro sealed version listed same
      have kept := faithful.kept version listed
      obtain ⟨number, numbered⟩ := kept.numbered
      rw [numbered] at same
      have spelling := (convertAlias_inj keeps kept.plain same).1
      have own := separate absent fresh long sealed version listed spelling
      have known := kept.known
      rw [own, fresh] at known
      exact Bool.false_ne_true known
    have known : ((keys.provider.cached name (options.metadata date)).cache.get? name).isSome =
        true := by
      have read := (AssocMap.get?_put keys.provider.cache name name
        (options.metadata date)).trans (if_pos rfl)
      exact congrArg Option.isSome read
    unfold LiveKeys.step Call.perform
    simp only [written]
    exact (faithful.cached plain _).innerSetKeyVersion plain known apart _

theorem rollNewVersion (keeps : Platform.KeepsSeparator) (faithful : keys.Faithful)
    (plain : Plain name) {date : Nat} {sealable : Bool} {material : List UInt8}
    (separate : keys.Separate (.rollNewVersion date sealable name material)) :
    (keys.step (.rollNewVersion date sealable name material)).2.Faithful := by
  have looked := faithful.getMetadata plain
  rcases rollNewVersion_cases keys.provider date sealable name material with
    ⟨error, refused, _⟩ | ⟨metadata, found, long, written⟩
  · unfold LiveKeys.step Call.perform
    simp only [refused]
    exact looked
  · have apart : sealable = true → ∀ version ∈ keys.live, convertAlias version.versionName ≠
        convertAlias (buildVersionName name metadata.versions) := by
      intro sealed version listed same
      obtain ⟨alone, unused⟩ := separate metadata (metadata?_eq_some_iff.mpr found) long sealed
      have kept := faithful.kept version listed
      obtain ⟨number, numbered⟩ := kept.numbered
      rw [numbered] at same
      obtain ⟨spelling, equal⟩ := convertAlias_inj keeps kept.plain same
      apply unused version listed
      rw [numbered, alone version listed spelling, equal]
    have known : (((keys.provider.getMetadata name).2.cached name
        metadata.addVersion).cache.get? name).isSome = true := by
      have read := (AssocMap.get?_put (keys.provider.getMetadata name).2.cache name name
        metadata.addVersion).trans (if_pos rfl)
      exact congrArg Option.isSome read
    unfold LiveKeys.step Call.perform
    simp only [written]
    exact (looked.cached plain metadata.addVersion).innerSetKeyVersion plain known apart _

theorem deleteKey (keeps : Platform.KeepsSeparator) (faithful : keys.Faithful)
    (plain : Plain name) {deleted : String → Bool}
    (separate : keys.Separate (.deleteKey deleted name)) :
    (keys.step (.deleteKey deleted name)).2.Faithful := by
  have looked := faithful.getMetadata plain
  rcases deleteKey_cases deleted keys.provider name with
    ⟨error, refused⟩ | ⟨metadata, found, gone⟩
  · unfold LiveKeys.step Call.perform
    simp only [refused]
    exact faithful
  · unfold LiveKeys.step Call.perform
    simp only [gone]
    constructor
    · intro version listed
      obtain ⟨listed, stays⟩ := List.mem_filter.mp listed
      have other : version.name ≠ name := bne_iff_ne.mp stays
      have kept := looked.kept version listed
      have some : (keys.provider.metadata? name).isSome = true := by
        rw [metadata?_eq_some_iff.mpr found]
        rfl
      have spelling : convertAlias version.name ≠ convertAlias name :=
        fun same => other (separate some version listed same)
      apply kept.of_same
      · refine (get?_erased deleted _ _ _).trans (if_neg fun taken => ?_)
        obtain ⟨keyAlias, own, same⟩ := List.mem_map.mp taken
        obtain ⟨number, numbered⟩ := kept.numbered
        rw [numbered] at same
        rcases List.mem_append.mp own with versioned | last
        · obtain ⟨low, _, rfl⟩ := List.mem_map.mp versioned
          exact spelling (convertAlias_inj keeps plain same).1.symm
        · rw [List.mem_singleton.mp last] at same
          exact convertAlias_versioned_ne keeps plain same.symm
      · exact erased_masterKey deleted _ _
      · have read : ((keys.provider.getMetadata name).2.cache.remove name).get? version.name =
            (keys.provider.getMetadata name).2.cache.get? version.name :=
          (AssocMap.get?_remove _ _ _).trans (if_neg other)
        exact (congrArg Option.isSome read).trans kept.known
    · intro known present
      have read := AssocMap.get?_remove (keys.provider.getMetadata name).2.cache name known
      by_cases own : known = name
      · rw [own]
        exact plain
      · rw [if_neg own] at read
        exact looked.plain known ((congrArg Option.isSome read).symm.trans present)

/-- **Flushing.** Only entries of aliases without the separator are set. -/
theorem flush (keeps : Platform.KeepsSeparator) (faithful : keys.Faithful) (date : Nat)
    (sealable stored : String → Bool) :
    (keys.step (.flush date sealable stored)).2.Faithful := by
  have reset : Reset keys.provider.cache.entries keys.provider
      (setMetadata date sealable keys.provider.cache.entries keys.provider).2 :=
    setMetadata_reset _ _
  have kept : ∀ version ∈ keys.live,
      Kept (setMetadata date sealable keys.provider.cache.entries keys.provider).2 version := by
    intro version listed
    have kept := faithful.kept version listed
    apply kept.of_same
    · apply reset.entries
      intro taken
      obtain ⟨⟨name, metadata⟩, known, same⟩ := List.mem_map.mp taken
      obtain ⟨number, numbered⟩ := kept.numbered
      rw [numbered] at same
      have present := AssocMap.get?_eq_some_iff.mpr known
      exact convertAlias_versioned_ne keeps
        (faithful.plain name (Option.isSome_iff_exists.mpr ⟨_, present⟩)) same.symm
    · exact reset.masterKey
    · rw [reset.cache]
      exact kept.known
  have plain : ∀ name, ((setMetadata date sealable keys.provider.cache.entries
      keys.provider).2.cache.get? name).isSome = true → Plain name := by
    rw [reset.cache]
    exact faithful.plain
  unfold LiveKeys.step Call.perform
  rcases flush_cases keys.provider date sealable stored with
    ⟨_, same⟩ | ⟨_, ⟨error, same⟩ | ⟨_, same⟩⟩
  · simp only [same]
    exact faithful
  · simp only [same]
    exact ⟨kept, plain⟩
  · simp only [same]
    refine ⟨fun version listed => ?_, plain⟩
    exact (kept version listed).of_same rfl rfl (kept version listed).known

theorem step (keeps : Platform.KeepsSeparator) (faithful : keys.Faithful) {call : Call}
    (plain : ∀ name ∈ call.name?, Plain name) (separate : keys.Separate call) :
    (keys.step call).2.Faithful := by
  cases call with
  | createKey date sealable name material options =>
      exact faithful.createKey keeps (plain name rfl) separate
  | rollNewVersion date sealable name material =>
      exact faithful.rollNewVersion keeps (plain name rfl) separate
  | deleteKey deleted name => exact faithful.deleteKey keeps (plain name rfl) separate
  | flush date sealable stored => exact faithful.flush keeps date sealable stored
  | getMetadata name =>
      have looked := faithful.getMetadata (plain name rfl)
      unfold LiveKeys.step Call.perform
      rcases read : keys.provider.getMetadata name with ⟨result, provider⟩
      rw [read] at looked
      simp only [read]
      cases result <;> exact looked

end Faithful

section Runs

variable [Platform]

/-- **Creating beside live keys.** A key that passes the checks leaves the entries of
other live keys as they are. -/
theorem Faithful.untouched {keys : LiveKeys} (keeps : Platform.KeepsSeparator)
    (faithful : keys.Faithful) {date : Nat} {sealable : Bool} {name : String}
    {material : List UInt8} {options : Options}
    (separate : keys.Separate (.createKey date sealable name material options)) :
    (∃ error, (keys.provider.createKey date sealable name material options).1 = .error error) ∨
      ∀ version ∈ keys.live, version.name ≠ name →
        ∀ keyAlias ∈ [version.name, version.versionName],
          (keys.provider.createKey date sealable name material options).2.entries.get?
              (convertAlias keyAlias) =
            keys.provider.entries.get? (convertAlias keyAlias) := by
  rcases createKey_cases keys.provider date sealable name material options with
    ⟨⟨error, refused⟩, _⟩ | ⟨absent, fresh, long, written⟩
  · rw [refused]
    exact .inl ⟨error, rfl⟩
  · rw [written]
    rcases innerSetKeyVersion_cases (keys.provider.cached name (options.metadata date)) date
      sealable name (buildVersionName name 0) material (options.metadata date) with
      ⟨⟨error, refused⟩, _⟩ | ⟨sealed, added⟩
    · rw [refused]
      exact .inl ⟨error, rfl⟩
    · rw [added]
      refine .inr fun version listed other keyAlias own => ?_
      have kept := faithful.kept version listed
      refine (AssocMap.get?_put _ _ _ _).trans (if_neg fun same => ?_)
      rw [List.mem_cons, List.mem_singleton] at own
      rcases own with rfl | rfl
      · exact convertAlias_versioned_ne keeps kept.plain same.symm
      · obtain ⟨number, numbered⟩ := kept.numbered
        rw [numbered] at same
        have spelling := (convertAlias_inj keeps kept.plain same).1
        exact other (separate absent fresh long sealed version listed spelling)

/-- **Key material is not replaced.** On a provider that was loaded, every version that
was returned can be read with its material until its key is deleted, provided that calls
that pass their checks are for names that are no other spelling of a live key's. -/
theorem material_unreplaced (keeps : Platform.KeepsSeparator) {readable : Bool} {table : KeyTable}
    {masterKey : String} {provider : RangerKeyStoreProvider}
    (loaded : RangerKeyStoreProvider.new readable table masterKey = .ok provider)
    {steps : List Call} (plain : ∀ call ∈ steps, ∀ name ∈ call.name?, Plain name)
    (separate : Run.Throughout step Separate ⟨provider, []⟩ steps) :
    Unreplaced ⟨provider, []⟩ steps := by
  have empty : provider.cache = ∅ := by
    unfold RangerKeyStoreProvider.new at loaded
    rcases read : engineLoad (if readable then some table else none) masterKey ∅ with
      error | entries
    · rw [read] at loaded
      nomatch loaded
    · rw [read] at loaded
      cases loaded
      rfl
  have start : Faithful ⟨provider, []⟩ := by
    refine ⟨fun version listed => (nomatch listed), fun name known => ?_⟩
    change (provider.cache.get? name).isSome = true at known
    rw [empty] at known
    nomatch known
  have kept : ∀ (keys : LiveKeys) (call : Call), keys.Faithful →
      (∀ name ∈ call.name?, Plain name) ∧ keys.Separate call → (keys.step call).2.Faithful :=
    fun keys call faithful allowed => faithful.step keeps allowed.1 allowed.2
  have within : ∀ done call rest, steps = done ++ call :: rest →
      (∀ name ∈ call.name?, Plain name) ∧ (Run.final step ⟨provider, []⟩ done).Separate call := by
    intro done call rest split
    refine ⟨plain call ?_, separate.at_split done call rest split⟩
    rw [split]
    exact List.mem_append_right done List.mem_cons_self
  have always := Run.forall_prefix_of_allowed kept start within
  constructor
  · intro done rest split version listed
    exact ((always done rest split).kept version listed).getKeyVersion
  · intro done date sealable name material options rest split
    exact (always done _ split).untouched keeps (separate.at_split done _ rest split)

end Runs

/-- A key of 16 bits is created, looked at, rolled, flushed and rolled again, beside a key
that is created and deleted. -/
private def rolled : List Call :=
  [.createKey 0 true "zone" [1, 2] ⟨"AES", 16, none, []⟩, .getMetadata "zone",
    .rollNewVersion 1 true "zone" [3, 4], .flush 2 (fun _ => true) fun _ => true,
    .createKey 3 true "Other" [5, 6] ⟨"AES", 16, none, []⟩, .deleteKey (fun _ => true) "Other",
    .rollNewVersion 4 true "zone" [7, 8]]

private def unloaded : RangerKeyStoreProvider := { masterKey := "master" }

theorem rolled_unreplaced : @Unreplaced .ascii ⟨unloaded, []⟩ rolled := by
  have loaded : RangerKeyStoreProvider.new true ∅ "master" = .ok unloaded := rfl
  exact @material_unreplaced .ascii keepsSeparator_ascii _ _ _ _ loaded _ (by decide)
    (by decide +kernel)

private def twoSpellings : List Call :=
  [.createKey 0 true "Zone" [1, 2] ⟨"AES", 16, none, []⟩,
    .createKey 1 true "zone" [3, 4] ⟨"AES", 16, none, []⟩]

/-- **Two spellings.** A key that is created replaces the material of another spelling. -/
theorem second_spelling_replaces :
    RangerKeyStoreProvider.new true ∅ "master" = .ok unloaded ∧
      (∀ call ∈ twoSpellings, ∀ name ∈ call.name?, Plain name) ∧
        ¬ @Unreplaced .ascii ⟨unloaded, []⟩ twoSpellings := by
  refine ⟨rfl, by decide, fun unreplaced => ?_⟩
  have read := @Unreplaced.readable .ascii _ _ unreplaced twoSpellings [] rfl
    ⟨"Zone", "Zone@0", [1, 2]⟩ (by decide +kernel)
  exact absurd read (by decide +kernel)

end LiveKeys

end Ranger

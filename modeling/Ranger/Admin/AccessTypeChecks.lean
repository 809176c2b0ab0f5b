import Ranger.Admin.ServiceValidators

/-! # What the checks of access types let through

The names of access types are compared in lower case, and so are the implied grants. The
one comparison made with a name as it is written is whether an access type implies itself.
-/

namespace Ranger

open Foundation Foundation.Report ValidationFailureDetails RangerValidator

/-- Small letters have no smaller ones, and no letter is blank. -/
structure Platform.Lowering [Platform] : Prop where
  lowerCase_lowerCase : ∀ text,
    Platform.lowerCase (Platform.lowerCase text) = Platform.lowerCase text
  lowerCase_of_isBlank : ∀ text, isBlank text = true → Platform.lowerCase text = text
  isBlank_lowerCase : ∀ text, isBlank (Platform.lowerCase text) = isBlank text

theorem isWhitespace_toLower (char : Char) : isWhitespace char.toLower = isWhitespace char := by
  by_cases letter : 65 ≤ char.val.toNat ∧ char.val.toNat ≤ 90
  · have both : ∀ code < 128, isWhitespace (Char.ofNat code).toLower =
        isWhitespace (Char.ofNat code) := by decide
    rw [← Char.ofNat_toNat char]
    exact both char.val.toNat (by omega)
  · rw [show char.toLower = char from dif_neg letter]

theorem toLower_of_isWhitespace {char : Char} (white : isWhitespace char = true) :
    char.toLower = char := by
  refine dif_neg fun letter => ?_
  have bounds : 65 ≤ char.toNat ∧ char.toNat ≤ 90 := letter
  have none : ∀ code < 128, 65 ≤ code ∧ code ≤ 90 → isWhitespace (Char.ofNat code) = false := by
    decide
  have black := none char.toNat (by omega) bounds
  rw [Char.ofNat_toNat, white] at black
  cases black

theorem Platform.ascii_lowering : @Platform.Lowering Platform.ascii := by
  refine @Platform.Lowering.mk Platform.ascii (fun text => ?_) (fun text blank => ?_)
    fun text => ?_
  · change String.ofList
      ((String.ofList (text.toList.map Char.toLower)).toList.map Char.toLower) = _
    rw [String.toList_ofList, List.map_map]
    exact congrArg String.ofList (List.map_congr_left fun char _ => toLower_toLower char)
  · have same : text.toList.map Char.toLower = text.toList.map id :=
      List.map_congr_left fun char member =>
        toLower_of_isWhitespace (List.all_eq_true.mp blank char member)
    change String.ofList (text.toList.map Char.toLower) = text
    rw [same, List.map_id, String.ofList_toList]
  · change (String.ofList (text.toList.map Char.toLower)).toList.all isWhitespace = _
    rw [String.toList_ofList, List.all_map]
    exact congrArg _ (funext isWhitespace_toLower)

namespace RangerServiceDefValidator

section Exact

variable [Platform]

/-- The name and the grant are the same but for letter case. -/
def SameName (first second : Option String) : Prop :=
  first.map Platform.lowerCase = second.map Platform.lowerCase

instance (first second : Option String) : Decidable (SameName first second) :=
  inferInstanceAs (Decidable (_ = _))

/-- An access type that has itself among its implied grants. -/
def ListsItself (accessType : Boxed.RangerAccessTypeDef) : Prop :=
  ∃ grant ∈ accessType.impliedGrants, SameName grant accessType.name

/-- The access types a service definition should have. -/
structure WellFormed (accessTypeDefs : List Boxed.RangerAccessTypeDef) : Prop where
  named : ∀ accessType ∈ accessTypeDefs, isBlankText accessType.name = false
  distinct : (accessTypeDefs.map fun accessType => accessType.name.map Platform.lowerCase).Nodup
  declared : ∀ accessType ∈ accessTypeDefs, ∀ grant ∈ accessType.impliedGrants,
    ∃ other ∈ accessTypeDefs, SameName grant other.name
  notItself : ∀ accessType ∈ accessTypeDefs, ¬ListsItself accessType

variable [SetOrder]

/-- Each violation has its failure. -/
structure Reported (accessTypeDefs : List Boxed.RangerAccessTypeDef)
    (failures : List ValidationFailureDetails) : Prop where
  blank : ∀ accessType ∈ accessTypeDefs, isBlankText accessType.name = true →
    blankAccessTypeName accessType ∈ failures
  repeated : ∀ before accessType after, accessTypeDefs = before ++ accessType :: after →
    isBlankText accessType.name = false → (∃ other ∈ before, SameName other.name accessType.name) →
      repeatedAccessTypeName accessType ∈ failures
  unknown : ∀ accessType ∈ accessTypeDefs, ∀ grant ∈ accessType.impliedGrants,
    (∀ other ∈ accessTypeDefs, ¬SameName grant other.name) →
      ∃ first unknown, grantKey grant ∈ unknown ∧
        unknownGrants accessType first unknown ∈ failures
  itself : ∀ accessType ∈ accessTypeDefs, ListsItself accessType →
    impliesItself accessType ∈ failures

/-- The well-formed lists are accepted, no others are, and every violation is reported. -/
structure Exact (accessTypeDefs : List Boxed.RangerAccessTypeDef) : Prop where
  valid_iff : (isValidAccessTypes accessTypeDefs).valid = true ↔ WellFormed accessTypeDefs
  reported : Reported accessTypeDefs (isValidAccessTypes accessTypeDefs).failures

end Exact

section Comparisons

variable [Platform]

theorem nameKey_eq_some_iff {name : Option String} {own : String} :
    nameKey name = some own ↔
      isBlankText name = false ∧ name.map Platform.lowerCase = some own := by
  unfold nameKey
  cases blank : isBlankText name with
  | true => simp only [↓reduceIte, reduceCtorEq, Bool.true_eq_false, false_and]
  | false => simp only [Bool.false_eq_true, ↓reduceIte, true_and]

theorem nameKey_eq_none_iff {name : Option String} :
    nameKey name = none ↔ isBlankText name = true := by
  unfold nameKey
  cases name with
  | none => exact ⟨fun _ => rfl, fun _ => rfl⟩
  | some text =>
      cases blank : isBlankText (some text) with
      | true => simp only [↓reduceIte]
      | false => simp only [Bool.false_eq_true, ↓reduceIte, Option.map_some, reduceCtorEq]

theorem nameKey_of_not_isBlankText {name : Option String} (named : isBlankText name = false) :
    nameKey name = name.map Platform.lowerCase := by
  unfold nameKey
  rw [if_neg (by rw [named]; exact Bool.false_ne_true)]

section Grants

variable [SetOrder] {accessNames : List String} {accessType : Boxed.RangerAccessTypeDef}

theorem mem_unknownAccessTypes_iff {text : Option String} :
    text ∈ unknownAccessTypes accessNames accessType ↔
      text ∈ getImpliedGrants accessType ∧ ∀ name ∈ accessNames, text ≠ some name := by
  unfold unknownAccessTypes
  rw [List.mem_filter, (SetOrder.order_perm _).mem_iff, List.mem_dedup]
  simp only [Bool.not_eq_true', List.any_eq_false, beq_iff_eq]
  exact and_congr_right fun _ => forall₂_congr fun _ _ => not_congr eq_comm

theorem valid_isValidImpliedGrants_iff :
    (isValidImpliedGrants accessNames accessType).valid = true ↔
      (∀ grant ∈ accessType.impliedGrants, ∃ name ∈ accessNames, grantKey grant = some name) ∧
        accessType.name ∉ getImpliedGrants accessType := by
  have unknown : (∀ grant ∈ accessType.impliedGrants, ∃ name ∈ accessNames,
      grantKey grant = some name) ↔ unknownAccessTypes accessNames accessType = [] := by
    rw [List.eq_nil_iff_forall_not_mem]
    simp only [mem_unknownAccessTypes_iff, getImpliedGrants, not_and, not_forall, not_not,
      exists_prop, List.mem_map, forall_exists_index, and_imp, forall_apply_eq_imp_iff₂]
  rw [unknown]
  unfold isValidImpliedGrants
  rw [valid_both]
  refine and_congr ?_ ?_
  · cases unknownAccessTypes accessNames accessType with
    | nil => exact ⟨fun _ => rfl, fun _ => rfl⟩
    | cons first others => simp only [valid_reject, Bool.false_eq_true, reduceCtorEq]
  · by_cases listed : accessType.name ∈ getImpliedGrants accessType
    · simp [listed]
    · simp [listed]

theorem mem_failures_grants_iff {failure : ValidationFailureDetails} :
    failure ∈ (isValidImpliedGrants accessNames accessType).failures ↔
      (∃ first others, unknownAccessTypes accessNames accessType = first :: others ∧
        failure = unknownGrants accessType first (first :: others)) ∨
      (accessType.name ∈ getImpliedGrants accessType ∧ failure = impliesItself accessType) := by
  unfold isValidImpliedGrants
  rw [failures_both, List.mem_append]
  refine or_congr ?_ ?_
  · cases unknownAccessTypes accessNames accessType with
    | nil => simp only [failures_accept, List.not_mem_nil, reduceCtorEq, false_and, exists_false]
    | cons first others =>
        simp only [failures_reject, List.mem_singleton, List.cons.injEq]
        constructor
        · exact fun same => ⟨first, others, ⟨rfl, rfl⟩, same⟩
        · rintro ⟨_, _, ⟨rfl, rfl⟩, same⟩
          exact same
  · by_cases listed : accessType.name ∈ getImpliedGrants accessType
    · simp [listed]
    · simp [listed]

end Grants

section Laws

variable (laws : Platform.Lowering)

include laws

theorem grantKey_eq (grant : Option String) : grantKey grant = grant.map Platform.lowerCase := by
  unfold grantKey
  cases blank : isBlankText grant with
  | false => rfl
  | true =>
      cases grant with
      | none => rfl
      | some text => exact (congrArg some (laws.lowerCase_of_isBlank text blank)).symm

theorem mem_getImpliedGrants_iff {accessType : Boxed.RangerAccessTypeDef} {text : Option String} :
    text ∈ getImpliedGrants accessType ↔
      ∃ grant ∈ accessType.impliedGrants, grant.map Platform.lowerCase = text := by
  unfold getImpliedGrants
  simp only [List.mem_map, grantKey_eq laws]

theorem map_lowerCase_of_mem {accessType : Boxed.RangerAccessTypeDef} {text : Option String}
    (listed : text ∈ getImpliedGrants accessType) : text.map Platform.lowerCase = text := by
  obtain ⟨grant, _, rfl⟩ := (mem_getImpliedGrants_iff laws).mp listed
  cases grant with
  | none => rfl
  | some text => exact congrArg some (laws.lowerCase_lowerCase text)

theorem isBlankText_map (text : Option String) :
    isBlankText (text.map Platform.lowerCase) = isBlankText text := by
  cases text with
  | none => rfl
  | some text => exact laws.isBlank_lowerCase text

/-- An access type is found among its implied grants if it is written in small letters. -/
theorem name_mem_getImpliedGrants_iff {accessType : Boxed.RangerAccessTypeDef} :
    accessType.name ∈ getImpliedGrants accessType ↔
      ListsItself accessType ∧ accessType.name.map Platform.lowerCase = accessType.name := by
  constructor
  · intro listed
    have small := map_lowerCase_of_mem laws listed
    obtain ⟨grant, given, same⟩ := (mem_getImpliedGrants_iff laws).mp listed
    exact ⟨⟨grant, given, same.trans small.symm⟩, small⟩
  · intro ⟨⟨grant, given, same⟩, small⟩
    exact (mem_getImpliedGrants_iff laws).mpr ⟨grant, given, same.trans small⟩

end Laws

end Comparisons

section Lists

variable [Platform] [SetOrder] (laws : Platform.Lowering)
  {accessTypeDefs : List Boxed.RangerAccessTypeDef}

/-- The names the implied grants are looked up in. -/
private abbrev accessNames (accessTypeDefs : List Boxed.RangerAccessTypeDef) : List String :=
  accessTypeDefs.foldl (seenWith fun accessType => nameKey accessType.name) []

omit [SetOrder] in
private theorem mem_accessNames_iff {name : String} :
    name ∈ accessNames accessTypeDefs ↔
      ∃ accessType ∈ accessTypeDefs, nameKey accessType.name = some name := by
  rw [mem_foldl_seenWith]
  simp only [List.not_mem_nil, false_or]

omit [SetOrder] in
private theorem valid_names_iff :
    (names (fun accessType => nameKey accessType.name) blankAccessTypeName repeatedAccessTypeName
        (fun _ => accept) [] accessTypeDefs).valid = true ↔
      (∀ accessType ∈ accessTypeDefs, isBlankText accessType.name = false) ∧
        (accessTypeDefs.map fun accessType => accessType.name.map Platform.lowerCase).Nodup := by
  have named : (∀ accessType ∈ accessTypeDefs, (nameKey accessType.name).isSome) ↔
      ∀ accessType ∈ accessTypeDefs, isBlankText accessType.name = false := by
    refine forall₂_congr fun accessType _ => ?_
    rw [← Option.ne_none_iff_isSome, Ne, nameKey_eq_none_iff, Bool.not_eq_true]
  rw [valid_names, named]
  simp only [valid_accept, implies_true, List.not_mem_nil, not_false_eq_true, true_and, and_true]
  refine and_congr_right fun present => ?_
  rw [List.map_congr_left fun accessType member =>
    nameKey_of_not_isBlankText (present accessType member)]

/-- What is reported of the names. -/
private theorem mem_failures_of_names {failure : ValidationFailureDetails}
    (reported : failure ∈ (names (fun accessType : Boxed.RangerAccessTypeDef =>
      nameKey accessType.name) blankAccessTypeName repeatedAccessTypeName (fun _ => accept) []
        accessTypeDefs).failures) :
    failure ∈ (isValidAccessTypes accessTypeDefs).failures :=
  List.mem_append_left _ reported

/-- What is reported of the implied grants. -/
private theorem mem_failures_of_grants {accessType : Boxed.RangerAccessTypeDef}
    (member : accessType ∈ accessTypeDefs) (given : accessType.impliedGrants ≠ [])
    {failure : ValidationFailureDetails}
    (reported : failure ∈
      (isValidImpliedGrants (accessNames accessTypeDefs) accessType).failures) :
    failure ∈ (isValidAccessTypes accessTypeDefs).failures := by
  refine List.mem_append_right _ (mem_failures_all.mpr ⟨accessType, ?_, reported⟩)
  exact List.mem_filter.mpr ⟨member, by simpa using given⟩

include laws

omit [SetOrder] in
private theorem isDeclared_iff {grant : Option String} :
    (∃ name ∈ accessNames accessTypeDefs, grantKey grant = some name) ↔
      ∃ other ∈ accessTypeDefs, isBlankText other.name = false ∧ SameName grant other.name := by
  rw [grantKey_eq laws]
  constructor
  · intro ⟨name, listed, lowered⟩
    obtain ⟨other, member, key⟩ := mem_accessNames_iff.mp listed
    obtain ⟨named, same⟩ := nameKey_eq_some_iff.mp key
    exact ⟨other, member, named, lowered.trans same.symm⟩
  · intro ⟨other, member, named, same⟩
    cases key : nameKey other.name with
    | none => exact absurd (nameKey_eq_none_iff.mp key) (by rw [named]; exact Bool.false_ne_true)
    | some name =>
        exact ⟨name, mem_accessNames_iff.mpr ⟨other, member, key⟩,
          same.trans (nameKey_eq_some_iff.mp key).2⟩

theorem isValidAccessTypes_iff :
    (isValidAccessTypes accessTypeDefs).valid = true ↔
      ((∀ accessType ∈ accessTypeDefs, isBlankText accessType.name = false) ∧
        (accessTypeDefs.map fun accessType => accessType.name.map Platform.lowerCase).Nodup) ∧
      ∀ accessType ∈ accessTypeDefs,
        (∀ grant ∈ accessType.impliedGrants, ∃ other ∈ accessTypeDefs,
          isBlankText other.name = false ∧ SameName grant other.name) ∧
        ¬(ListsItself accessType ∧ accessType.name.map Platform.lowerCase = accessType.name) := by
  unfold isValidAccessTypes
  rw [valid_both, valid_all, valid_names_iff]
  refine and_congr_right fun _ => ?_
  simp only [valid_isValidImpliedGrants_iff, isDeclared_iff laws,
    name_mem_getImpliedGrants_iff laws]
  constructor
  · intro checked accessType member
    cases given : accessType.impliedGrants with
    | nil =>
        refine ⟨nofun, fun ⟨⟨grant, listed, _⟩, _⟩ => ?_⟩
        rw [given] at listed
        cases listed
    | cons first others =>
        rw [← given]
        exact checked accessType (List.mem_filter.mpr ⟨member, by rw [given]; rfl⟩)
  · exact fun checked accessType member => checked accessType (List.mem_filter.mp member).1

/-- The checks accept what is well formed, except for names that are compared as written. -/
theorem isValidAccessTypes_iff_wellFormed
    (small : ∀ accessType ∈ accessTypeDefs, ListsItself accessType →
      accessType.name.map Platform.lowerCase = accessType.name) :
    (isValidAccessTypes accessTypeDefs).valid = true ↔ WellFormed accessTypeDefs := by
  rw [isValidAccessTypes_iff laws]
  constructor
  · intro ⟨⟨named, distinct⟩, grants⟩
    refine ⟨named, distinct, ?_, ?_⟩
    · intro accessType member grant given
      obtain ⟨other, declared, _, same⟩ := (grants accessType member).1 grant given
      exact ⟨other, declared, same⟩
    · exact fun accessType member itself =>
        (grants accessType member).2 ⟨itself, small accessType member itself⟩
  · intro wellFormed
    refine ⟨⟨wellFormed.named, wellFormed.distinct⟩, fun accessType member => ⟨?_, ?_⟩⟩
    · intro grant given
      obtain ⟨other, declared, same⟩ := wellFormed.declared accessType member grant given
      exact ⟨other, declared, wellFormed.named other declared, same⟩
    · exact fun itself => wellFormed.notItself accessType member itself.1

theorem reported_of_small
    (small : ∀ accessType ∈ accessTypeDefs, ListsItself accessType →
      accessType.name.map Platform.lowerCase = accessType.name) :
    Reported accessTypeDefs (isValidAccessTypes accessTypeDefs).failures where
  blank accessType member blank :=
    mem_failures_of_names (mem_failures_names.mpr
      (.inr (.inl ⟨accessType, member, nameKey_eq_none_iff.mpr blank, rfl⟩)))
  repeated before accessType after cut named sameAs := by
    obtain ⟨other, earlier, same⟩ := sameAs
    cases key : nameKey accessType.name with
    | none => exact absurd (nameKey_eq_none_iff.mp key) (by rw [named]; exact Bool.false_ne_true)
    | some own =>
        have lowered := same.trans (nameKey_eq_some_iff.mp key).2
        have otherNamed : isBlankText other.name = false := by
          rw [← isBlankText_map laws, same, isBlankText_map laws, named]
        refine mem_failures_of_names (mem_failures_names.mpr
          (.inr (.inr ⟨before, accessType, after, cut, own, ?_, key, rfl⟩)))
        exact mem_accessNames_iff.mpr
          ⟨other, earlier, nameKey_eq_some_iff.mpr ⟨otherNamed, lowered⟩⟩
  unknown accessType member grant given undeclared := by
    have unknown : grantKey grant ∈ unknownAccessTypes (accessNames accessTypeDefs) accessType := by
      refine mem_unknownAccessTypes_iff.mpr ⟨List.mem_map.mpr ⟨grant, given, rfl⟩, ?_⟩
      intro name listed same
      obtain ⟨other, declared, _, named⟩ := (isDeclared_iff laws).mp ⟨name, listed, same⟩
      exact undeclared other declared named
    obtain ⟨first, others, split⟩ := List.exists_cons_of_ne_nil (List.ne_nil_of_mem unknown)
    refine ⟨first, first :: others, split ▸ unknown, ?_⟩
    exact mem_failures_of_grants member (List.ne_nil_of_mem given)
      (mem_failures_grants_iff.mpr (.inl ⟨first, others, split, rfl⟩))
  itself accessType member itself := by
    have listed := (name_mem_getImpliedGrants_iff laws).mpr
      ⟨itself, small accessType member itself⟩
    obtain ⟨grant, given, _⟩ := itself
    exact mem_failures_of_grants member (List.ne_nil_of_mem given)
      (mem_failures_grants_iff.mpr (.inr ⟨listed, rfl⟩))

/-- A failure about implied grants names a text in small letters. -/
theorem map_lowerCase_of_reported {failure : ValidationFailureDetails}
    (reported : failure ∈ (isValidAccessTypes accessTypeDefs).failures)
    (field : failure.fieldName = some "implied grants") :
    failure.subFieldName.map Platform.lowerCase = failure.subFieldName := by
  rcases List.mem_append.mp reported with ofNames | ofGrants
  · rcases mem_failures_names.mp ofNames with ⟨_, _, inside⟩ | ⟨_, _, _, rfl⟩ |
      ⟨_, _, _, _, _, _, _, rfl⟩
    · cases inside
    · exact absurd field (by simp [blankAccessTypeName, missingValue])
    · exact absurd field (by simp [repeatedAccessTypeName, incorrectValue])
  · obtain ⟨accessType, _, found⟩ := mem_failures_all.mp ofGrants
    rcases mem_failures_grants_iff.mp found with ⟨first, others, split, rfl⟩ | ⟨listed, rfl⟩
    · have member : first ∈ unknownAccessTypes _ accessType := split ▸ List.mem_cons_self
      exact map_lowerCase_of_mem laws (mem_unknownAccessTypes_iff.mp member).1
    · exact map_lowerCase_of_mem laws listed

/-- The checks are exact for the lists whose access types with themselves among their implied
grants are written in small letters. -/
theorem exact_iff :
    Exact accessTypeDefs ↔
      ∀ accessType ∈ accessTypeDefs, ListsItself accessType →
        accessType.name.map Platform.lowerCase = accessType.name := by
  constructor
  · intro exact accessType member itself
    exact map_lowerCase_of_reported laws (exact.reported.itself accessType member itself) rfl
  · exact fun small => ⟨isValidAccessTypes_iff_wellFormed laws small, reported_of_small laws small⟩

end Lists

section Letters

attribute [local instance] Platform.ascii SetOrder.asGiven

/-- An access type that implies itself in small letters is reported. -/
theorem exact_small_letters :
    Exact [⟨some "read", []⟩, ⟨some "all", [some "READ", some "All"]⟩] := by
  refine (exact_iff Platform.ascii_lowering).mpr fun accessType member _ => ?_
  rcases List.mem_cons.mp member with rfl | member
  · decide
  · rw [List.mem_singleton.mp member]
    decide

/-- An access type that implies itself and is written with a capital is accepted. -/
theorem capital_implies_itself :
    ¬∀ accessTypeDefs : List Boxed.RangerAccessTypeDef,
      (isValidAccessTypes accessTypeDefs).valid = true ↔ WellFormed accessTypeDefs := by
  intro exact
  have accepted : (isValidAccessTypes [⟨some "Read", [some "read"]⟩]).valid = true := by decide
  have wellFormed := (exact _).mp accepted
  exact wellFormed.notItself _ List.mem_cons_self ⟨some "read", List.mem_cons_self, by decide⟩

end Letters

end RangerServiceDefValidator

end Ranger

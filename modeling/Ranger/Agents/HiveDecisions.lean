import Ranger.Agents.HiveAuthorizer
import Ranger.ResourcePaths

/-! # What an operation is allowed to do

An operation that is let through was authorized for each of its objects, provided that a
policy engine was loaded, that every object with several columns lists one that is not
blank, and that no column has the separator in its name.
-/

namespace Ranger

open Foundation

namespace RangerHiveResource

section Elements

variable {objectType : HiveObjectType} {database tableOrUdf column : Option String}

/-- The elements of a resource, from what is read of them. -/
def ofValues (database table udf column : Option String) : RangerAccessResource :=
  ((({} : RangerAccessResource).setValue KEY_DATABASE database).setValue KEY_TABLE table
    |>.setValue KEY_UDF udf).setValue KEY_COLUMN column

/-- A resource is determined by the values of its elements. -/
theorem elementsFor_eq_ofValues (objectType : HiveObjectType)
    (database tableOrUdf column : Option String) :
    let elements := elementsFor objectType database tableOrUdf column
    elements = ofValues (elements.getValue KEY_DATABASE) (elements.getValue KEY_TABLE)
      (elements.getValue KEY_UDF) (elements.getValue KEY_COLUMN) := by
  cases objectType <;> cases database <;> cases tableOrUdf <;> cases column <;> rfl

/-- Equal resources have the same elements. -/
theorem elementsFor_eq_of_equals {otherType : HiveObjectType}
    {otherDatabase otherTable otherColumn : Option String}
    (same : (elementsFor objectType database tableOrUdf column).equals
      (elementsFor otherType otherDatabase otherTable otherColumn) = true) :
    elementsFor objectType database tableOrUdf column =
      elementsFor otherType otherDatabase otherTable otherColumn := by
  have values : ∀ key, (elementsFor objectType database tableOrUdf column).getValue key =
      (elementsFor otherType otherDatabase otherTable otherColumn).getValue key := by
    intro key
    unfold RangerAccessResource.equals at same
    unfold RangerAccessResource.getValue
    cases own : (elementsFor objectType database tableOrUdf column).elements with
    | none =>
        cases other : (elementsFor otherType otherDatabase otherTable otherColumn).elements with
        | none => rfl
        | some elements =>
            rw [own, other] at same
            nomatch same
    | some elements =>
        cases other : (elementsFor otherType otherDatabase otherTable otherColumn).elements with
        | none =>
            rw [own, other] at same
            nomatch same
        | some others =>
            rw [own, other] at same
            exact congrArg Option.join (AssocMap.get?_eq_of_equalTo same key)
  rw [elementsFor_eq_ofValues objectType, elementsFor_eq_ofValues otherType]
  simp only [values]

/-- Only a resource of columns has a column. -/
theorem getColumn_elementsFor (objectType : HiveObjectType)
    (database tableOrUdf column : Option String) :
    (elementsFor objectType database tableOrUdf column).getValue KEY_COLUMN =
      if objectType = .column then column else none := by
  cases objectType <;> cases database <;> cases tableOrUdf <;> cases column <;> rfl

theorem getDatabase_column (database tableOrUdf column : Option String) :
    (elementsFor .column database tableOrUdf column).getValue KEY_DATABASE = database := by
  cases database <;> cases tableOrUdf <;> cases column <;> rfl

theorem getTable_column (database tableOrUdf column : Option String) :
    (elementsFor .column database tableOrUdf column).getValue KEY_TABLE = tableOrUdf := by
  cases database <;> cases tableOrUdf <;> cases column <;> rfl

end Elements

end RangerHiveResource

namespace RangerHiveAuthorizer

section Columns

/-- The text of a column in the list. -/
def columnText (column : Option String) : String := column.getD ""

/-- A column has the separator in its name. -/
def Separated (column : Option String) : Prop := COLUMN_SEP ∈ (columnText column).toList

/-- The pieces of joined texts are those of the texts. -/
theorem split_intercalate (texts : List (List Char)) :
    split COLUMN_SEP ([COLUMN_SEP].intercalate texts) = texts.flatMap (split COLUMN_SEP) := by
  induction texts with
  | nil => rfl
  | cons first rest ih =>
      cases rest with
      | nil => simp
      | cons second rest =>
          rw [List.intercalate_cons_cons, List.append_assoc, List.singleton_append,
            split_append, ih]
          rfl

theorem mem_intercalate_iff (texts : List (List Char)) :
    COLUMN_SEP ∈ [COLUMN_SEP].intercalate texts ↔
      2 ≤ texts.length ∨ ∃ text ∈ texts, COLUMN_SEP ∈ text := by
  induction texts with
  | nil => simp
  | cons first rest ih =>
      cases rest with
      | nil => simp
      | cons second rest => simp [List.intercalate_cons_cons]

theorem trim_empty : trim "" = "" := rfl

theorem split_of_not_separated {column : Option String} (plain : ¬ Separated column) :
    split COLUMN_SEP (columnText column).toList =
      if columnText column = "" then [] else [(columnText column).toList] := by
  by_cases empty : columnText column = ""
  · rw [if_pos empty, empty]
    rfl
  · rw [if_neg empty]
    exact split_free COLUMN_SEP plain (by simpa using empty)

theorem mem_trim {char : Char} (visible : ¬ char.toNat ≤ 32) {text : String}
    (member : char ∈ text.toList) : char ∈ (trim text).toList := by
  have survives : ∀ chars : List Char, char ∈ chars →
      char ∈ chars.dropWhile fun char : Char => char.toNat ≤ 32 := by
    intro chars member
    induction chars with
    | nil => exact member
    | cons first rest ih =>
        rw [List.dropWhile_cons]
        split
        · next blank =>
          rcases List.mem_cons.mp member with rfl | later
          · exact absurd (of_decide_eq_true blank) visible
          · exact ih later
        · exact member
  unfold trim
  rw [String.toList_ofList, List.mem_reverse]
  apply survives
  rw [List.mem_reverse]
  exact survives _ member

/-- The names of columns that are not blank. -/
def nonBlankColumns (hiveObj : HivePrivilegeObject) : List String :=
  (hiveObj.columns.getD []).filterMap fun column =>
    if trim (columnText column) = "" then none else some (trim (columnText column))

theorem mem_nonBlankColumns_iff {hiveObj : HivePrivilegeObject} {name : String} :
    name ∈ nonBlankColumns hiveObj ↔
      ∃ column ∈ hiveObj.columns.getD [], trim (columnText column) ≠ "" ∧
        trim (columnText column) = name := by
  unfold nonBlankColumns
  rw [List.mem_filterMap]
  constructor
  · rintro ⟨column, listed, kept⟩
    by_cases blank : trim (columnText column) = ""
    · rw [if_pos blank] at kept
      nomatch kept
    · rw [if_neg blank] at kept
      exact ⟨column, listed, blank, Option.some.inj kept⟩
  · rintro ⟨column, listed, visible, rfl⟩
    exact ⟨column, listed, if_neg visible⟩

/-- A name with the separator in it is not blank. -/
theorem trim_ne_empty {column : Option String} (separated : Separated column) :
    trim (columnText column) ≠ "" := by
  intro blank
  have member := mem_trim (by decide) separated
  rw [blank] at member
  nomatch member

end Columns

variable (authorizer : RangerHiveAuthorizer) (hiveOpType : HiveOperationType)
  (ugi : UserGroupInformation)

section Requests

/-- The plugin answers a request and allows it. -/
def Allows (request : RangerHiveAccessRequest) : Prop :=
  ∃ result, RangerBasePlugin.isAccessAllowed authorizer.policyEngine
    request.toRangerAccessRequest = some result ∧ result.isAllowed = true

/-- The plugin answers a request and denies it. -/
def Denies (request : RangerHiveAccessRequest) : Prop :=
  ∃ result, RangerBasePlugin.isAccessAllowed authorizer.policyEngine
    request.toRangerAccessRequest = some result ∧ result.isAllowed = false

/-- What is asked for the sake of a request. -/
def asked (request : RangerHiveAccessRequest) : List RangerHiveAccessRequest :=
  if hasColumns request.hiveResource then columnRequests request else [request]

/-- The result for a request does not keep it back. -/
def Passes (result : Option RangerAccessResult) : Prop :=
  ∀ verdict, result = some verdict → verdict.isAllowed = true

variable {authorizer hiveOpType ugi}

theorem allows_iff {request : RangerHiveAccessRequest} (accepted : ¬ authorizer.Denies request) :
    authorizer.Allows request ↔ authorizer.policyEngine.isSome = true := by
  unfold Allows Denies RangerBasePlugin.isAccessAllowed at *
  cases engine : authorizer.policyEngine with
  | none => simp
  | some answer =>
      cases allowed : (answer request.toRangerAccessRequest).isAllowed with
      | true => simp [allowed]
      | false =>
          rw [engine] at accepted
          exact absurd ⟨_, rfl, allowed⟩ accepted

theorem Allows.isSome {request : RangerHiveAccessRequest} (allows : authorizer.Allows request) :
    authorizer.policyEngine.isSome = true := by
  obtain ⟨result, answered, _⟩ := allows
  unfold RangerBasePlugin.isAccessAllowed at answered
  cases engine : authorizer.policyEngine with
  | none =>
      rw [engine] at answered
      nomatch answered
  | some answer => rfl

/-- The loop over the columns goes on until a column is denied. -/
theorem passes_visitResults {result : Option RangerAccessResult} (before : Passes result)
    (colResults : List RangerAccessResult) :
    Passes (visitResults result colResults) ↔
      ∀ colResult ∈ colResults, colResult.isAllowed = true := by
  induction colResults generalizing result with
  | nil => exact iff_of_true before fun _ impossible => nomatch impossible
  | cons colResult rest ih =>
      rw [visitResults, List.forall_mem_cons]
      cases allowed : colResult.isAllowed with
      | true =>
          have next : Passes (some colResult) := fun _ same => Option.some.inj same ▸ allowed
          rw [if_pos rfl, ih next]
          exact (and_iff_right rfl).symm
      | false =>
          rw [if_neg Bool.false_ne_true]
          refine iff_of_false (fun passes => ?_) fun all => Bool.false_ne_true all.1
          rw [passes colResult rfl] at allowed
          nomatch allowed

/-- A request goes through unless something asked for its sake is denied. -/
theorem passes_resultFor_iff (request : RangerHiveAccessRequest) :
    Passes (resultFor authorizer request) ↔
      ∀ question ∈ asked request, ¬ authorizer.Denies question := by
  unfold resultFor asked Denies RangerBasePlugin.isAccessAllowed RangerBasePlugin.areAccessesAllowed
  cases authorizer.policyEngine with
  | none =>
      refine iff_of_true ?_ ?_
      · split
        · exact fun _ impossible => nomatch impossible
        · exact fun _ impossible => nomatch impossible
      · rintro question _ ⟨_, impossible, _⟩
        nomatch impossible
  | some answer =>
      cases hasColumns request.hiveResource with
      | true =>
          have start : Passes none := fun _ impossible => nomatch impossible
          simp only [↓reduceIte, Option.map_some]
          rw [passes_visitResults start]
          simp
      | false =>
          simp only [Bool.false_eq_true, ↓reduceIte, Option.map_some, Passes]
          simp

theorem checkRequest_eq_ok_iff (request : RangerHiveAccessRequest) :
    checkRequest authorizer ugi request = .ok () ↔ Passes (resultFor authorizer request) := by
  unfold checkRequest Passes
  cases resultFor authorizer request with
  | none => simp
  | some result => cases allowed : result.isAllowed <;> simp [allowed]

/-- Whether a resource stands for several columns is read off its elements. -/
theorem hasColumns_create (objectType : HiveObjectType)
    (database tableOrUdf column : Option String) :
    hasColumns (.create objectType database tableOrUdf column) =
      (((RangerHiveResource.elementsFor objectType database tableOrUdf column).getValue
        RangerHiveResource.KEY_COLUMN).getD "").toList.contains COLUMN_SEP := by
  unfold hasColumns RangerHiveResource.getColumn RangerHiveResource.create
  dsimp only
  rw [RangerHiveResource.getColumn_elementsFor]
  by_cases columns : objectType = .column
  · simp [columns]
  · simp [columns]

/-- **Equal requests.** Requests about equal resources have the same result. -/
theorem resultFor_eq_of_equals {objectType otherType : HiveObjectType}
    {database tableOrUdf column otherDatabase otherTable otherColumn : Option String}
    (same : (RangerHiveResource.create objectType database tableOrUdf column).equals
      (RangerHiveResource.create otherType otherDatabase otherTable otherColumn).toRangerAccessResource
        = true)
    (accessType : HiveAccessType) :
    resultFor authorizer (requestFor authorizer hiveOpType ugi
        (.create objectType database tableOrUdf column) accessType) =
      resultFor authorizer (requestFor authorizer hiveOpType ugi
        (.create otherType otherDatabase otherTable otherColumn) accessType) := by
  have elements := RangerHiveResource.elementsFor_eq_of_equals same
  unfold resultFor columnRequests columnRequest
  simp only [requestFor, hasColumns_create]
  simp only [RangerHiveAccessRequest.toRangerAccessRequest, RangerHiveResource.getColumn,
    RangerHiveResource.getDatabase, RangerHiveResource.getTable, RangerHiveResource.create, elements]

end Requests

section Objects

theorem equals_refl (resource : RangerAccessResource) : resource.equals resource = true := by
  unfold RangerAccessResource.equals
  cases resource.elements with
  | none => rfl
  | some elements => exact elements.equalTo_refl

/-- The objects of an operation, the inputs before the outputs. -/
def objects (inputHObjs outputHObjs : Option (List HivePrivilegeObject)) :
    List (Bool × HivePrivilegeObject) :=
  (inputHObjs.getD []).map (true, ·) ++ (outputHObjs.getD []).map (false, ·)

/-- An object is turned away before a request is made: it is of no resource, or a file whose
permission is missing. -/
def Barred (object : Bool × HivePrivilegeObject) : Prop :=
  getHiveResource hiveOpType object.2 = none ∨
    ∃ resource, getHiveResource hiveOpType object.2 = some resource ∧
      resource.objectType = .uri ∧
      authorizer.isURIAccessAllowed ugi.shortUserName (permissionFor object.1)
        object.2.objectName = false

/-- A request is made about the resource of an object. -/
structure Checked (object : Bool × HivePrivilegeObject) (resource : RangerHiveResource) : Prop where
  found : getHiveResource hiveOpType object.2 = some resource
  notFile : resource.objectType ≠ .uri
  needed : getAccessType object.2 hiveOpType object.1 ≠ .none

/-- The request for an object. -/
def ownRequest (object : Bool × HivePrivilegeObject) (resource : RangerHiveResource) :
    RangerHiveAccessRequest :=
  requestFor authorizer hiveOpType ugi resource (getAccessType object.2 hiveOpType object.1)

/-- A request that is found by the resource and the access type of an object. -/
def StandsFor (object : Bool × HivePrivilegeObject) (resource : RangerHiveResource)
    (request : RangerHiveAccessRequest) : Prop :=
  request.hiveAccessType = getAccessType object.2 hiveOpType object.1 ∧
    request.hiveResource.equals resource.toRangerAccessResource = true

/-- What the loops over some objects make of the requests before them. -/
structure Collected (visited : List (Bool × HivePrivilegeObject))
    (before after : List RangerHiveAccessRequest) : Prop where
  passed : ∀ object ∈ visited, ¬ Barred authorizer hiveOpType ugi object
  kept : before ⊆ after
  made : ∀ request ∈ after, request ∈ before ∨ ∃ object ∈ visited, ∃ resource,
    Checked hiveOpType object resource ∧
      request = ownRequest authorizer hiveOpType ugi object resource
  found : ∀ object ∈ visited, ∀ resource, Checked hiveOpType object resource →
    ∃ request ∈ after, StandsFor hiveOpType object resource request

variable {authorizer hiveOpType ugi}

theorem visit_cases (isInput : Bool) (requests : List RangerHiveAccessRequest)
    (hiveObj : HivePrivilegeObject) :
    (∃ error, visit authorizer hiveOpType ugi isInput requests hiveObj = .error error ∧
        Barred authorizer hiveOpType ugi (isInput, hiveObj)) ∨
      ∃ after, visit authorizer hiveOpType ugi isInput requests hiveObj = .ok after ∧
        Collected authorizer hiveOpType ugi [(isInput, hiveObj)] requests after := by
  -- an object that needs no request leaves the requests as they are
  have unchanged : ¬ Barred authorizer hiveOpType ugi (isInput, hiveObj) →
      (∀ resource, Checked hiveOpType (isInput, hiveObj) resource → ∃ request ∈ requests,
        StandsFor hiveOpType (isInput, hiveObj) resource request) →
      Collected authorizer hiveOpType ugi [(isInput, hiveObj)] requests requests := by
    intro passed found
    refine ⟨?_, List.Subset.refl _, fun request member => .inl member, ?_⟩
    · rw [List.forall_mem_singleton]
      exact passed
    · rw [List.forall_mem_singleton]
      exact found
  unfold visit
  cases known : getHiveResource hiveOpType hiveObj with
  | none => exact .inl ⟨_, rfl, .inl known⟩
  | some resource =>
      dsimp only
      by_cases file : resource.objectType = .uri
      · rw [if_pos file]
        cases permitted : authorizer.isURIAccessAllowed ugi.shortUserName (permissionFor isInput)
            hiveObj.objectName with
        | false => exact .inl ⟨_, rfl, .inr ⟨resource, known, file, permitted⟩⟩
        | true =>
            refine .inr ⟨requests, rfl, unchanged ?_ ?_⟩
            · rintro (missing | ⟨_, _, _, denied⟩)
              · rw [known] at missing
                nomatch missing
              · rw [permitted] at denied
                nomatch denied
            · rintro other ⟨same, notFile, _⟩
              rw [known] at same
              cases same
              exact absurd file notFile
      · have passed : ¬ Barred authorizer hiveOpType ugi (isInput, hiveObj) := by
          rintro (missing | ⟨_, same, isFile, _⟩)
          · rw [known] at missing
            nomatch missing
          · rw [known] at same
            cases same
            exact file isFile
        rw [if_neg file]
        by_cases needless : getAccessType hiveObj hiveOpType isInput = .none
        · rw [if_pos needless]
          exact .inr ⟨requests, rfl, unchanged passed fun _ checked =>
            absurd needless checked.needed⟩
        · rw [if_neg needless]
          cases present : existsByResourceAndAccessType requests resource
              (getAccessType hiveObj hiveOpType isInput) with
          | true =>
              refine .inr ⟨requests, rfl, unchanged passed ?_⟩
              rintro other ⟨same, _, _⟩
              rw [known] at same
              cases same
              obtain ⟨request, member, alike⟩ := List.any_eq_true.mp present
              obtain ⟨sameType, equal⟩ := Bool.and_eq_true_iff.mp alike
              exact ⟨request, member, of_decide_eq_true sameType, equal⟩
          | false =>
              have checked : Checked hiveOpType (isInput, hiveObj) resource :=
                ⟨known, file, needless⟩
              refine .inr ⟨_, rfl, ?_, List.subset_append_left _ _, ?_, ?_⟩
              · rw [List.forall_mem_singleton]
                exact passed
              · intro request member
                rcases List.mem_append.mp member with earlier | added
                · exact .inl earlier
                · exact .inr ⟨_, List.mem_singleton_self _, resource, checked,
                    List.mem_singleton.mp added⟩
              · rw [List.forall_mem_singleton]
                rintro other ⟨same, _, _⟩
                rw [known] at same
                cases same
                exact ⟨_, List.mem_append_right _ (List.mem_singleton_self _), rfl, equals_refl _⟩

theorem Collected.append {first second : List (Bool × HivePrivilegeObject)}
    {before between after : List RangerHiveAccessRequest}
    (early : Collected authorizer hiveOpType ugi first before between)
    (late : Collected authorizer hiveOpType ugi second between after) :
    Collected authorizer hiveOpType ugi (first ++ second) before after := by
  refine ⟨?_, List.Subset.trans early.kept late.kept, ?_, ?_⟩
  · intro object member
    rcases List.mem_append.mp member with earlier | later
    · exact early.passed object earlier
    · exact late.passed object later
  · intro request member
    rcases late.made request member with kept | ⟨object, later, made⟩
    · rcases early.made request kept with old | ⟨object, earlier, made⟩
      · exact .inl old
      · exact .inr ⟨object, List.mem_append_left _ earlier, made⟩
    · exact .inr ⟨object, List.mem_append_right _ later, made⟩
  · intro object member resource checked
    rcases List.mem_append.mp member with earlier | later
    · obtain ⟨request, listed, stands⟩ := early.found object earlier resource checked
      exact ⟨request, late.kept listed, stands⟩
    · exact late.found object later resource checked

/-- A loop over the inputs, or over the outputs, ends unless an object is turned away. -/
theorem foldlM_visit_cases (isInput : Bool) (hiveObjs : List HivePrivilegeObject)
    (requests : List RangerHiveAccessRequest) :
    (∃ error, hiveObjs.foldlM (visit authorizer hiveOpType ugi isInput) requests = .error error ∧
        ∃ hiveObj ∈ hiveObjs, Barred authorizer hiveOpType ugi (isInput, hiveObj)) ∨
      ∃ after, hiveObjs.foldlM (visit authorizer hiveOpType ugi isInput) requests = .ok after ∧
        Collected authorizer hiveOpType ugi (hiveObjs.map (isInput, ·)) requests after := by
  induction hiveObjs generalizing requests with
  | nil =>
      refine .inr ⟨requests, rfl, ?_, List.Subset.refl _, fun _ member => .inl member, ?_⟩
      · exact fun _ impossible => nomatch impossible
      · exact fun _ impossible => nomatch impossible
  | cons hiveObj rest ih =>
      rw [List.foldlM_cons]
      rcases @visit_cases authorizer hiveOpType ugi isInput requests hiveObj with
        ⟨error, failed, barred⟩ | ⟨between, visited, early⟩
      · rw [failed]
        exact .inl ⟨error, rfl, hiveObj, List.mem_cons_self, barred⟩
      · rw [visited]
        rcases ih between with ⟨error, failed, other, member, barred⟩ | ⟨after, looped, late⟩
        · exact .inl ⟨error, failed, other, List.mem_cons_of_mem _ member, barred⟩
        · exact .inr ⟨after, looped, early.append late⟩

/-- **Requests.** They are collected unless an object is turned away, and every object that is
checked has one that stands for it. -/
theorem collect_cases (inputHObjs outputHObjs : Option (List HivePrivilegeObject)) :
    (∃ error, collect authorizer hiveOpType ugi inputHObjs outputHObjs = .error error ∧
        ∃ object ∈ objects inputHObjs outputHObjs, Barred authorizer hiveOpType ugi object) ∨
      ∃ requests, collect authorizer hiveOpType ugi inputHObjs outputHObjs = .ok requests ∧
        Collected authorizer hiveOpType ugi (objects inputHObjs outputHObjs) [] requests := by
  unfold collect objects
  rcases @foldlM_visit_cases authorizer hiveOpType ugi true (inputHObjs.getD []) [] with
    ⟨error, failed, hiveObj, member, barred⟩ | ⟨between, visited, early⟩
  · rw [failed]
    exact .inl ⟨error, rfl, _, List.mem_append_left _ (List.mem_map_of_mem member), barred⟩
  · rw [visited]
    rcases @foldlM_visit_cases authorizer hiveOpType ugi false (outputHObjs.getD []) between with
      ⟨error, failed, hiveObj, member, barred⟩ | ⟨requests, looped, late⟩
    · exact .inl ⟨error, failed, _, List.mem_append_right _ (List.mem_map_of_mem member), barred⟩
    · exact .inr ⟨requests, looped, early.append late⟩

theorem exists_create_of_getHiveResource {hiveObj : HivePrivilegeObject}
    {resource : RangerHiveResource} (found : getHiveResource hiveOpType hiveObj = some resource) :
    ∃ objectType database tableOrUdf column,
      resource = .create objectType database tableOrUdf column := by
  unfold getHiveResource at found
  cases objectType : getObjectType hiveObj hiveOpType <;> rw [objectType] at found <;>
    first
    | exact ⟨_, _, _, _, (Option.some.inj found).symm⟩
    | nomatch found

/-- **No decision is lost.** A request that stands for an object has the result that the
object's own request has. -/
theorem resultFor_eq_own {visited : List (Bool × HivePrivilegeObject)}
    {requests : List RangerHiveAccessRequest}
    (collected : Collected authorizer hiveOpType ugi visited [] requests)
    {object : Bool × HivePrivilegeObject} {resource : RangerHiveResource}
    (checked : Checked hiveOpType object resource) {request : RangerHiveAccessRequest}
    (member : request ∈ requests) (stands : StandsFor hiveOpType object resource request) :
    resultFor authorizer request =
      resultFor authorizer (ownRequest authorizer hiveOpType ugi object resource) := by
  rcases collected.made request member with impossible | ⟨other, _, made, ofOther, rfl⟩
  · nomatch impossible
  · obtain ⟨sameType, equal⟩ := stands
    obtain ⟨_, _, _, _, rfl⟩ := exists_create_of_getHiveResource ofOther.found
    obtain ⟨_, _, _, _, rfl⟩ := exists_create_of_getHiveResource checked.found
    unfold ownRequest at sameType equal ⊢
    dsimp only [requestFor] at sameType equal
    rw [sameType]
    exact resultFor_eq_of_equals equal _

theorem forM_eq_ok_iff (requests : List RangerHiveAccessRequest) :
    requests.forM (checkRequest authorizer ugi) = .ok () ↔
      ∀ request ∈ requests, Passes (resultFor authorizer request) := by
  induction requests with
  | nil => exact iff_of_true rfl fun _ impossible => nomatch impossible
  | cons request rest ih =>
      rw [List.forall_mem_cons, ← ih, ← @checkRequest_eq_ok_iff authorizer ugi]
      change (checkRequest authorizer ugi request >>= fun _ =>
        rest.forM (checkRequest authorizer ugi)) = .ok () ↔ _
      cases checkRequest authorizer ugi request with
      | ok => exact (and_iff_right rfl).symm
      | error error =>
          exact iff_of_false (fun impossible => nomatch impossible)
            fun impossible => nomatch impossible.1

/-- **Operations.** An operation is let through unless an object is turned away or something
asked for the sake of an object is denied. -/
theorem checkPrivileges_eq_ok_iff (known : authorizer.ugi = some ugi)
    (ordinary : hiveOpType ≠ .dfs) (inputHObjs outputHObjs : Option (List HivePrivilegeObject)) :
    checkPrivileges authorizer hiveOpType inputHObjs outputHObjs = .ok () ↔
      ∀ object ∈ objects inputHObjs outputHObjs, ¬ Barred authorizer hiveOpType ugi object ∧
        ∀ resource, Checked hiveOpType object resource →
          ∀ question ∈ asked (ownRequest authorizer hiveOpType ugi object resource),
            ¬ authorizer.Denies question := by
  have plain : isMetaDataOperation hiveOpType = false := by
    unfold isMetaDataOperation
    split <;> rfl
  unfold checkPrivileges
  rw [known]
  dsimp only
  rw [if_neg ordinary, plain]
  rcases @collect_cases authorizer hiveOpType ugi inputHObjs outputHObjs with
    ⟨error, failed, object, member, barred⟩ | ⟨requests, visited, collected⟩
  · rw [failed]
    exact iff_of_false (fun impossible => nomatch impossible)
      fun all => (all object member).1 barred
  · have loop : (requests.forM (checkRequest authorizer ugi) : Except HiveException Unit) = .ok () ↔
        ∀ object ∈ objects inputHObjs outputHObjs, ∀ resource, Checked hiveOpType object resource →
          ∀ question ∈ asked (ownRequest authorizer hiveOpType ugi object resource),
            ¬ authorizer.Denies question := by
      rw [forM_eq_ok_iff]
      constructor
      · intro passes object member resource checked
        obtain ⟨request, listed, stands⟩ := collected.found object member resource checked
        apply (passes_resultFor_iff _).mp
        rw [← resultFor_eq_own collected checked listed stands]
        exact passes request listed
      · intro accepted request listed
        rcases collected.made request listed with impossible | ⟨object, member, made, checked, rfl⟩
        · nomatch impossible
        · exact (passes_resultFor_iff _).mpr (accepted object member made checked)
    rw [visited]
    refine Iff.trans loop ?_
    exact forall₂_congr fun object member => (and_iff_right (collected.passed object member)).symm

end Objects

section Decisions

/-- An object stands for several columns. -/
def MultiColumn (hiveObj : HivePrivilegeObject) : Prop :=
  getObjectType hiveObj hiveOpType = .column ∧ 2 ≤ (hiveObj.columns.getD []).length

/-- The request for a column of an object. -/
def columnOf (object : Bool × HivePrivilegeObject) (column : String) : RangerHiveAccessRequest :=
  ownRequest authorizer hiveOpType ugi object
    (.create .column object.2.dbname object.2.objectName (some column))

/-- What an object whose access type is not `NONE` requires. -/
def Authorized (object : Bool × HivePrivilegeObject) : Prop :=
  ∃ resource, getHiveResource hiveOpType object.2 = some resource ∧
    (resource.objectType = .uri →
      authorizer.isURIAccessAllowed ugi.shortUserName (permissionFor object.1)
        object.2.objectName = true) ∧
    (resource.objectType ≠ .uri → MultiColumn hiveOpType object.2 →
      nonBlankColumns object.2 ≠ [] ∧ ∀ column ∈ nonBlankColumns object.2,
        authorizer.Allows (columnOf authorizer hiveOpType ugi object column)) ∧
    (resource.objectType ≠ .uri → ¬ MultiColumn hiveOpType object.2 →
      authorizer.Allows (ownRequest authorizer hiveOpType ugi object resource))

/-- An operation is let through only when each of its objects is authorized. -/
def FailsClosed (inputHObjs outputHObjs : Option (List HivePrivilegeObject)) : Prop :=
  checkPrivileges authorizer hiveOpType inputHObjs outputHObjs = .ok () →
    ∀ object ∈ objects inputHObjs outputHObjs,
      getAccessType object.2 hiveOpType object.1 ≠ .none →
        Authorized authorizer hiveOpType ugi object

/-- The requests have, for every object, one with the result of the object's own request. -/
def KeepsDecisions (inputHObjs outputHObjs : Option (List HivePrivilegeObject)) : Prop :=
  ∀ requests, collect authorizer hiveOpType ugi inputHObjs outputHObjs = .ok requests →
    ∀ object ∈ objects inputHObjs outputHObjs, ∀ resource, Checked hiveOpType object resource →
      ∃ request ∈ requests, StandsFor hiveOpType object resource request ∧
        resultFor authorizer request =
          resultFor authorizer (ownRequest authorizer hiveOpType ugi object resource)

instance (hiveObj : HivePrivilegeObject) : Decidable (MultiColumn hiveOpType hiveObj) :=
  inferInstanceAs (Decidable (_ ∧ _))

/-- The name under which a column of an object is authorized. -/
def ownName (hiveObj : HivePrivilegeObject) (column : Option String) : String :=
  if MultiColumn hiveOpType hiveObj then trim (columnText column) else columnText column

/-- An object that cannot slip through: there is an engine to ask, a column is not blank if
there are several, and one with the separator in its name is allowed under this name. -/
structure Covered (object : Bool × HivePrivilegeObject) : Prop where
  engine : authorizer.policyEngine.isSome = true
  visible : MultiColumn hiveOpType object.2 → nonBlankColumns object.2 ≠ []
  named : getObjectType object.2 hiveOpType = .column →
    ∀ column ∈ object.2.columns.getD [], Separated column →
      authorizer.Allows
        (columnOf authorizer hiveOpType ugi object (ownName hiveOpType object.2 column))

/-- Something is refused, or no object can slip through. -/
def Settled (inputHObjs outputHObjs : Option (List HivePrivilegeObject)) : Prop :=
  (∃ object ∈ objects inputHObjs outputHObjs, Barred authorizer hiveOpType ugi object) ∨
    (∃ object ∈ objects inputHObjs outputHObjs, ∃ resource, Checked hiveOpType object resource ∧
      ∃ question ∈ asked (ownRequest authorizer hiveOpType ugi object resource),
        authorizer.Denies question) ∨
    ∀ object ∈ objects inputHObjs outputHObjs, ∀ resource, Checked hiveOpType object resource →
      Covered authorizer hiveOpType ugi object

variable {authorizer hiveOpType ugi}

theorem not_column_of_isEmpty {hiveObj : HivePrivilegeObject}
    (empty : isEmptyList hiveObj.columns = true) :
    getObjectType hiveObj hiveOpType ≠ .column := by
  unfold getObjectType
  rw [empty]
  cases hiveObj.type with
  | tableOrView =>
      dsimp only
      cases nameContains hiveOpType "index" with
      | true => exact fun impossible => nomatch impossible
      | false =>
          cases nameContains hiveOpType "view" with
          | true => exact fun impossible => nomatch impossible
          | false => exact fun impossible => nomatch impossible
  | _ => exact fun impossible => nomatch impossible

/-- The columns of an object, when it has any. -/
theorem columns_of_column {hiveObj : HivePrivilegeObject}
    (columns : getObjectType hiveObj hiveOpType = .column) :
    ∃ first rest, hiveObj.columns = some (first :: rest) := by
  cases listed : hiveObj.columns with
  | some columnList =>
      cases columnList with
      | cons first rest => exact ⟨first, rest, rfl⟩
      | nil => exact absurd columns (not_column_of_isEmpty (by rw [listed]; rfl))
  | none => exact absurd columns (not_column_of_isEmpty (by rw [listed]; rfl))

theorem getHiveResource_of_column {hiveObj : HivePrivilegeObject}
    (columns : getObjectType hiveObj hiveOpType = .column) :
    getHiveResource hiveOpType hiveObj =
      some (.create .column hiveObj.dbname hiveObj.objectName (joinColumns hiveObj.columns)) := by
  unfold getHiveResource
  rw [columns]

theorem objectType_eq {hiveObj : HivePrivilegeObject} {resource : RangerHiveResource}
    (found : getHiveResource hiveOpType hiveObj = some resource) :
    resource.objectType = getObjectType hiveObj hiveOpType := by
  unfold getHiveResource at found
  cases objectType : getObjectType hiveObj hiveOpType <;> rw [objectType] at found <;>
    first
    | exact congrArg RangerHiveResource.objectType (Option.some.inj found).symm
    | nomatch found

theorem toList_joinColumns (columns : Option (List (Option String))) :
    ((joinColumns columns).getD "").toList =
      [COLUMN_SEP].intercalate
        ((columns.getD []).map fun column => (columnText column).toList) := by
  cases columns with
  | none => rfl
  | some columns =>
      unfold joinColumns
      rw [Option.map_some, Option.getD_some, Option.getD_some, String.toList_ofList]
      rfl

/-- Several columns are asked about when there are several, or the separator is in a name. -/
theorem hasColumns_joinColumns_iff (hiveObj : HivePrivilegeObject) :
    hasColumns (.create .column hiveObj.dbname hiveObj.objectName
        (joinColumns hiveObj.columns)) = true ↔
      2 ≤ (hiveObj.columns.getD []).length ∨
        ∃ column ∈ hiveObj.columns.getD [], Separated column := by
  rw [hasColumns_create, RangerHiveResource.getColumn_elementsFor, if_pos rfl, toList_joinColumns,
    List.contains_iff_mem, mem_intercalate_iff, List.length_map]
  simp only [List.mem_map, exists_exists_and_eq_and, Separated]

/-- What is asked about the columns of an object. -/
theorem mem_columnRequests_iff {object : Bool × HivePrivilegeObject}
    {question : RangerHiveAccessRequest} :
    question ∈ columnRequests (ownRequest authorizer hiveOpType ugi object
        (.create .column object.2.dbname object.2.objectName (joinColumns object.2.columns))) ↔
      ∃ column ∈ object.2.columns.getD [], ∃ piece ∈ split COLUMN_SEP (columnText column).toList,
        trim (String.ofList piece) ≠ "" ∧
          columnOf authorizer hiveOpType ugi object (trim (String.ofList piece)) = question := by
  have joined : ((RangerHiveResource.create .column object.2.dbname object.2.objectName
      (joinColumns object.2.columns)).getColumn.getD "").toList =
        [COLUMN_SEP].intercalate
          ((object.2.columns.getD []).map fun column => (columnText column).toList) := by
    unfold RangerHiveResource.getColumn RangerHiveResource.create
    rw [RangerHiveResource.getColumn_elementsFor, if_pos rfl, toList_joinColumns]
  have database : (RangerHiveResource.create .column object.2.dbname object.2.objectName
      (joinColumns object.2.columns)).getDatabase = object.2.dbname :=
    RangerHiveResource.getDatabase_column _ _ _
  have table : (RangerHiveResource.create .column object.2.dbname object.2.objectName
      (joinColumns object.2.columns)).getTable = object.2.objectName :=
    RangerHiveResource.getTable_column _ _ _
  unfold columnRequests columnRequest columnOf ownRequest
  dsimp only [requestFor]
  rw [joined, split_intercalate, database, table]
  simp only [List.mem_filterMap, List.mem_flatMap, List.flatMap_map]
  constructor
  · rintro ⟨piece, ⟨column, listed, member⟩, made⟩
    by_cases blank : (trim (String.ofList piece)).isEmpty = true
    · rw [if_pos blank] at made
      nomatch made
    · rw [if_neg blank] at made
      exact ⟨column, listed, piece, member, by simpa using blank, Option.some.inj made⟩
  · rintro ⟨column, listed, piece, member, visible, rfl⟩
    exact ⟨piece, ⟨column, listed, member⟩, if_neg (by simpa using visible)⟩

/-- A single resource is asked about as it is. -/
theorem allows_own_iff {object : Bool × HivePrivilegeObject} {resource : RangerHiveResource}
    (one : hasColumns resource = false)
    (accepted : ∀ question ∈ asked (ownRequest authorizer hiveOpType ugi object resource),
      ¬ authorizer.Denies question) :
    authorizer.Allows (ownRequest authorizer hiveOpType ugi object resource) ↔
      authorizer.policyEngine.isSome = true := by
  have alone : asked (ownRequest authorizer hiveOpType ugi object resource) =
      [ownRequest authorizer hiveOpType ugi object resource] := if_neg (Bool.eq_false_iff.mp one)
  rw [alone, List.forall_mem_singleton] at accepted
  exact allows_iff accepted

/-- Several columns are allowed when one is visible and those with the separator in their
names are allowed. -/
theorem allows_columns_iff {object : Bool × HivePrivilegeObject}
    (several : MultiColumn hiveOpType object.2)
    (accepted : ∀ question ∈ asked (ownRequest authorizer hiveOpType ugi object
        (.create .column object.2.dbname object.2.objectName (joinColumns object.2.columns))),
      ¬ authorizer.Denies question) :
    (nonBlankColumns object.2 ≠ [] ∧ ∀ column ∈ nonBlankColumns object.2,
        authorizer.Allows (columnOf authorizer hiveOpType ugi object column)) ↔
      Covered authorizer hiveOpType ugi object := by
  have divided : asked (ownRequest authorizer hiveOpType ugi object
      (.create .column object.2.dbname object.2.objectName (joinColumns object.2.columns))) =
        columnRequests (ownRequest authorizer hiveOpType ugi object
          (.create .column object.2.dbname object.2.objectName (joinColumns object.2.columns))) :=
    if_pos ((hasColumns_joinColumns_iff object.2).mpr (.inl several.2))
  rw [divided] at accepted
  constructor
  · rintro ⟨visible, allowed⟩
    obtain ⟨column, listed⟩ := List.exists_mem_of_ne_nil _ visible
    refine ⟨(allowed column listed).isSome, fun _ => visible, fun _ column listed separated => ?_⟩
    unfold ownName
    rw [if_pos several]
    exact allowed _ (mem_nonBlankColumns_iff.mpr ⟨column, listed, trim_ne_empty separated, rfl⟩)
  · intro covered
    refine ⟨covered.visible several, fun name member => ?_⟩
    obtain ⟨column, listed, visible, rfl⟩ := mem_nonBlankColumns_iff.mp member
    by_cases separated : Separated column
    · have named := covered.named several.1 column listed separated
      unfold ownName at named
      rw [if_pos several] at named
      exact named
    · apply (allows_iff _).mpr covered.engine
      apply accepted
      -- a name without the separator is a piece of its own
      have whole : (columnText column).toList ∈ split COLUMN_SEP (columnText column).toList := by
        rw [split_of_not_separated separated, if_neg]
        · exact List.mem_singleton_self _
        · intro empty
          rw [empty] at visible
          exact visible trim_empty
      have text : String.ofList (columnText column).toList = columnText column :=
        String.ofList_toList
      exact mem_columnRequests_iff.mpr ⟨column, listed, _, whole, by rwa [text], by rw [text]⟩

/-- A single column is allowed when its name is, should it have the separator in it. -/
theorem allows_column_iff {object : Bool × HivePrivilegeObject}
    (columns : getObjectType object.2 hiveOpType = .column)
    (single : ¬ MultiColumn hiveOpType object.2)
    (accepted : ∀ question ∈ asked (ownRequest authorizer hiveOpType ugi object
        (.create .column object.2.dbname object.2.objectName (joinColumns object.2.columns))),
      ¬ authorizer.Denies question) :
    authorizer.Allows (ownRequest authorizer hiveOpType ugi object
        (.create .column object.2.dbname object.2.objectName (joinColumns object.2.columns))) ↔
      Covered authorizer hiveOpType ugi object := by
  obtain ⟨column, rest, listed⟩ := columns_of_column columns
  cases rest with
  | cons second rest =>
      refine absurd ⟨columns, ?_⟩ single
      rw [listed]
      simp
  | nil =>
      have joined : joinColumns object.2.columns = some (columnText column) := by
        rw [listed]
        simp [joinColumns, columnText]
      have named : ownName hiveOpType object.2 column = columnText column := if_neg single
      have own : columnOf authorizer hiveOpType ugi object (columnText column) =
          ownRequest authorizer hiveOpType ugi object
            (.create .column object.2.dbname object.2.objectName (joinColumns object.2.columns)) := by
        rw [joined]
        rfl
      constructor
      · intro allowed
        refine ⟨allowed.isSome, fun several => absurd several single, fun _ other member _ => ?_⟩
        rw [listed] at member
        rw [List.mem_singleton.mp member, named, own]
        exact allowed
      · intro covered
        by_cases separated : Separated column
        · rw [← own, ← named]
          exact covered.named columns column (by rw [listed]; exact List.mem_cons_self) separated
        · refine (allows_own_iff ?_ accepted).mpr covered.engine
          apply Bool.eq_false_iff.mpr
          rw [Ne, hasColumns_joinColumns_iff, listed]
          rintro (long | ⟨other, member, inside⟩)
          · simp at long
          · rw [List.mem_singleton.mp member] at inside
            exact separated inside

/-- **Objects.** An object of which nothing is denied is authorized when it is covered. -/
theorem authorized_iff_covered {object : Bool × HivePrivilegeObject}
    {resource : RangerHiveResource} (checked : Checked hiveOpType object resource)
    (accepted : ∀ question ∈ asked (ownRequest authorizer hiveOpType ugi object resource),
      ¬ authorizer.Denies question) :
    Authorized authorizer hiveOpType ugi object ↔ Covered authorizer hiveOpType ugi object := by
  have settled : Authorized authorizer hiveOpType ugi object ↔
      (MultiColumn hiveOpType object.2 → nonBlankColumns object.2 ≠ [] ∧
        ∀ column ∈ nonBlankColumns object.2,
          authorizer.Allows (columnOf authorizer hiveOpType ugi object column)) ∧
      (¬ MultiColumn hiveOpType object.2 →
        authorizer.Allows (ownRequest authorizer hiveOpType ugi object resource)) := by
    constructor
    · rintro ⟨other, same, _, several, single⟩
      rw [checked.found] at same
      cases same
      exact ⟨several checked.notFile, single checked.notFile⟩
    · rintro ⟨several, single⟩
      exact ⟨resource, checked.found, fun file => absurd file checked.notFile,
        fun _ => several, fun _ => single⟩
  rw [settled]
  by_cases columns : getObjectType object.2 hiveOpType = .column
  · have same := checked.found.symm.trans (getHiveResource_of_column columns)
    cases same
    by_cases several : MultiColumn hiveOpType object.2
    · rw [and_iff_left fun single => absurd several single, ← allows_columns_iff several accepted]
      exact ⟨fun allowed => allowed several, fun allowed _ => allowed⟩
    · rw [and_iff_right fun multi => absurd multi several,
        ← allows_column_iff columns several accepted]
      exact ⟨fun allowed => allowed several, fun allowed _ => allowed⟩
  · have plain : ¬ MultiColumn hiveOpType object.2 := fun several => columns several.1
    have one : hasColumns resource = false := by
      unfold hasColumns
      rw [objectType_eq checked.found, decide_eq_false columns, Bool.false_and]
    rw [allows_own_iff one accepted]
    constructor
    · rintro ⟨_, single⟩
      exact ⟨single plain, fun several => absurd several plain,
        fun isColumn => absurd isColumn columns⟩
    · intro covered
      exact ⟨fun several => absurd several plain, fun _ => covered.engine⟩

/-- **Enforcement.** Decisions are kept, and an operation fails closed if and only if something
is refused or none of its objects can slip through. -/
theorem failsClosed_iff (known : authorizer.ugi = some ugi) (ordinary : hiveOpType ≠ .dfs)
    (inputHObjs outputHObjs : Option (List HivePrivilegeObject)) :
    (FailsClosed authorizer hiveOpType ugi inputHObjs outputHObjs ∧
      KeepsDecisions authorizer hiveOpType ugi inputHObjs outputHObjs) ↔
      Settled authorizer hiveOpType ugi inputHObjs outputHObjs := by
  have keeps : KeepsDecisions authorizer hiveOpType ugi inputHObjs outputHObjs := by
    intro requests looped object member resource checked
    rcases @collect_cases authorizer hiveOpType ugi inputHObjs outputHObjs with
      ⟨error, failed, _⟩ | ⟨others, same, collected⟩
    · rw [looped] at failed
      nomatch failed
    · rw [looped] at same
      cases same
      obtain ⟨request, listed, stands⟩ := collected.found object member resource checked
      exact ⟨request, listed, stands, resultFor_eq_own collected checked listed stands⟩
  rw [and_iff_left keeps]
  unfold FailsClosed Settled
  rw [checkPrivileges_eq_ok_iff known ordinary]
  by_cases barred : ∃ object ∈ objects inputHObjs outputHObjs,
      Barred authorizer hiveOpType ugi object
  · refine iff_of_true (fun passed => ?_) (.inl barred)
    obtain ⟨object, member, barred⟩ := barred
    exact absurd barred (passed object member).1
  · by_cases denied : ∃ object ∈ objects inputHObjs outputHObjs, ∃ resource,
        Checked hiveOpType object resource ∧
          ∃ question ∈ asked (ownRequest authorizer hiveOpType ugi object resource),
            authorizer.Denies question
    · refine iff_of_true (fun passed => ?_) (.inr (.inl denied))
      obtain ⟨object, member, resource, checked, question, inside, denied⟩ := denied
      exact absurd denied ((passed object member).2 resource checked question inside)
    · rw [or_iff_right barred, or_iff_right denied]
      have accepted : ∀ object ∈ objects inputHObjs outputHObjs, ∀ resource,
          Checked hiveOpType object resource →
            ∀ question ∈ asked (ownRequest authorizer hiveOpType ugi object resource),
              ¬ authorizer.Denies question :=
        fun object member resource checked question inside refused =>
          denied ⟨object, member, resource, checked, question, inside, refused⟩
      have unbarred : ∀ object ∈ objects inputHObjs outputHObjs,
          ¬ Barred authorizer hiveOpType ugi object :=
        fun object member refused => barred ⟨object, member, refused⟩
      constructor
      · intro closed object member resource checked
        apply (authorized_iff_covered checked (accepted object member resource checked)).mp
        exact closed (fun object member => ⟨unbarred object member, accepted object member⟩)
          object member checked.needed
      · intro covered _ object member needed
        cases found : getHiveResource hiveOpType object.2 with
        | none => exact absurd (.inl found) (unbarred object member)
        | some resource =>
            by_cases file : resource.objectType = .uri
            · refine ⟨resource, found, fun _ => ?_, fun notFile => absurd file notFile,
                fun notFile => absurd file notFile⟩
              cases permitted : authorizer.isURIAccessAllowed ugi.shortUserName
                  (permissionFor object.1) object.2.objectName with
              | true => rfl
              | false =>
                  exact absurd (.inr ⟨resource, found, file, permitted⟩) (unbarred object member)
            · have checked : Checked hiveOpType object resource := ⟨found, file, needed⟩
              exact (authorized_iff_covered checked (accepted object member resource checked)).mpr
                (covered object member resource checked)

end Decisions

section Loading

/-- A plugin that has not received policies yet. -/
def unloaded : RangerHiveAuthorizer where
  policyEngine := none
  serviceDef := { name := "hive", resources := [], accessTypes := [] }
  ugi := some { shortUserName := "u", groupNames := [] }
  isURIAccessAllowed := fun _ _ _ => false

/-- A database is dropped. -/
def droppedDatabase : HivePrivilegeObject where
  type := .database
  dbname := some "sales"

theorem drop_failsClosed_iff :
    (FailsClosed unloaded .dropdatabase { shortUserName := "u", groupNames := [] } none
        (some [droppedDatabase]) ∧
      KeepsDecisions unloaded .dropdatabase { shortUserName := "u", groupNames := [] } none
        (some [droppedDatabase])) ↔
      Settled unloaded .dropdatabase { shortUserName := "u", groupNames := [] } none
        (some [droppedDatabase]) :=
  failsClosed_iff rfl (by decide) _ _

/-- **No engine.** As long as there is no policy engine, everybody may drop a database. -/
theorem unloaded_lets_through :
    ¬ FailsClosed unloaded .dropdatabase { shortUserName := "u", groupNames := [] } none
      (some [droppedDatabase]) := by
  intro closed
  have passed : checkPrivileges unloaded .dropdatabase none (some [droppedDatabase]) = .ok () := rfl
  obtain ⟨resource, found, _, _, single⟩ :=
    closed passed (false, droppedDatabase) List.mem_cons_self (by decide)
  cases found
  have plain : ¬ MultiColumn .dropdatabase droppedDatabase := fun several => nomatch several.1
  obtain ⟨_, impossible, _⟩ := single (by decide) plain
  nomatch impossible

end Loading

end RangerHiveAuthorizer

end Ranger

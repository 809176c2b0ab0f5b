import Ranger.Admin.ServiceStore

/-! # Validation of policies

The checks a policy passes before it is created or updated. A check is the list
of the failures it reports; a policy is valid when none is reported.
-/

namespace Ranger

open Foundation

/-- One failure: the field it is about, its kind and the reason. -/
structure ValidationFailureDetails where
  fieldName : Option String := none
  subFieldName : Option String := none
  missing : Bool := false
  semanticError : Bool := false
  internalError : Bool := false
  reason : Option String := none
  deriving DecidableEq

namespace ValidationFailureDetails

def getType (failure : ValidationFailureDetails) : String :=
  if failure.missing then "missing"
  else if failure.semanticError then "semantically incorrect"
  else if failure.internalError then "internal error"
  else ""

def toText (failure : ValidationFailureDetails) : String :=
  "Field[" ++ failure.fieldName.getD "null" ++ "]" ++
    (match failure.subFieldName with
      | none => ""
      | some subFieldName => ", subField[" ++ subFieldName ++ "]") ++
    " is " ++ failure.getType ++ ": reason[" ++ failure.reason.getD "null" ++ "]"

/-- A value that is missing. -/
def missingValue (field reason : String) : ValidationFailureDetails where
  fieldName := some field
  missing := true
  reason := some reason

/-- A value that is not acceptable. -/
def incorrectValue (field reason : String) (subField : Option String := none) :
    ValidationFailureDetails where
  fieldName := some field
  subFieldName := subField
  semanticError := true
  reason := some reason

/-- An inconsistency of the store. -/
def inconsistency (field : Option String) (reason : String) : ValidationFailureDetails where
  fieldName := field
  internalError := true
  reason := some reason

end ValidationFailureDetails

open ValidationFailureDetails

/-- `RangerValidator.Action`. -/
inductive Action where
  | create
  | update
  | delete
  deriving DecidableEq

section Texts

/-- `toString` of a list or set of texts. -/
def listText (texts : List String) : String := "[" ++ ", ".intercalate texts ++ "]"

/-- `toString` of a map, from the texts of its entries. -/
def mapText (entries : List (String × String)) : String :=
  "\x7b" ++ ", ".intercalate (entries.map fun entry => entry.1 ++ "=" ++ entry.2) ++ "\x7d"

def boolText (value : Bool) : String := if value then "true" else "false"

/-- `RangerPolicyResource.toString`. -/
def RangerPolicyResource.toText (resource : RangerPolicyResource) : String :=
  "RangerPolicyResource=\x7bvalues=\x7b" ++ String.join (resource.values.map (· ++ " ")) ++
    "\x7d isExcludes=\x7b" ++ boolText resource.isExcludes ++ "\x7d isRecursive=\x7b" ++
    boolText resource.isRecursive ++ "\x7d \x7d"

end Texts

section Signature

/-- `RangerPolicyResourceView.toString`. -/
def resourceViewText (resource : RangerPolicyResource) : String :=
  "\x7bvalues=" ++
    listText (resource.values.insertionSort fun first second => precedes first second) ++
    ",excludes=" ++ boolText resource.isExcludes ++ ",recursive=" ++
    boolText resource.isRecursive ++ "\x7d"

/-- `RangerPolicyResourceSignature.getResourceString`: resources in the order of their names. -/
def getResourceString (policy : RangerPolicy) : String :=
  mapText
    ((policy.resources.entries.map fun entry => (entry.1, resourceViewText entry.2)).insertionSort
      fun first second => precedes first.1 second.1)

/-- `RangerPolicyResourceSignature.asHashHex`; signatures are compared by it. -/
def resourceSignature [Platform] (policy : RangerPolicy) : String :=
  Platform.md5Hex (getResourceString policy)

end Signature

namespace RangerPolicyValidator

section Items

variable [Platform]

/-- The access types of a service definition, in lower case. -/
def getAccessTypes (serviceDef : RangerServiceDef) : List String :=
  ((serviceDef.accessTypes.filter (!isBlank ·.name)).map fun accessType =>
    Platform.lowerCase accessType.name).dedup

def isValidPolicyItemAccess (accessTypes : List String) (access : RangerPolicyItemAccess) :
    List ValidationFailureDetails :=
  if accessTypes.isEmpty then []
  else
    (if isBlank access.type then
      [missingValue "policy item access type"
        "policy items access type's name was null/empty/blank"]
    else if accessTypes.contains (Platform.lowerCase access.type) then []
    else
      [incorrectValue "policy item access type" ("access type[" ++ access.type ++
        "] not among valid types for service[" ++ listText (Platform.hashOrder accessTypes) ++
          "]")]) ++
    if access.isAllowed then []
    else
      [incorrectValue "policy item access type allowed"
        "access type is set to deny.  Currently deny access types are not supported."]

def isValidPolicyItem (serviceDef : RangerServiceDef) (policyItem : RangerPolicyItem) :
    List ValidationFailureDetails :=
  (if policyItem.accesses.isEmpty then
    if policyItem.delegateAdmin then []
    else [missingValue "policy item accesses" "policy items accesses collection was null"]
  else policyItem.accesses.flatMap (isValidPolicyItemAccess (getAccessTypes serviceDef))) ++
  if policyItem.users.isEmpty && policyItem.groups.isEmpty then
    [missingValue "policy item users/user-groups"
      "both users and user-groups collections on the policy item were null/empty"]
  else []

def isValidPolicyItems (policyItems : List RangerPolicyItem) (serviceDef : RangerServiceDef) :
    List ValidationFailureDetails :=
  policyItems.flatMap (isValidPolicyItem serviceDef)

end Items

section Resources

variable [Platform]

/-- The validation expressions of the resource levels that have one. -/
def getValidationRegExes (serviceDef : RangerServiceDef) : AssocMap String String :=
  (∅ : AssocMap String String).putAll
    ((serviceDef.resources.filter fun resourceDef =>
      !isBlank resourceDef.name && !isBlank resourceDef.validationRegEx).map fun resourceDef =>
        (resourceDef.name, resourceDef.validationRegEx))

def isValidResourceValues (resourceMap : AssocMap String RangerPolicyResource)
    (serviceDef : RangerServiceDef) : List ValidationFailureDetails :=
  resourceMap.entries.flatMap fun entry =>
    match (getValidationRegExes serviceDef).get? entry.1 with
    | none => []
    | some regEx =>
        (entry.2.values.filter fun aValue =>
          !isBlank aValue && !Platform.matchesRegEx aValue regEx).map fun aValue =>
            incorrectValue "resource-values" ("resources value[" ++ aValue ++
              "] does not match validation regex[" ++ regEx ++ "] defined on service-def[" ++
              serviceDef.name ++ "]") (some entry.1)

/-- The resources by their names in lower case. -/
def getPolicyResourceWithLowerCaseKeys (input : AssocMap String RangerPolicyResource) :
    AssocMap String RangerPolicyResource :=
  (∅ : AssocMap String RangerPolicyResource).putAll
    (input.entries.map fun entry => (Platform.lowerCase entry.1, entry.2))

/-- The flags of one level; only an administrator may ask for excludes. -/
def isValidFlags (resourceDef : RangerResourceDef) (resourceName : String)
    (policyResource : RangerPolicyResource) (isAdmin : Bool) : List ValidationFailureDetails :=
  (if policyResource.isExcludes && !resourceDef.excludesSupported then
    [incorrectValue "isExcludes" ("isExcludes specified as [true] for resource [" ++ resourceName ++
      "] which doesn't support isExcludes") (some resourceName)]
  else []) ++
  (if policyResource.isExcludes && !isAdmin then
    [incorrectValue "isExcludes" ("isExcludes specified as [true] for resource [" ++ resourceName ++
      "].  Insufficient permissions to create excludes policy.") (some "isAdmin")]
  else []) ++
  if policyResource.isRecursive && !resourceDef.recursiveSupported then
    [incorrectValue "isRecursive" ("isRecursive specified as [true] for resource [" ++
      resourceName ++ "] which doesn't support isRecursive") (some resourceName)]
  else []

def isValidResourceFlags (inputPolicyResources : AssocMap String RangerPolicyResource)
    (resourceDefs : List RangerResourceDef) (serviceDefName : String) (isAdmin : Bool) :
    List ValidationFailureDetails :=
  resourceDefs.flatMap fun resourceDef =>
    if isBlank resourceDef.name then
      [inconsistency (some "resource-def-name")
        ("name of a resource-def on resource def collection of service-def[" ++ serviceDefName ++
          "] was null")]
    else
      let resourceName := Platform.lowerCase resourceDef.name
      match (getPolicyResourceWithLowerCaseKeys inputPolicyResources).get? resourceName with
      | none => []
      | some policyResource => isValidFlags resourceDef resourceName policyResource isAdmin

end Resources

section Policy

variable [Platform] {σ : Type} [ServiceStore σ] (store : σ)

/-- A call whose exception the validator logs and takes for a missing answer. -/
def answer {α : Type} (call : Throws (Option α)) : Option α := (call.toOption).join

def getService (name : String) : Option RangerService :=
  answer (ServiceStore.getServiceByName store name)

def getServiceDef (type : String) : Option RangerServiceDef :=
  answer (ServiceStore.getServiceDefByName store type)

def getPolicy (id : Int) : Option RangerPolicy := answer (ServiceStore.getPolicy store id)

def getPolicies (serviceName policyName : String) : List RangerPolicy :=
  (ServiceStore.getPolicies store
    { serviceName := serviceName
      policyName := if isBlank policyName then "" else policyName }).toOption.getD []

/-- The other policies of the service do not have the resources of the policy. -/
def isPolicyResourceUnique (policy : RangerPolicy) (action : Action) (serviceName : String) :
    List ValidationFailureDetails :=
  match (getPolicies store serviceName "").find? fun otherPolicy =>
      !(otherPolicy.id == policy.id && action == .update) &&
        resourceSignature policy == resourceSignature otherPolicy with
  | none => []
  | some otherPolicy =>
      [incorrectValue "resources" ("found another policy[" ++ otherPolicy.name ++
        "] with matching resources[" ++
        mapText (otherPolicy.resources.entries.map fun entry => (entry.1, entry.2.toText)) ++ "]!")]

def isValidResources (policy : RangerPolicy) (action : Action) (isAdmin : Bool)
    (serviceDef : Option RangerServiceDef) : List ValidationFailureDetails :=
  (match serviceDef with
    | none => []
    | some serviceDef =>
        isValidResourceValues policy.resources serviceDef ++
          isValidResourceFlags policy.resources serviceDef.resources serviceDef.name isAdmin) ++
  if isBlank policy.service then [] else isPolicyResourceUnique store policy action policy.service

/-- The id of an updated policy is that of a stored one. -/
def isValidId (policy : RangerPolicy) (action : Action) : List ValidationFailureDetails :=
  if action = .update then
    match policy.id with
    | none => [missingValue "id" "policy id was null/empty/blank"]
    | some id =>
        match getPolicy store id with
        | none => [incorrectValue "id" ("no policy exists with id[" ++ toString id ++ "]")]
        | some _ => []
  else []

/-- A policy has a name that no other policy of its service has. -/
def isValidName (policy : RangerPolicy) (action : Action) : List ValidationFailureDetails :=
  if isBlank policy.name then
    [missingValue "name" ("policy name was null/empty/blank[" ++ policy.name ++ "]")]
  else
    match getPolicies store policy.service policy.name with
    | [] => []
    | [other] =>
        if action = .create then
          [incorrectValue "name" ("policy already exists with name[" ++ policy.name ++
            "]; its id is[" ++ ServiceDBStore.idText other ++ "]")]
        else if other.id = policy.id then []
        else
          [incorrectValue "id/name" ("id/name conflict: another policy already exists with name[" ++
            policy.name ++ "], its id is[" ++ ServiceDBStore.idText other ++ "]")]
    | _ :: _ :: _ =>
        [inconsistency none ("multiple policies found with the name[" ++ policy.name ++ "]")]

/-- The service of a policy exists. -/
def isValidService (policy : RangerPolicy) : List ValidationFailureDetails :=
  if isBlank policy.service then [missingValue "service" "service name was null/empty/blank"]
  else
    match getService store policy.service with
    | none => [incorrectValue "service" "service does not exist"]
    | some _ => []

/-- The definition the items and resources of a policy are checked against; an
unaudited policy without items is checked no further. -/
def checkedServiceDef (policy : RangerPolicy) : Option RangerServiceDef :=
  if policy.policyItems.isEmpty && !policy.isAuditEnabled then none
  else if isBlank policy.service then none
  else
    match getService store policy.service with
    | none => none
    | some service => getServiceDef store service.type

/-- The items of a policy, and the existence of the service definition. -/
def isValidContent (policy : RangerPolicy) : List ValidationFailureDetails :=
  if policy.policyItems.isEmpty && !policy.isAuditEnabled then
    [missingValue "policy items"
      "at least one policy item must be specified if audit isn't enabled"]
  else if isBlank policy.service || (getService store policy.service).isNone then []
  else
    match checkedServiceDef store policy with
    | none =>
        [inconsistency (some "policy service def") "Service def of policies service does not exist"]
    | some serviceDef => isValidPolicyItems policy.policyItems serviceDef

/-- The failures `isValid(RangerPolicy, ...)` reports. -/
def isValid (policy : RangerPolicy) (action : Action) (isAdmin : Bool) :
    List ValidationFailureDetails :=
  isValidId store policy action ++ isValidName store policy action ++
    isValidService store policy ++ isValidContent store policy ++
    isValidResources store policy action isAdmin (checkedServiceDef store policy)

/-- The failures `isValid(Long, ...)` reports. -/
def isValidToDelete (id : Option Int) : List ValidationFailureDetails :=
  match id with
  | none => [{ fieldName := some "id", missing := true }]
  | some number =>
      match getPolicy store number with
      | none => [incorrectValue "id" ("no policy found for id[" ++ toString number ++ "]")]
      | some _ => []

def serializeFailures (failures : List ValidationFailureDetails) : String :=
  String.join (failures.map fun failure => failure.toText ++ ";")

/-- Throw when there are failures. -/
def report (failures : List ValidationFailureDetails) : Throws Unit :=
  if failures = [] then .ok () else .error (some (serializeFailures failures))

/-- `validate(RangerPolicy, Action, boolean)`. -/
def validate (policy : RangerPolicy) (action : Action) (isAdmin : Bool) : Throws Unit :=
  if action = .delete then
    .error (some "isValid(RangerPolicy, ...) is only supported for create/update")
  else report (isValid store policy action isAdmin)

/-- `validate(Long, Action)`. -/
def validateId (id : Option Int) (action : Action) : Throws Unit :=
  if action = .delete then report (isValidToDelete store id)
  else report [inconsistency none "isValid(Long) is only supported for DELETE"]

end Policy

section Valid

variable [Platform] {σ : Type} [ServiceStore σ] {store : σ} {policy : RangerPolicy}
  {action : Action} {isAdmin : Bool}

/-- A valid policy is checked against the definition of its service. -/
theorem exists_checkedServiceDef_of_isValid (valid : isValid store policy action isAdmin = []) :
    ∃ serviceDef, checkedServiceDef store policy = some serviceDef := by
  obtain ⟨beforeResources, _⟩ := List.append_eq_nil_iff.mp valid
  obtain ⟨beforeContent, content⟩ := List.append_eq_nil_iff.mp beforeResources
  obtain ⟨_, service⟩ := List.append_eq_nil_iff.mp beforeContent
  unfold isValidContent at content
  split at content
  · cases content
  · split at content
    · next missing =>
        unfold isValidService at service
        split at service
        · cases service
        · next named =>
            cases found : getService store policy.service with
            | none => simp [found] at service
            | some _ => simp [named, found] at missing
    · cases checked : checkedServiceDef store policy with
      | none => simp [checked] at content
      | some serviceDef => exact ⟨serviceDef, rfl⟩

/-- No two levels of a resource map differ in letter case only. -/
def NamesApart (resources : AssocMap String RangerPolicyResource) : Prop :=
  ∀ first ∈ resources.keys, ∀ second ∈ resources.keys,
    Platform.lowerCase first = Platform.lowerCase second → first = second

theorem get?_getPolicyResourceWithLowerCaseKeys {resources : AssocMap String RangerPolicyResource}
    (apart : NamesApart resources) {name : String} {policyResource : RangerPolicyResource}
    (found : resources.get? name = some policyResource) :
    (getPolicyResourceWithLowerCaseKeys resources).get? (Platform.lowerCase name) =
      some policyResource := by
  have listed : (Platform.lowerCase name, policyResource) ∈
      resources.entries.map fun entry => (Platform.lowerCase entry.1, entry.2) :=
    List.mem_map.mpr ⟨_, AssocMap.mem_of_get?_eq_some found, rfl⟩
  obtain ⟨other, read⟩ := Option.isSome_iff_exists.mp (AssocMap.isSome_get?_putAll listed)
  obtain ⟨⟨otherName, _⟩, member, entry⟩ := List.mem_map.mp (AssocMap.mem_of_get?_putAll read)
  obtain ⟨lowered, rfl⟩ := Prod.mk.inj entry
  have same : otherName = name :=
    apart _ (List.mem_map.mpr ⟨_, member, rfl⟩) _
      (AssocMap.isSome_get?_iff.mp (by rw [found]; rfl)) lowered
  have here := AssocMap.get?_eq_some_iff.mpr member
  rw [same, found, Option.some.injEq] at here
  rw [here]
  exact read

/-- **Only administrators exclude.** A valid policy of another caller excludes
nothing at any level, unless one of its names hides another one. -/
theorem isExcludes_of_isValid {serviceDef : RangerServiceDef}
    (valid : isValid store policy action false = [])
    (checked : checkedServiceDef store policy = some serviceDef)
    (apart : NamesApart policy.resources) {resourceDef : RangerResourceDef}
    (level : resourceDef ∈ serviceDef.resources) {policyResource : RangerPolicyResource}
    (found : policy.resources.get? resourceDef.name = some policyResource) :
    policyResource.isExcludes = false := by
  have resources : isValidResources store policy action false (some serviceDef) = [] := by
    rw [← checked]
    exact (List.append_eq_nil_iff.mp valid).2
  have flags : isValidResourceFlags policy.resources serviceDef.resources serviceDef.name false =
      [] :=
    (List.append_eq_nil_iff.mp (List.append_eq_nil_iff.mp resources).1).2
  have here := List.flatMap_eq_nil_iff.mp flags resourceDef level
  by_cases blank : isBlank resourceDef.name
  · rw [if_pos blank] at here
    cases here
  · rw [if_neg blank] at here
    dsimp only at here
    rw [get?_getPolicyResourceWithLowerCaseKeys apart found] at here
    cases excludes : policyResource.isExcludes with
    | false => rfl
    | true => simp [isValidFlags, excludes] at here

end Valid

end RangerPolicyValidator

end Ranger

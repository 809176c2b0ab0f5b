import Ranger.Foundation.AssocMap
import Ranger.Platform

/-! # Service definitions, policies, requests and results

The data the policy engine reads and writes, under the names of the source. A
string field that the program treats alike when it is missing and when it is
empty is a plain string.
-/

namespace Ranger

open Foundation

/-- One level of the resources of a service type. -/
structure RangerResourceDef where
  name : String
  level : Int := 1
  mandatory : Bool := false
  recursiveSupported : Bool := false
  excludesSupported : Bool := false
  matcher : String := ""
  matcherOptions : AssocMap String String := ∅
  validationRegEx : String := ""

structure RangerAccessTypeDef where
  name : String
  impliedGrants : List String := []

structure RangerPolicyConditionDef where
  name : String
  evaluator : String := ""
  evaluatorOptions : AssocMap String String := ∅

structure RangerServiceDef where
  name : String
  resources : List RangerResourceDef
  accessTypes : List RangerAccessTypeDef
  policyConditions : List RangerPolicyConditionDef := []

/-- The values a policy names at one resource level. -/
structure RangerPolicyResource where
  values : List String
  isExcludes : Bool := false
  isRecursive : Bool := false
  deriving DecidableEq

structure RangerPolicyItemAccess where
  type : String
  isAllowed : Bool := true
  deriving DecidableEq

structure RangerPolicyItemCondition where
  type : String
  values : List String
  deriving DecidableEq

structure RangerPolicyItem where
  accesses : List RangerPolicyItemAccess := []
  users : List String := []
  groups : List String := []
  conditions : List RangerPolicyItemCondition := []
  delegateAdmin : Bool := false
  deriving DecidableEq

/-- A policy. Its id is missing until the store assigns one. -/
structure RangerPolicy where
  id : Option Int := none
  guid : String := ""
  version : Option Int := none
  isEnabled : Bool := true
  service : String := ""
  name : String := ""
  isAuditEnabled : Bool := true
  resources : AssocMap String RangerPolicyResource
  policyItems : List RangerPolicyItem

/-- The group every user belongs to. -/
def GROUP_PUBLIC : String := "public"

def ANY_ACCESS : String := "_any"

def ADMIN_ACCESS : String := "_admin"

def UNKNOWN_POLICY : Int := -1

def RESOURCE_SEP : String := "/"

/-- `RangerAccessResourceImpl`. A null resource is read everywhere like one whose
element map is null. -/
structure RangerAccessResource where
  elements : Option (AssocMap String (Option String)) := none

namespace RangerAccessResource

def «exists» (resource : RangerAccessResource) (name : String) : Bool :=
  match resource.elements with
  | none => false
  | some elements => elements.containsKey name

def getValue (resource : RangerAccessResource) (name : String) : Option String :=
  match resource.elements with
  | none => none
  | some elements => (elements.get? name).join

/-- The names of the elements, none for a null element map. -/
def getKeys (resource : RangerAccessResource) : List String :=
  match resource.elements with
  | none => []
  | some elements => elements.keys

/-- Null takes the element away, and the element map with its last one. -/
def setValue (resource : RangerAccessResource) (name : String) (value : Option String) :
    RangerAccessResource :=
  match value with
  | none =>
      match resource.elements with
      | none => resource
      | some elements =>
          let kept := elements.filterKeys (· != name)
          { resource with elements := if kept.isEmpty then none else some kept }
  | some text =>
      { resource with elements := some ((resource.elements.getD ∅).put name (some text)) }

theorem getValue_setValue (resource : RangerAccessResource) (name other text : String) :
    (resource.setValue name (some text)).getValue other =
      if other = name then some text else resource.getValue other := by
  unfold setValue getValue
  cases resource.elements with
  | none =>
      by_cases same : other = name
      · simp [AssocMap.get?_put, same]
      · simp [AssocMap.get?_put, same]
  | some elements =>
      by_cases same : other = name
      · simp [AssocMap.get?_put, same]
      · simp [AssocMap.get?_put, same]

theorem mem_getKeys_setValue {resource : RangerAccessResource} {name other text : String} :
    other ∈ (resource.setValue name (some text)).getKeys ↔
      other = name ∨ other ∈ resource.getKeys := by
  have written : other ∈ (resource.setValue name (some text)).getKeys ↔
      (((resource.elements.getD ∅).put name (some text)).get? other).isSome :=
    AssocMap.isSome_get?_iff.symm
  rw [written, AssocMap.get?_put]
  by_cases same : other = name
  · simp only [same, ↓reduceIte, Option.isSome_some, true_or]
  · rw [if_neg same, AssocMap.isSome_get?_iff]
    unfold getKeys
    cases resource.elements with
    | none => simp [same, AssocMap.keys, EmptyCollection.emptyCollection, AssocMap.empty]
    | some elements => simp [same]

/-- One turn of the loop in `getAsString`: the separator is written only behind
text, and a null value is written as its name. -/
def appendElement (resource : RangerAccessResource) (text : String)
    (resourceDef : RangerResourceDef) : String :=
  if resource.exists resourceDef.name then
    (if text.isEmpty then text else text ++ RESOURCE_SEP) ++
      (resource.getValue resourceDef.name).getD "null"
  else text

/-- The values of the elements joined in the order of the service definition,
null when nothing was written. -/
def getAsString (resource : RangerAccessResource) (serviceDef : RangerServiceDef) :
    Option String :=
  let text := serviceDef.resources.foldl resource.appendElement ""
  if text.isEmpty then none else some text

end RangerAccessResource

/-- An access request. -/
structure RangerAccessRequest where
  resource : RangerAccessResource
  accessType : String
  user : Option String
  userGroups : List String := []
  clientIPAddress : Option String := none
  context : AssocMap String String := ∅

namespace RangerAccessRequest

/-- The access type a request carries after `setAccessType`. -/
def setAccessType (accessType : String) : String :=
  if accessType.isEmpty then ANY_ACCESS else accessType

/-- `RangerAccessRequestImpl(resource, accessType, user, userGroups)`. -/
def create (resource : RangerAccessResource) (accessType : String) (user : Option String)
    (userGroups : List String) : RangerAccessRequest where
  resource := resource
  accessType := setAccessType accessType
  user := user
  userGroups := userGroups

def isAccessTypeAny (request : RangerAccessRequest) : Bool := request.accessType == ANY_ACCESS

def isAccessTypeDelegatedAdmin (request : RangerAccessRequest) : Bool :=
  request.accessType == ADMIN_ACCESS

end RangerAccessRequest

structure RangerAccessResult where
  isAccessDetermined : Bool := false
  isAllowed : Bool := false
  isAuditedDetermined : Bool := false
  isAudited : Bool := false
  policyId : Int := UNKNOWN_POLICY
  deriving DecidableEq

namespace RangerAccessResult

def setIsAllowed (result : RangerAccessResult) (isAllowed : Bool) : RangerAccessResult :=
  { result with isAccessDetermined := true, isAllowed := isAllowed }

def setIsAudited (result : RangerAccessResult) (isAudited : Bool) : RangerAccessResult :=
  { result with isAuditedDetermined := true, isAudited := isAudited }

/-- A stored policy has an id; one without leaves the unknown one. -/
def setPolicyId (result : RangerAccessResult) (policyId : Option Int) : RangerAccessResult :=
  { result with policyId := policyId.getD UNKNOWN_POLICY }

@[simp] theorem setIsAllowed_isAccessDetermined (result : RangerAccessResult) (value : Bool) :
    (result.setIsAllowed value).isAccessDetermined = true := rfl

@[simp] theorem setIsAllowed_isAllowed (result : RangerAccessResult) (value : Bool) :
    (result.setIsAllowed value).isAllowed = value := rfl

@[simp] theorem setIsAllowed_isAuditedDetermined (result : RangerAccessResult) (value : Bool) :
    (result.setIsAllowed value).isAuditedDetermined = result.isAuditedDetermined := rfl

@[simp] theorem setIsAllowed_isAudited (result : RangerAccessResult) (value : Bool) :
    (result.setIsAllowed value).isAudited = result.isAudited := rfl

@[simp] theorem setIsAudited_isAccessDetermined (result : RangerAccessResult) (value : Bool) :
    (result.setIsAudited value).isAccessDetermined = result.isAccessDetermined := rfl

@[simp] theorem setIsAudited_isAllowed (result : RangerAccessResult) (value : Bool) :
    (result.setIsAudited value).isAllowed = result.isAllowed := rfl

@[simp] theorem setIsAudited_isAuditedDetermined (result : RangerAccessResult) (value : Bool) :
    (result.setIsAudited value).isAuditedDetermined = true := rfl

@[simp] theorem setIsAudited_isAudited (result : RangerAccessResult) (value : Bool) :
    (result.setIsAudited value).isAudited = value := rfl

@[simp] theorem setPolicyId_isAccessDetermined (result : RangerAccessResult) (id : Option Int) :
    (result.setPolicyId id).isAccessDetermined = result.isAccessDetermined := rfl

@[simp] theorem setPolicyId_isAllowed (result : RangerAccessResult) (id : Option Int) :
    (result.setPolicyId id).isAllowed = result.isAllowed := rfl

@[simp] theorem setPolicyId_isAuditedDetermined (result : RangerAccessResult) (id : Option Int) :
    (result.setPolicyId id).isAuditedDetermined = result.isAuditedDetermined := rfl

@[simp] theorem setPolicyId_isAudited (result : RangerAccessResult) (id : Option Int) :
    (result.setPolicyId id).isAudited = result.isAudited := rfl

end RangerAccessResult

/-- `RangerBasePlugin.isAccessAllowed`, null while no policy engine is loaded. -/
abbrev Authorizer := RangerAccessRequest → Option RangerAccessResult

end Ranger

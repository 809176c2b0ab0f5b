import Ranger.PolicyEngine.Engine

/-! # The store of service types, services and policies

What the policy administration asks of a store, and the store kept in a
database. The tables of the database are lists in the order of their ids; a
failed call leaves them as they were.
-/

namespace Ranger

open Foundation

/-- A service, with its type by name. -/
structure RangerService where
  id : Int
  name : String
  type : String
  policyVersion : Option Int := none

/-- The parameters of a search for policies; an empty one is not set. -/
structure SearchFilter where
  serviceName : String := ""
  policyName : String := ""

/-- The outcome of a call that may throw, failing with the message of the
exception if it has one. -/
abbrev Throws (α : Type) := Except (Option String) α

/-- The calls of the `ServiceStore` interface that edit and read policies. -/
class ServiceStore (σ : Type) where
  getServiceDefByName : σ → String → Throws (Option RangerServiceDef)
  getServiceByName : σ → String → Throws (Option RangerService)
  getPolicy : σ → Int → Throws (Option RangerPolicy)
  getPolicies : σ → SearchFilter → Throws (List RangerPolicy)
  getServicePoliciesIfUpdated : σ → String → Int → Throws (Option ServicePolicies)
  createPolicy : σ → RangerPolicy → Throws (RangerPolicy × σ)
  updatePolicy : σ → RangerPolicy → Throws (RangerPolicy × σ)
  deletePolicy : σ → Int → Throws σ

/-- The version that is written over one that was read, of a service or a policy. -/
def nextPolicyVersion : Option Int → Int
  | none => 1
  | some policyVersion => policyVersion + 1

/-- The tables of `ServiceDBStore`, with the policies as they are read back. -/
structure ServiceDBStore where
  serviceDefs : List RangerServiceDef
  services : List RangerService
  policies : List RangerPolicy
  users : List String
  groups : List String
  nextPolicyId : Int

namespace ServiceDBStore

section Rows

variable (store : ServiceDBStore)

def findServiceDef (name : String) : Option RangerServiceDef :=
  store.serviceDefs.find? (·.name == name)

def findService (name : String) : Option RangerService := store.services.find? (·.name == name)

def findPolicy (id : Option Int) : Option RangerPolicy :=
  store.policies.find? fun policy => policy.id.isSome && policy.id == id

/-- `XXPolicyDao.findByNameAndServiceId`. -/
def findByNameAndService (policyName serviceName : String) : Option RangerPolicy :=
  store.policies.find? fun policy => policy.name == policyName && policy.service == serviceName

/-- `createNewResourcesForPolicy`: resources the service type does not define are dropped. -/
def storedResources (serviceDef : RangerServiceDef)
    (resources : AssocMap String RangerPolicyResource) : AssocMap String RangerPolicyResource :=
  resources.filterKeys fun name => serviceDef.resources.any (·.name == name)

/-- The conditions of an item as they are read back: those of one type share
their values, ordered by their places, and come once for every value. -/
def storedConditions (serviceDef : RangerServiceDef)
    (conditions : List RangerPolicyItemCondition) : List RangerPolicyItemCondition :=
  serviceDef.policyConditions.flatMap fun conditionDef =>
    let placed := (conditions.filter (·.type == conditionDef.name)).flatMap (·.values.zipIdx)
    let values := (placed.insertionSort fun first second => first.2 ≤ second.2).map (·.1)
    values.map fun _ => ⟨conditionDef.name, values⟩

/-- `createNewPolicyItemsForPolicy`, for one item: access types and conditions the
service type does not define, and unknown users and groups, are dropped. -/
def storedItem (serviceDef : RangerServiceDef) (policyItem : RangerPolicyItem) :
    RangerPolicyItem where
  accesses := policyItem.accesses.filter fun access =>
    serviceDef.accessTypes.any (·.name == access.type)
  users := policyItem.users.filter store.users.contains
  groups := policyItem.groups.filter store.groups.contains
  conditions := storedConditions serviceDef policyItem.conditions
  delegateAdmin := policyItem.delegateAdmin

/-- `updatePolicyVersion`. -/
def updatePolicyVersion (service : RangerService) : ServiceDBStore :=
  { store with
    services := store.services.map fun row =>
      if row.id = service.id then
        { row with
          policyVersion := some (match service.policyVersion with
            | none => 1
            | some policyVersion => policyVersion + 1) }
      else row }

/-- The service of a policy and the definition of its type. -/
def serviceOf (policy : RangerPolicy) : Throws (RangerService × RangerServiceDef) :=
  match store.findService policy.service with
  | none => .error (some ("service does not exist - name=" ++ policy.service))
  | some service =>
      match store.findServiceDef service.type with
      | none => .error (some ("service-def does not exist - name=" ++ service.type))
      | some serviceDef => .ok (service, serviceDef)

/-- The text of an id in a message. -/
def idText (policy : RangerPolicy) : String :=
  match policy.id with
  | none => "null"
  | some id => toString id

/-- The policy with its resources and items as they are read back. -/
def stored (serviceDef : RangerServiceDef) (policy : RangerPolicy) : RangerPolicy :=
  { policy with
    resources := storedResources serviceDef policy.resources
    policyItems := policy.policyItems.map (store.storedItem serviceDef) }

end Rows

section Calls

variable [Platform] (store : ServiceDBStore)

def getPolicy (id : Int) : Throws (Option RangerPolicy) :=
  match store.findPolicy (some id) with
  | none => .error none
  | some policy => .ok (some policy)

def createPolicy (policy : RangerPolicy) : Throws (RangerPolicy × ServiceDBStore) := do
  let (service, serviceDef) ← store.serviceOf policy
  match store.findByNameAndService policy.name service.name with
  | some existing =>
      .error (some ("policy already exists: ServiceName=" ++ policy.service ++ "; PolicyName=" ++
        policy.name ++ ". ID=" ++ idText existing))
  | none =>
      let created := store.stored serviceDef
        { policy with id := some store.nextPolicyId, version := some 1 }
      .ok (created, updatePolicyVersion
        { store with
          policies := store.policies ++ [created]
          nextPolicyId := store.nextPolicyId + 1 }
        service)

/-- The test of a search parameter: the query compares in lower case, the
predicate of `applyFilter` letter by letter. -/
def passes (param value : String) : Bool :=
  param.isEmpty ||
    (Platform.lowerCase value == Platform.lowerCase (trim param) && param == value)

def getPolicies (filter : SearchFilter) : List RangerPolicy :=
  store.policies.filter fun policy =>
    passes filter.serviceName policy.service && passes filter.policyName policy.name

def getServicePoliciesIfUpdated (serviceName : String) (lastKnownVersion : Int) :
    Throws (Option ServicePolicies) :=
  match store.findService serviceName with
  | none => .error (some ("service does not exist. name=" ++ serviceName))
  | some service =>
      if service.policyVersion = some lastKnownVersion then .ok none
      else
        match store.findServiceDef service.type with
        | none => .error (some ("service-def does not exist. id=" ++ service.type))
        | some serviceDef =>
            .ok (some
              { serviceName := service.name
                serviceDef := serviceDef
                policies := store.getPolicies { serviceName := serviceName }
                policyVersion := service.policyVersion })

/-- A policy keeps its service, up to letter case, and takes no name in use. -/
def updatePolicy (policy : RangerPolicy) : Throws (RangerPolicy × ServiceDBStore) :=
  match store.findPolicy policy.id with
  | none => .error none
  | some existing => do
      let (service, serviceDef) ← store.serviceOf policy
      if !equalsIgnoreCase existing.service policy.service then
        .error (some ("policy id=" ++ idText policy ++ " already exists in service " ++
          existing.service ++ ". It can not be moved to service " ++ policy.service))
      else
        let renamed := !equalsIgnoreCase policy.name existing.name
        match (if renamed then store.findByNameAndService policy.name service.name else none) with
        | some newNamePolicy =>
            .error (some ("another policy already exists with name '" ++ policy.name ++ "'. ID=" ++
              idText newNamePolicy))
        | none =>
            let updated := store.stored serviceDef
              { policy with
                version := some (match policy.version with
                  | none => 1
                  | some version => version + 1) }
            .ok (updated, updatePolicyVersion
              { store with
                policies := store.policies.map fun row =>
                  if row.id = policy.id then updated else row }
              service)

def deletePolicy (id : Int) : Throws ServiceDBStore := do
  match ← store.getPolicy id with
  | none => .error (some ("no policy exists with ID=" ++ toString id))
  | some policy =>
      match store.findService policy.service with
      | none => .error (some ("service does not exist - name='" ++ policy.service))
      | some service =>
          .ok (updatePolicyVersion
            { store with policies := store.policies.filter (·.id != some id) } service)

end Calls

instance [Platform] : ServiceStore ServiceDBStore where
  getServiceDefByName store name := .ok (store.findServiceDef name)
  getServiceByName store name := .ok (store.findService name)
  getPolicy := getPolicy
  getPolicies store filter := .ok (store.getPolicies filter)
  getServicePoliciesIfUpdated := getServicePoliciesIfUpdated
  createPolicy := createPolicy
  updatePolicy := updatePolicy
  deletePolicy := deletePolicy

end ServiceDBStore

end Ranger

import Ranger.Admin.ServiceDefUpdate
import Ranger.Foundation.Run

/-! # Service types, services and policies under their ids

The rows the calls of `ServiceDBStore` create, update and delete, and what a client
downloads of them. A policy refers to its service by id and a service to its type, so
that renaming one is seen wherever it is read. The rows of the resources and items of
a policy are one value of any type.
-/

namespace Ranger

open Foundation

/-- A service as it is stored. -/
structure XXService where
  name : String
  type : Int
  policyVersion : Option Int := none
  deriving DecidableEq

/-- A policy as it is stored. -/
structure XXPolicy (β : Type) where
  service : Int
  name : String
  content : β

/-- A policy as it is given to be stored, with its service by name. -/
structure GivenPolicy (β : Type) where
  id : Option Int := none
  service : String
  name : String
  content : β

/-- The policies of a service and its type, as a client downloads them. -/
structure ServiceDownload (δ β : Type) where
  serviceName : String
  policyVersion : Option Int
  policies : List (Int × String × β)
  serviceDef : Int × XXServiceDef δ

structure ServiceRows (δ β : Type) where
  serviceDefs : Table (XXServiceDef δ) := Table.empty
  services : Table XXService := Table.empty
  policies : Table (XXPolicy β) := Table.empty

/-- A `long` plus one. -/
def longSucc (value : Int) : Int :=
  if value = 9223372036854775807 then -9223372036854775808 else value + 1

/-- The version `updatePolicyVersion` writes over another one. -/
def bumped : Option Int → Int
  | none => 1
  | some policyVersion => longSucc policyVersion

namespace ServiceRows

variable {δ β : Type} (rows : ServiceRows δ β)

/-- `XXServiceDao.findByName`. -/
def findService (name : String) : Option (Int × XXService) := rows.services.find? (·.name == name)

/-- `XXServiceDefDao.findByName`. -/
def findServiceDef (name : String) : Option (Int × XXServiceDef δ) :=
  rows.serviceDefs.find? (·.name == name)

def updatePolicyVersion (id : Int) : ServiceRows δ β :=
  match rows.services.get? id with
  | none => rows
  | some service =>
      { rows with
        services :=
          rows.services.replace id
            { service with policyVersion := some (bumped service.policyVersion) } }

section Policies

def createPolicy (policy : GivenPolicy β) : Throws (ServiceRows δ β) :=
  match rows.findService policy.service with
  | none => .error (some ("service does not exist - name=" ++ policy.service))
  | some (id, service) =>
      match rows.serviceDefs.get? service.type with
      | none => .error none
      | some _ =>
          match rows.policies.find? fun row => row.name == policy.name && row.service == id with
          | some (existing, _) =>
              .error (some ("policy already exists: ServiceName=" ++ policy.service ++
                "; PolicyName=" ++ policy.name ++ ". ID=" ++ toString existing))
          | none =>
              .ok (updatePolicyVersion
                { rows with policies := rows.policies.insert ⟨id, policy.name, policy.content⟩ } id)

/-- The service and the row of a policy that is stored. -/
def readPolicy (id : Option Int) : Throws (Int × XXPolicy β × XXService) :=
  match id with
  | none => .error none
  | some id =>
      match rows.policies.get? id with
      | none => .error none
      | some row =>
          match rows.services.get? row.service with
          | none => .error none
          | some service => .ok (id, row, service)

def updatePolicy [Platform] (policy : GivenPolicy β) : Throws (ServiceRows δ β) := do
  let (id, row, existing) ← rows.readPolicy policy.id
  match rows.findService policy.service with
  | none => .error (some ("service does not exist - name=" ++ policy.service))
  | some (serviceId, service) =>
      match rows.serviceDefs.get? service.type with
      | none => .error none
      | some _ =>
          if !equalsIgnoreCase existing.name policy.service then
            .error (some ("policy id=" ++ toString id ++ " already exists in service " ++
              existing.name ++ ". It can not be moved to service " ++ policy.service))
          else
            let renamed := !equalsIgnoreCase policy.name row.name
            match (if renamed then
              rows.policies.find? fun other =>
                other.name == policy.name && other.service == serviceId else none) with
            | some (other, _) =>
                .error (some ("another policy already exists with name '" ++ policy.name ++
                  "'. ID=" ++ toString other))
            | none =>
                .ok (updatePolicyVersion
                  { rows with
                    policies := rows.policies.replace id ⟨serviceId, policy.name, policy.content⟩ }
                  serviceId)

def deletePolicy (policyId : Int) : Throws (ServiceRows δ β) := do
  let (id, _, service) ← rows.readPolicy (some policyId)
  match rows.findService service.name with
  | none => .error (some ("service does not exist - name='" ++ service.name))
  | some (serviceId, _) =>
      .ok (updatePolicyVersion { rows with policies := rows.policies.remove id } serviceId)

end Policies

section Services

/-- `createService`, which adds a policy of its own; `time` is when it is called. The
policy version is the caller's. -/
def createService (service : RangerService) (time : String) (defaultPolicy : β) :
    Throws (ServiceRows δ β) :=
  match rows.findServiceDef service.type with
  | none => .error (some ("No ServiceDefinition found with name :" ++ service.type))
  | some (type, _) =>
      -- the name of a service is a unique key
      match rows.findService service.name with
      | some _ => .error none
      | none =>
          createPolicy
            { rows with
              services := rows.services.insert ⟨service.name, type, service.policyVersion⟩ }
            { service := service.name
              name := service.name ++ "-1-" ++ time
              content := defaultPolicy }

/-- `updateService`. The policy version is the caller's. -/
def updateService [Platform] (service : RangerService) : Throws (ServiceRows δ β) :=
  match rows.services.get? service.id with
  | none => .error (some ("no service exists with ID=" ++ toString service.id))
  | some existing =>
      let renamed := !equalsIgnoreCase service.name existing.name
      match (if renamed then rows.findService service.name else none) with
      | some (other, _) =>
          .error (some ("another service already exists with name '" ++ service.name ++
            "'. ID=" ++ toString other))
      | none =>
          match rows.findServiceDef service.type with
          | none => .error (some ("No ServiceDefinition found with name :" ++ service.type))
          | some (type, _) =>
              -- the name of a service is a unique key
              if service.name ≠ existing.name ∧ (rows.findService service.name).isSome then
                .error none
              else
                .ok
                  { rows with
                    services :=
                      rows.services.replace service.id
                        ⟨service.name, type, service.policyVersion⟩ }

/-- `XXPolicyDao.findByServiceId`. -/
def policiesOf (service : Int) : List Int :=
  (rows.policies.rows.entries.filter (·.2.service == service)).map (·.1)

/-- `XXServiceDao.findByServiceDefId`. -/
def servicesOf (type : Int) : List Int :=
  (rows.services.rows.entries.filter (·.2.type == type)).map (·.1)

def deleteService (id : Int) : Throws (ServiceRows δ β) :=
  match rows.services.get? id with
  | none => .error none
  | some _ => do
      let rows ← (rows.policiesOf id).foldlM deletePolicy rows
      .ok { rows with services := rows.services.remove id }

end Services

section ServiceDefs

def createServiceDef (serviceDef : ServiceDef δ) : Throws (ServiceRows δ β) :=
  (ServiceDefUpdate.createServiceDef rows.serviceDefs serviceDef).map fun serviceDefs =>
    { rows with serviceDefs := serviceDefs }

/-- `updateServiceDef`, with the ids of children that policies refer to and with what the
deletion of children takes from the rows of a policy. -/
def updateServiceDef [Platform] (references : PolicyReferences) (cascade : β → β)
    (serviceDef : ServiceDef δ) : Throws (ServiceRows δ β) :=
  (ServiceDefUpdate.updateServiceDef rows.serviceDefs references serviceDef).map fun updated =>
    { rows with
      serviceDefs := updated.1
      policies := rows.policies.mapRows fun row =>
        if (rows.services.get? row.service).any fun service => some service.type == serviceDef.id
        then { row with content := cascade row.content }
        else row }

/-- `deleteServiceDef`. The children and the rows of policies that refer to them go
with the type and its services. -/
def deleteServiceDef (id : Int) (forceDelete : Bool) : Throws (ServiceRows δ β) :=
  match rows.serviceDefs.get? id with
  | none => .error none
  | some serviceDef =>
      if !forceDelete && !(rows.servicesOf id).isEmpty then
        .error (some ("Services exists under given service definition, can't delete Service-Def: " ++
          serviceDef.name))
      else do
        let rows ← (rows.servicesOf id).foldlM deleteService rows
        .ok { rows with serviceDefs := rows.serviceDefs.remove id }

end ServiceDefs

section Download

variable [Platform]

/-- The policies a search by the name of a service finds. -/
def getServicePolicies (serviceName : String) : List (Int × String × β) :=
  rows.policies.rows.entries.filterMap fun (id, row) =>
    if (rows.services.get? row.service).any fun service =>
      ServiceDBStore.passes serviceName service.name
    then some (id, row.name, row.content)
    else none

def getServicePoliciesIfUpdated (serviceName : String) (lastKnownVersion : Option Int) :
    Throws (Option (ServiceDownload δ β)) :=
  match rows.findService serviceName with
  | none => .error (some ("service does not exist. name=" ++ serviceName))
  | some (_, service) =>
      if lastKnownVersion.isSome ∧ service.policyVersion = lastKnownVersion then .ok none
      else
        match rows.serviceDefs.get? service.type with
        | none => .error (some ("service-def does not exist. id=" ++ toString service.type))
        | some serviceDef =>
            .ok (some
              { serviceName := serviceName
                policyVersion := service.policyVersion
                policies := rows.getServicePolicies serviceName
                serviceDef := (service.type, serviceDef) })

end Download

end ServiceRows

/-- The calls of the store that create, update and delete. -/
inductive StoreCall (δ β : Type) where
  | createServiceDef (serviceDef : ServiceDef δ)
  | updateServiceDef (references : PolicyReferences) (cascade : β → β) (serviceDef : ServiceDef δ)
  | deleteServiceDef (id : Int) (forceDelete : Bool)
  | createService (service : RangerService) (time : String) (defaultPolicy : β)
  | updateService (service : RangerService)
  | deleteService (id : Int)
  | createPolicy (policy : GivenPolicy β)
  | updatePolicy (policy : GivenPolicy β)
  | deletePolicy (id : Int)

/-- What happens to the store: a call, or a client that asks for the policies of a
service with the version it holds. -/
inductive StoreEvent (δ β : Type) where
  | call (call : StoreCall δ β)
  | download (serviceName : String) (lastKnownVersion : Option Int)

/-- The store with all that was downloaded from it so far. -/
structure StoreHistory (δ β : Type) where
  rows : ServiceRows δ β := {}
  downloads : List (ServiceDownload δ β) := []

namespace StoreHistory

variable {δ β : Type} [Platform]

def perform (rows : ServiceRows δ β) : StoreCall δ β → Throws (ServiceRows δ β)
  | .createServiceDef serviceDef => rows.createServiceDef serviceDef
  | .updateServiceDef references cascade serviceDef =>
      rows.updateServiceDef references cascade serviceDef
  | .deleteServiceDef id forceDelete => rows.deleteServiceDef id forceDelete
  | .createService service time defaultPolicy => rows.createService service time defaultPolicy
  | .updateService service => rows.updateService service
  | .deleteService id => rows.deleteService id
  | .createPolicy policy => rows.createPolicy policy
  | .updatePolicy policy => rows.updatePolicy policy
  | .deletePolicy id => rows.deletePolicy id

/-- A call that fails leaves the rows as they are. -/
def step (history : StoreHistory δ β) : StoreEvent δ β → StoreHistory δ β
  | .call call =>
      { history with rows := Outcome.getState history.rows (perform history.rows call) }
  | .download serviceName lastKnownVersion =>
      match history.rows.getServicePoliciesIfUpdated serviceName lastKnownVersion with
      | .ok (some download) => { history with downloads := history.downloads ++ [download] }
      | _ => history

/-- The store after a run of events. -/
def run (events : List (StoreEvent δ β)) : StoreHistory δ β :=
  Run.final (fun history event => ((), step history event)) {} events

end StoreHistory

end Ranger

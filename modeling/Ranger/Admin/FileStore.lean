import Ranger.Admin.ServiceStore
import Ranger.Foundation.Outcome
import Ranger.Foundation.Run

/-! # The store of services and policies in files

`ServiceFileStore` keeps one file for each service, named by its id, and one for
each policy, named by the ids of a service and of the policy. A policy refers to
its service by name.
-/

namespace Ranger

open Foundation

/-- A service as its file holds it, with the fields the store copies only. -/
structure FileService (α : Type) where
  id : Int := 0
  name : Option String
  version : Option Int := none
  policyVersion : Option Int := none
  content : α

/-- A policy as its file holds it, with the fields the store copies only. -/
structure FilePolicy (β : Type) where
  id : Int := 0
  service : Option String
  name : Option String
  version : Option Int := none
  content : β

/-- `StringUtils.equalsIgnoreCase`, of strings that may be missing. -/
def equalsIgnoreCaseValue [Platform] : Option String → Option String → Bool
  | none, none => true
  | some first, some second => equalsIgnoreCase first second
  | _, _ => false

theorem equalsIgnoreCaseValue_refl [Platform] (text : Option String) :
    equalsIgnoreCaseValue text text = true := by
  cases text with
  | none => rfl
  | some text => exact equalsIgnoreCase_refl text

/-- The version after `preUpdate`, and the policy version after `handlePolicyUpdate`. -/
def nextVersion : Option Int → Int
  | none => 1
  | some version => version + 1

/-- The text of a string in a message. -/
def valueText (text : Option String) : String := text.getD "null"

/-- The directory: the files of the services by id, those of the policies by the ids
of service and policy, and the id the next service is to get. -/
structure ServiceFileStore (α β : Type) where
  services : AssocMap Int (FileService α) := ∅
  policies : AssocMap (Int × Int) (FilePolicy β) := ∅
  nextServiceId : Int := 0

namespace ServiceFileStore

variable {α β : Type} (store : ServiceFileStore α β)

def getMaxId (ids : List Int) : Int := ids.foldl max (-1)

def getAllServices : List (FileService α) :=
  (store.services.entries.map (·.2)).insertionSort fun first second => first.id ≤ second.id

def getAllPolicies : List (FilePolicy β) :=
  (store.policies.entries.map (·.2)).insertionSort fun first second => first.id ≤ second.id

/-- The test of a search parameter; a missing or empty one is not set. -/
def passesParam (param value : Option String) : Bool := isEmptyValue param || param == value

def getService (id : Int) : Option (FileService α) := store.services.get? id

/-- The first service under a name; an empty name filters nothing. -/
def getServiceByName (name : Option String) : Option (FileService α) :=
  if name.isSome then
    store.getAllServices.find? fun service => passesParam name service.name
  else none

/-- Reading the services by name renews the next id. -/
def loadServices (name : Option String) : ServiceFileStore α β :=
  if name.isSome then
    { store with nextServiceId := getMaxId (store.getAllServices.map (·.id)) + 1 }
  else store

def getPolicies (serviceName policyName : Option String) : List (FilePolicy β) :=
  store.getAllPolicies.filter fun policy =>
    passesParam serviceName policy.service && passesParam policyName policy.name

def getPolicy (id : Int) : Option (FilePolicy β) := store.getAllPolicies.find? (·.id == id)

def getServicePolicies (serviceName : Option String) : List (FilePolicy β) :=
  store.getPolicies serviceName none

def findPolicyByName (serviceName policyName : Option String) : Throws (Option (FilePolicy β)) :=
  match store.getServiceByName serviceName with
  | none => .error (some ("service does not exist - name='" ++ valueText serviceName))
  | some _ => .ok (store.getPolicies serviceName policyName).head?

/-- `handlePolicyUpdate`: the service object is written back with the next policy
version. -/
def handlePolicyUpdate (service : FileService α) : ServiceFileStore α β :=
  { store with
    services := store.services.put service.id
      { service with policyVersion := some (nextVersion service.policyVersion) } }

def createService (service : FileService α) : Throws (FileService α × ServiceFileStore α β) :=
  match store.getServiceByName service.name with
  | some existing =>
      .error (some ("service already exists - '" ++ valueText service.name ++ "'. ID=" ++
        toString existing.id))
  | none =>
      let loaded := store.loadServices service.name
      let created := { service with
        id := loaded.nextServiceId
        version := some 1
        policyVersion := some 0 }
      -- the file is not overwritten
      if loaded.services.containsKey created.id then
        .error (some ("failed to save service '" ++ valueText service.name ++ "'"))
      else
        .ok (created,
          { loaded with
            services := loaded.services.put created.id created
            nextServiceId := loaded.nextServiceId + 1 })

def createPolicy (policy : FilePolicy β) : Throws (FilePolicy β × ServiceFileStore α β) :=
  match store.getServiceByName policy.service with
  | none => .error (some ("service does not exist - name=" ++ valueText policy.service))
  | some service => do
      match ← store.findPolicyByName policy.service policy.name with
      | some existing =>
          .error (some ("policy already exists: ServiceName=" ++ valueText policy.service ++
            "; PolicyName=" ++ valueText policy.name ++ ". ID=" ++ toString existing.id))
      | none =>
          let created := { policy with
            id := getMaxId (store.getAllPolicies.map (·.id)) + 1
            version := some 1 }
          -- the file is not overwritten
          if store.policies.containsKey (service.id, created.id) then
            .error (some ("failed to save policy: ServiceName=" ++ valueText policy.service ++
              "; PolicyName=" ++ valueText policy.name))
          else
            .ok (created, handlePolicyUpdate
              { store.loadServices policy.service with
                policies := store.policies.put (service.id, created.id) created }
              service)

def deletePolicy (id : Int) : Throws (ServiceFileStore α β) :=
  match store.getPolicy id with
  | none => .error (some ("no policy exists with ID=" ++ toString id))
  | some existing =>
      match store.getServiceByName existing.service with
      | none => .error (some ("service does not exist - name='" ++ valueText existing.service))
      | some service =>
          .ok (handlePolicyUpdate
            { store.loadServices existing.service with
              policies := store.policies.filterKeys (· ≠ (service.id, existing.id)) }
            service)

/-- The files of the policies of a service go, for the name the service has. -/
def handleServiceDelete (service : FileService α) : ServiceFileStore α β :=
  let deleted := store.getAllPolicies.filter fun policy => policy.service == service.name
  { store with
    policies := store.policies.filterKeys fun key =>
      key ∉ deleted.map fun policy => (service.id, policy.id) }

def deleteService (id : Int) : Throws (ServiceFileStore α β) :=
  match store.getService id with
  | none => .error (some ("no service exists with ID=" ++ toString id))
  | some existing =>
      let deleted := store.handleServiceDelete existing
      .ok { deleted with services := deleted.services.filterKeys (· ≠ id) }

section Case

variable [Platform]

/-- Every policy under the old name, letter case aside, is written to a file of the
service under the new one. -/
def handleServiceRename (service : FileService α) (oldName : Option String) :
    ServiceFileStore α β :=
  let renamed := store.getAllPolicies.filter fun policy =>
    equalsIgnoreCaseValue policy.service oldName
  { store with
    policies := store.policies.putAll <| renamed.map fun policy =>
      ((service.id, policy.id),
        { policy with
          service := service.name
          version := some (nextVersion policy.version) }) }

def updateService (service : FileService α) : Throws (FileService α × ServiceFileStore α β) :=
  match store.getService service.id with
  | none => .error (some ("no service exists with ID=" ++ toString service.id))
  | some existing =>
      let renamed := !equalsIgnoreCaseValue service.name existing.name
      match (if renamed then store.getServiceByName service.name else none) with
      | some newNameService =>
          .error (some ("another service already exists with name '" ++ valueText service.name ++
            "'. ID=" ++ toString newNameService.id))
      | none =>
          let loaded := if renamed then store.loadServices service.name else store
          let updated := { existing with
            name := service.name
            content := service.content
            version := some (nextVersion existing.version) }
          let saved := { loaded with services := loaded.services.put updated.id updated }
          .ok (updated, if renamed then saved.handleServiceRename updated existing.name else saved)

def updatePolicy (policy : FilePolicy β) : Throws (FilePolicy β × ServiceFileStore α β) :=
  match store.getPolicy policy.id with
  | none => .error (some ("no policy exists with ID=" ++ toString policy.id))
  | some existing =>
      match store.getServiceByName policy.service with
      | none => .error (some ("service does not exist - name=" ++ valueText policy.service))
      | some service =>
          if !equalsIgnoreCaseValue existing.service policy.service then
            .error (some ("policy id=" ++ toString policy.id ++ " already exists in service " ++
              valueText existing.service ++ ". It can not be moved to service " ++
              valueText policy.service))
          else do
            let renamed := !equalsIgnoreCaseValue policy.name existing.name
            match ← (if renamed then store.findPolicyByName service.name policy.name
                else .ok none) with
            | some newNamePolicy =>
                .error (some ("another policy already exists with name '" ++
                  valueText policy.name ++ "'. ID=" ++ toString newNamePolicy.id))
            | none =>
                let updated := { existing with
                  service := policy.service
                  name := policy.name
                  content := policy.content
                  version := some (nextVersion existing.version) }
                .ok (updated, handlePolicyUpdate
                  { store.loadServices policy.service with
                    policies := store.policies.put (service.id, updated.id) updated }
                  service)

/-- The calls that change services and policies. -/
inductive Call (α β : Type) where
  | createService (service : FileService α)
  | updateService (service : FileService α)
  | deleteService (id : Int)
  | createPolicy (policy : FilePolicy β)
  | updatePolicy (policy : FilePolicy β)
  | deletePolicy (id : Int)

def perform : Call α β → Throws (ServiceFileStore α β)
  | .createService service => (store.createService service).map (·.2)
  | .updateService service => (store.updateService service).map (·.2)
  | .deleteService id => store.deleteService id
  | .createPolicy policy => (store.createPolicy policy).map (·.2)
  | .updatePolicy policy => (store.updatePolicy policy).map (·.2)
  | .deletePolicy id => store.deletePolicy id

/-- One step: a call that throws changes nothing. -/
def step (call : Call α β) : ServiceFileStore α β := Outcome.getState store (store.perform call)

/-- The store after a run of calls. -/
def run (calls : List (Call α β)) : ServiceFileStore α β :=
  Run.final (fun store call => ((), step store call)) {} calls

end Case

end ServiceFileStore

end Ranger

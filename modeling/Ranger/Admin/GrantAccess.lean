import Ranger.Admin.GrantRevoke
import Ranger.Admin.PolicyREST

/-! # Grant and revoke calls

`grantAccess` and `revokeAccess` of `ServiceREST`. The grantor needs delegated admin
on the resource; the policy to edit is the one the engine finds to match the resource
exactly, and a grant that finds none creates a policy without asking the validator.
-/

namespace Ranger

open Foundation

namespace ServiceREST

section Granted

/-- An item of a policy made for a grant. -/
def grantedItem (request : GrantRevokeRequest) : Grantee → RangerPolicyItem
  | .user name =>
      { users := [name]
        accesses := request.accessTypes.map fun accessType => ⟨accessType, true⟩
        delegateAdmin := request.delegateAdmin }
  | .group name =>
      { groups := [name]
        accesses := request.accessTypes.map fun accessType => ⟨accessType, true⟩
        delegateAdmin := request.delegateAdmin }

/-- The resources of a policy made for a grant. A missing value is stored where an
empty one is here; no matcher tells them apart. -/
def grantedResources (request : GrantRevokeRequest) : AssocMap String RangerPolicyResource where
  entries := request.resource.entries.map fun entry =>
    (entry.1, { values := [entry.2.getD ""], isRecursive := request.isRecursive })
  nodup := by
    rw [List.map_map]
    exact request.resource.nodup

/-- The policy made for a grant; `time` is when it is made. -/
def grantedPolicy (serviceName time : String) (request : GrantRevokeRequest) : RangerPolicy where
  service := serviceName
  name := "grant-" ++ time
  isAuditEnabled := request.enableAudit
  resources := grantedResources request
  policyItems := request.grantees.map (grantedItem request)

end Granted

section Calls

variable [Platform] [ClassLoader] {σ : Type} [ServiceStore σ] (rest : ServiceREST σ)

/-- An engine is kept as it was left by its use. -/
def keepEngine (serviceName : String) (policyEngine : RangerPolicyEngineImpl) : ServiceREST σ :=
  { rest with
    engineCache :=
      { rest.engineCache with
        policyEngineCache := rest.engineCache.policyEngineCache.put serviceName policyEngine } }

/-- The engine of a service, if it gives the grantor delegated admin on a resource. -/
def adminEngine (serviceName : String) (userName : Option String) (userGroups : List String)
    (resource : RangerAccessResource) : Option RangerPolicyEngineImpl × ServiceREST σ :=
  let (policyEngine, rest) := rest.getPolicyEngine serviceName
  match policyEngine with
  | none => (none, rest)
  | some policyEngine =>
      let (isAdmin, policyEngine) :=
        policyEngine.isAccessAllowed resource userName userGroups ADMIN_ACCESS
      let rest := rest.keepEngine serviceName policyEngine
      if isAdmin then (some policyEngine, rest) else (none, rest)

/-- The engine that gives the grantor delegated admin is the one of the service, as it is
left by the question it affirms. -/
theorem adminEngine_eq_some {serviceName : String} {userName : Option String}
    {userGroups : List String} {resource : RangerAccessResource}
    {policyEngine : RangerPolicyEngineImpl} {after : ServiceREST σ}
    (given : rest.adminEngine serviceName userName userGroups resource =
      (some policyEngine, after)) :
    after.svcStore = rest.svcStore ∧ ∃ asked, (rest.getPolicyEngine serviceName).1 = some asked ∧
      asked.isAccessAllowed resource userName userGroups ADMIN_ACCESS = (true, policyEngine) := by
  have store : (rest.getPolicyEngine serviceName).2.svcStore = rest.svcStore := rfl
  unfold adminEngine at given
  generalize rest.getPolicyEngine serviceName = answer at given store ⊢
  obtain ⟨found, kept⟩ := answer
  cases found with
  | none => nomatch given
  | some asked =>
      dsimp only at given
      split at given
      · next affirmed =>
        cases given
        exact ⟨store, asked, rfl, Prod.ext affirmed rfl⟩
      · nomatch given

/-- The policy the engine finds, as the store has it: a call edits a copy of it. -/
def getExactMatchPolicyForResource (policyEngine : RangerPolicyEngineImpl)
    (resource : RangerAccessResource) : Throws (Option RangerPolicy) :=
  match policyEngine.getExactMatchPolicy resource with
  | none => .ok none
  | some policy =>
      match policy.id with
      | none => .error none
      | some id => ServiceStore.getPolicy rest.svcStore id

omit [ClassLoader] in
theorem getPolicy_of_getExactMatchPolicyForResource {policyEngine : RangerPolicyEngineImpl}
    {resource : RangerAccessResource} {policy : RangerPolicy}
    (found : rest.getExactMatchPolicyForResource policyEngine resource = .ok (some policy)) :
    ∃ id, ServiceStore.getPolicy rest.svcStore id = .ok (some policy) := by
  unfold getExactMatchPolicyForResource at found
  split at found
  · nomatch found
  · split at found
    · nomatch found
    · exact ⟨_, found⟩

/-- A policy is stored again when the edit changes it. -/
def storeEdited (policy : RangerPolicy)
    (edit : List RangerPolicyItem → List RangerPolicyItem × Bool) :
    Except WebApplicationException Unit × ServiceREST σ :=
  let (policyItems, policyUpdated) := edit policy.policyItems
  if policyUpdated then
    match ServiceStore.updatePolicy rest.svcStore { policy with policyItems := policyItems } with
    | .error message => (.error (badRequest message), rest)
    | .ok (_, svcStore) => (.ok (), { rest with svcStore := svcStore })
  else (.ok (), rest)

/-- `userGroups` are the groups of the grantor. -/
def grantAccess (serviceName : String) (userGroups : List String) (time : String)
    (request : GrantRevokeRequest) : Except WebApplicationException Unit × ServiceREST σ :=
  let resource : RangerAccessResource := { elements := some request.resource }
  match rest.adminEngine serviceName (some request.grantor) userGroups resource with
  | (none, rest) => (.error ⟨SC_UNAUTHORIZED, some ""⟩, rest)
  | (some policyEngine, rest) =>
      match rest.getExactMatchPolicyForResource policyEngine resource with
      | .error message => (.error (badRequest message), rest)
      | .ok (some policy) => rest.storeEdited policy (grantToPolicyItems request)
      | .ok none =>
          match ServiceStore.createPolicy rest.svcStore
            (grantedPolicy serviceName time request) with
          | .error message => (.error (badRequest message), rest)
          | .ok (_, svcStore) => (.ok (), { rest with svcStore := svcStore })

def revokeAccess (serviceName : String) (userGroups : List String)
    (request : GrantRevokeRequest) : Except WebApplicationException Unit × ServiceREST σ :=
  let resource : RangerAccessResource := { elements := some request.resource }
  match rest.adminEngine serviceName (some request.grantor) userGroups resource with
  | (none, rest) => (.error ⟨SC_UNAUTHORIZED, some ""⟩, rest)
  | (some policyEngine, rest) =>
      match rest.getExactMatchPolicyForResource policyEngine resource with
      | .error message => (.error (badRequest message), rest)
      | .ok (some policy) => rest.storeEdited policy (revokeFromPolicyItems request)
      | .ok none => (.ok (), rest)

end Calls

/-- The calls that edit policies. -/
inductive PolicyCall where
  | createPolicy (session : UserSession) (newGuid : String) (policy : RangerPolicy)
  | updatePolicy (session : UserSession) (policy : RangerPolicy)
  | deletePolicy (session : UserSession) (id : Int)
  | grantAccess (serviceName : String) (userGroups : List String) (time : String)
      (request : GrantRevokeRequest)
  | revokeAccess (serviceName : String) (userGroups : List String) (request : GrantRevokeRequest)

section Steps

variable [Platform] [ClassLoader] {σ : Type} [ServiceStore σ]

/-- A call, with what it returns left out. -/
def perform (rest : ServiceREST σ) :
    PolicyCall → Except WebApplicationException Unit × ServiceREST σ
  | .createPolicy session newGuid policy =>
      let answer := rest.createPolicy session newGuid policy
      (answer.1.map fun _ => (), answer.2)
  | .updatePolicy session policy =>
      let answer := rest.updatePolicy session policy
      (answer.1.map fun _ => (), answer.2)
  | .deletePolicy session id => rest.deletePolicy session id
  | .grantAccess serviceName userGroups time request =>
      rest.grantAccess serviceName userGroups time request
  | .revokeAccess serviceName userGroups request => rest.revokeAccess serviceName userGroups request

end Steps

end ServiceREST

end Ranger

import Ranger.Admin.PolicyValidator
import Ranger.PolicyEngine.DelegatedAdmin

/-! # Policy administration over REST

The policy calls of `ServiceREST`. A caller who is not an administrator needs
delegated admin, which the engine of the service decides; engines are kept and
rebuilt when the store has a new version of the policies.
-/

namespace Ranger

open Foundation RangerDefaultPolicyEvaluator

/-- `RangerPolicyEngineCache`. -/
structure RangerPolicyEngineCache where
  options : RangerPolicyEngineOptions
  policyEngineCache : AssocMap String RangerPolicyEngineImpl

/-- The options the administration uses unless it is configured otherwise. -/
def adminPolicyEngineOptions : RangerPolicyEngineOptions where
  evaluatorType := "optimized"
  cacheAuditResults := false
  disableCustomConditions := true

/-- The session of a call, with the groups of its user. -/
structure UserSession where
  isUserAdmin : Bool
  loginId : Option String
  groups : List String := []

/-- A failed call: the status of the response and the message that is logged.
As an exception it has no message. -/
structure WebApplicationException where
  status : Nat
  logMessage : Option String
  deriving DecidableEq

def SC_BAD_REQUEST : Nat := 400

def SC_UNAUTHORIZED : Nat := 401

/-- The state of the administration. -/
structure ServiceREST (σ : Type) where
  svcStore : σ
  configuration : RangerConfiguration
  engineCache : RangerPolicyEngineCache

variable [Platform] [ClassLoader] {σ : Type} [ServiceStore σ]

namespace RangerPolicyEngineCache

def addPolicyEngine (cache : RangerPolicyEngineCache) (configuration : RangerConfiguration)
    (policies : ServicePolicies) : Option RangerPolicyEngineImpl × RangerPolicyEngineCache :=
  let ret := RangerPolicyEngineImpl.create configuration policies cache.options
  (some ret, { cache with
    policyEngineCache := cache.policyEngineCache.put policies.serviceName ret })

/-- The engine of a service; an exception of the store is logged. -/
def getPolicyEngine (cache : RangerPolicyEngineCache) (configuration : RangerConfiguration)
    (serviceName : String) (svcStore : σ) :
    Option RangerPolicyEngineImpl × RangerPolicyEngineCache :=
  let ret := cache.policyEngineCache.get? serviceName
  let policyVersion := (ret.map (·.getPolicyVersion)).getD (-1)
  match ServiceStore.getServicePoliciesIfUpdated svcStore serviceName policyVersion with
  | .error _ => (ret, cache)
  | .ok none => (ret, cache)
  | .ok (some policies) =>
      if ret.isNone then cache.addPolicyEngine configuration policies
      else if policies.policyVersion.isSome && policies.policyVersion != some policyVersion then
        cache.addPolicyEngine configuration policies
      else (ret, cache)

end RangerPolicyEngineCache

namespace ServiceREST

section Access

variable (rest : ServiceREST σ) (session : UserSession)

def getPolicyEngine (serviceName : String) : Option RangerPolicyEngineImpl × ServiceREST σ :=
  let (ret, engineCache) :=
    rest.engineCache.getPolicyEngine rest.configuration serviceName rest.svcStore
  (ret, { rest with engineCache := engineCache })

/-- `hasAdminAccess` on the resources of a policy. -/
def hasAdminAccess (policyEngine : Option RangerPolicyEngineImpl) (userName : Option String)
    (userGroups : List String) (resources : AssocMap String RangerPolicyResource) : Bool :=
  match policyEngine with
  | none => false
  | some policyEngine =>
      policyEngine.isMapAccessAllowed resources userName userGroups ADMIN_ACCESS

def ensureAdminAccess (serviceName : String) (resources : AssocMap String RangerPolicyResource) :
    Except WebApplicationException Unit × ServiceREST σ :=
  if session.isUserAdmin then (.ok (), rest)
  else
    let (policyEngine, rest) := rest.getPolicyEngine serviceName
    if hasAdminAccess policyEngine session.loginId session.groups resources then (.ok (), rest)
    else
      (.error ⟨SC_UNAUTHORIZED, some ("User '" ++ session.loginId.getD "null" ++
        "' does not have delegated-admin privilege on given resources")⟩, rest)

/-- An enabled policy of the service delegates the resources to the caller. -/
def Delegated (serviceName : String) (resources : AssocMap String RangerPolicyResource) : Prop :=
  ∃ policyEngine, (rest.getPolicyEngine serviceName).1 = some policyEngine ∧
    ∃ evaluator ∈ policyEngine.policyRepository.policyEvaluators,
      Delegates evaluator.base.policy session.loginId session.groups ∧
        evaluator.base.isMatchMap resources = true

theorem ensureAdminAccess_isOk_iff {session : UserSession} (ordinary : session.isUserAdmin = false)
    (serviceName : String) (resources : AssocMap String RangerPolicyResource) :
    (rest.ensureAdminAccess session serviceName resources).1.isOk = true ↔
      rest.Delegated session serviceName resources := by
  have access : (rest.ensureAdminAccess session serviceName resources).1.isOk = true ↔
      hasAdminAccess (rest.getPolicyEngine serviceName).1 session.loginId session.groups resources =
        true := by
    unfold ensureAdminAccess
    simp only [ordinary, Bool.false_eq_true, ↓reduceIte]
    split
    · next allowed => simp only [allowed, Except.isOk, Except.toBool]
    · next denied => simp only [denied, Except.isOk, Except.toBool, Bool.false_eq_true]
  rw [access, Delegated]
  cases (rest.getPolicyEngine serviceName).1 with
  | none => simp [hasAdminAccess]
  | some policyEngine =>
      simp only [hasAdminAccess, RangerPolicyEngineImpl.isMapAccessAllowed_admin_iff,
        Option.some.injEq, exists_eq_left']

/-- Asking for access leaves the store alone. -/
@[simp] theorem ensureAdminAccess_svcStore (serviceName : String)
    (resources : AssocMap String RangerPolicyResource) :
    (rest.ensureAdminAccess session serviceName resources).2.svcStore = rest.svcStore := by
  unfold ensureAdminAccess
  split
  · rfl
  · dsimp only
    split <;> rfl

end Access

section Calls

variable (rest : ServiceREST σ) (session : UserSession)

def badRequest (message : Option String) : WebApplicationException := ⟨SC_BAD_REQUEST, message⟩

/-- The policy with a name made from its guid if it has none; `newGuid` is what
`genGUID` returns. -/
def named (newGuid : String) (policy : RangerPolicy) : RangerPolicy :=
  if isBlank policy.name then
    let guid := if isBlank policy.guid then newGuid else policy.guid
    { policy with guid := guid, name := policy.service ++ "-" ++ guid }
  else policy

/-- What `createPolicy` and `updatePolicy` share: the policy is validated, the access
check looks at its own resources, and the store is edited. -/
def editPolicy (policy : RangerPolicy) (action : Action)
    (denial : WebApplicationException → WebApplicationException)
    (edit : σ → Throws (RangerPolicy × σ)) :
    Except WebApplicationException RangerPolicy × ServiceREST σ :=
  match RangerPolicyValidator.validate rest.svcStore policy action session.isUserAdmin with
  | .error message => (.error (badRequest message), rest)
  | .ok () =>
      match rest.ensureAdminAccess session policy.service policy.resources with
      | (.error denied, rest) => (.error (denial denied), rest)
      | (.ok (), rest) =>
          match edit rest.svcStore with
          | .error message => (.error (badRequest message), rest)
          | .ok (ret, svcStore) => (.ok ret, { rest with svcStore := svcStore })

def createPolicy (newGuid : String) (policy : RangerPolicy) :
    Except WebApplicationException RangerPolicy × ServiceREST σ :=
  let policy := named newGuid policy
  rest.editPolicy session policy .create (fun denied => denied)
    fun svcStore => ServiceStore.createPolicy svcStore policy

/-- A denial is reported as a bad request without a message. -/
def updatePolicy (policy : RangerPolicy) :
    Except WebApplicationException RangerPolicy × ServiceREST σ :=
  rest.editPolicy session policy .update (fun _ => badRequest none)
    fun svcStore => ServiceStore.updatePolicy svcStore policy

/-- The access check looks at the stored version. -/
def deletePolicy (id : Int) : Except WebApplicationException Unit × ServiceREST σ :=
  match RangerPolicyValidator.validateId rest.svcStore (some id) .delete with
  | .error message => (.error (badRequest message), rest)
  | .ok () =>
      match ServiceStore.getPolicy rest.svcStore id with
      | .error message => (.error (badRequest message), rest)
      | .ok none => (.error (badRequest none), rest)
      | .ok (some policy) =>
          match rest.ensureAdminAccess session policy.service policy.resources with
          | (.error _, rest) => (.error (badRequest none), rest)
          | (.ok (), rest) =>
              match ServiceStore.deletePolicy rest.svcStore id with
              | .error message => (.error (badRequest message), rest)
              | .ok svcStore => (.ok (), { rest with svcStore := svcStore })

end Calls

section Acceptance

variable (rest : ServiceREST σ) {session : UserSession}

private theorem editPolicy_isOk_iff (ordinary : session.isUserAdmin = false)
    (policy : RangerPolicy) {action : Action} (edits : action ≠ .delete)
    (denial : WebApplicationException → WebApplicationException)
    (edit : σ → Throws (RangerPolicy × σ)) :
    (rest.editPolicy session policy action denial edit).1.isOk = true ↔
      RangerPolicyValidator.isValid rest.svcStore policy action false = [] ∧
        rest.Delegated session policy.service policy.resources ∧
        (edit rest.svcStore).isOk = true := by
  have access := rest.ensureAdminAccess_isOk_iff ordinary policy.service policy.resources
  have unchanged := rest.ensureAdminAccess_svcStore session policy.service policy.resources
  unfold editPolicy RangerPolicyValidator.validate RangerPolicyValidator.report
  rw [if_neg edits, ordinary]
  by_cases valid : RangerPolicyValidator.isValid rest.svcStore policy action false = []
  · rw [if_pos valid, ← access]
    generalize rest.ensureAdminAccess session policy.service policy.resources = asked at unchanged ⊢
    obtain ⟨outcome, after⟩ := asked
    dsimp only at unchanged ⊢
    cases outcome with
    | error denied => simp [Except.isOk, Except.toBool]
    | ok granted =>
        cases granted
        simp only [unchanged]
        cases edit rest.svcStore with
        | error message => simp [Except.isOk, Except.toBool]
        | ok edited => simp [Except.isOk, Except.toBool, valid]
  · rw [if_neg valid]
    simp [Except.isOk, Except.toBool, valid]

/-- What it takes to create a policy. -/
theorem createPolicy_isOk_iff (ordinary : session.isUserAdmin = false) (newGuid : String)
    (policy : RangerPolicy) :
    (rest.createPolicy session newGuid policy).1.isOk = true ↔
      RangerPolicyValidator.isValid rest.svcStore (named newGuid policy) .create false = [] ∧
        rest.Delegated session (named newGuid policy).service (named newGuid policy).resources ∧
        (ServiceStore.createPolicy rest.svcStore (named newGuid policy)).isOk = true := by
  apply rest.editPolicy_isOk_iff ordinary
  decide

/-- What it takes to update a policy. -/
theorem updatePolicy_isOk_iff (ordinary : session.isUserAdmin = false) (policy : RangerPolicy) :
    (rest.updatePolicy session policy).1.isOk = true ↔
      RangerPolicyValidator.isValid rest.svcStore policy .update false = [] ∧
        rest.Delegated session policy.service policy.resources ∧
        (ServiceStore.updatePolicy rest.svcStore policy).isOk = true := by
  apply rest.editPolicy_isOk_iff ordinary
  decide

/-- What it takes to delete a policy. -/
theorem deletePolicy_isOk_iff (ordinary : session.isUserAdmin = false) {id : Int}
    {policy : RangerPolicy} (stored : ServiceStore.getPolicy rest.svcStore id = .ok (some policy)) :
    (rest.deletePolicy session id).1.isOk = true ↔
      rest.Delegated session policy.service policy.resources ∧
        (ServiceStore.deletePolicy rest.svcStore id).isOk = true := by
  have access := rest.ensureAdminAccess_isOk_iff ordinary policy.service policy.resources
  have store := rest.ensureAdminAccess_svcStore session policy.service policy.resources
  have found : RangerPolicyValidator.getPolicy rest.svcStore id = some policy := by
    simp only [RangerPolicyValidator.getPolicy, RangerPolicyValidator.answer, stored,
      Except.toOption, Option.join_some]
  unfold deletePolicy RangerPolicyValidator.validateId RangerPolicyValidator.report
    RangerPolicyValidator.isValidToDelete
  simp only [found, stored, ↓reduceIte]
  rw [← access]
  generalize rest.ensureAdminAccess session policy.service policy.resources = asked at store ⊢
  obtain ⟨outcome, after⟩ := asked
  dsimp only at store ⊢
  cases outcome with
  | error denied => simp [Except.isOk, Except.toBool]
  | ok granted =>
      cases granted
      simp only [store]
      cases ServiceStore.deletePolicy rest.svcStore id with
      | error message => simp [Except.isOk, Except.toBool]
      | ok deleted => simp [Except.isOk, Except.toBool]

end Acceptance

end ServiceREST

end Ranger

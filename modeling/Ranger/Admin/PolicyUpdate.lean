import Ranger.Admin.PolicyREST

/-! # Updates by delegated administrators

`updatePolicy` asks for delegated admin on the resources of the new version,
`deletePolicy` on those of the stored one.
-/

namespace Ranger

open Foundation RangerDefaultPolicyEvaluator

namespace ServiceREST

section Acceptance

variable [Platform] [ClassLoader] {σ : Type} [ServiceStore σ] (rest : ServiceREST σ)
  {session : UserSession}

/-- Whoever may replace a stored policy has delegated admin on the resources of
both versions, and may delete the stored one if the store can. -/
def UpdateStaysInside (session : UserSession) (policy : RangerPolicy) : Prop :=
  ∀ id stored, policy.id = some id →
    ServiceStore.getPolicy rest.svcStore id = .ok (some stored) →
    (rest.updatePolicy session policy).1.isOk = true →
    (rest.ensureAdminAccess session policy.service policy.resources).1.isOk = true ∧
      (rest.ensureAdminAccess session stored.service stored.resources).1.isOk = true ∧
      ((ServiceStore.deletePolicy rest.svcStore id).isOk = true →
        (rest.deletePolicy session id).1.isOk = true)

/-- Unless the update fails its validation, its own resources or the store, some
policy delegates the stored resources to the caller. -/
def StoredDelegated (session : UserSession) (policy : RangerPolicy) : Prop :=
  ∀ id stored, policy.id = some id →
    ServiceStore.getPolicy rest.svcStore id = .ok (some stored) →
    RangerPolicyValidator.isValid rest.svcStore policy .update false = [] →
    rest.Delegated session policy.service policy.resources →
    (ServiceStore.updatePolicy rest.svcStore policy).isOk = true →
    rest.Delegated session stored.service stored.resources

/-- **When an update stays inside the delegation.** It does exactly if, for a valid
update of delegated resources that the store takes, some enabled policy that
delegates to the caller matches the resources of the stored version. -/
theorem updateStaysInside_iff (ordinary : session.isUserAdmin = false) (policy : RangerPolicy) :
    rest.UpdateStaysInside session policy ↔ rest.StoredDelegated session policy := by
  constructor
  · intro inside id stored identified found valid delegated taken
    have accepted := (rest.updatePolicy_isOk_iff ordinary policy).mpr ⟨valid, delegated, taken⟩
    obtain ⟨_, access, _⟩ := inside id stored identified found accepted
    exact (rest.ensureAdminAccess_isOk_iff ordinary _ _).mp access
  · intro covered id stored identified found accepted
    obtain ⟨valid, delegated, taken⟩ := (rest.updatePolicy_isOk_iff ordinary policy).mp accepted
    have before := covered id stored identified found valid delegated taken
    refine ⟨(rest.ensureAdminAccess_isOk_iff ordinary _ _).mpr delegated,
      (rest.ensureAdminAccess_isOk_iff ordinary _ _).mpr before, ?_⟩
    exact fun deletable => (rest.deletePolicy_isOk_iff ordinary found).mpr ⟨before, deletable⟩

end Acceptance

section Takeover

attribute [local instance] Platform.ascii ClassLoader.addresses

open RangerOptimizedPolicyEvaluator (pathServiceDef)

/-- Bob administers what is below /home. -/
def homePolicy : RangerPolicy where
  id := some 1
  service := "cluster"
  name := "home"
  resources := ⟨[("path", { values := ["/home/*"] })], by decide⟩
  policyItems := [{ users := ["bob"], delegateAdmin := true }]

/-- A policy of others. -/
def financePolicy : RangerPolicy where
  id := some 2
  service := "cluster"
  name := "finance"
  resources := ⟨[("path", { values := ["/finance"] })], by decide⟩
  policyItems := [{ accesses := [⟨"read", true⟩], users := ["alice"] }]

/-- The policy of others as bob sends it back. -/
def movedPolicy : RangerPolicy :=
  { financePolicy with resources := ⟨[("path", { values := ["/home/bob"] })], by decide⟩ }

def clusterREST : ServiceREST ServiceDBStore where
  svcStore :=
    { serviceDefs := [pathServiceDef]
      services := [{ id := 1, name := "cluster", type := "hdfs" }]
      policies := [homePolicy, financePolicy]
      users := ["alice", "bob"]
      groups := []
      nextPolicyId := 3 }
  configuration := ∅
  engineCache := ⟨adminPolicyEngineOptions, ∅⟩

def bob : UserSession where
  isUserAdmin := false
  loginId := some "bob"

/-- Bob moves the policy of others to his own directory. -/
theorem update_takes_over_policy : ¬ clusterREST.UpdateStaysInside bob movedPolicy := by
  intro inside
  have accepted : (clusterREST.updatePolicy bob movedPolicy).1.isOk = true := by decide +kernel
  obtain ⟨_, access, _⟩ := inside 2 financePolicy rfl rfl accepted
  have denied : (clusterREST.ensureAdminAccess bob financePolicy.service
      financePolicy.resources).1.isOk = false := by
    decide +kernel
  rw [denied] at access
  cases access

theorem updateStaysInside_moved_iff :
    clusterREST.UpdateStaysInside bob movedPolicy ↔ clusterREST.StoredDelegated bob movedPolicy :=
  clusterREST.updateStaysInside_iff rfl movedPolicy

end Takeover

end ServiceREST

end Ranger

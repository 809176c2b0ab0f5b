import Ranger.Admin.PolicyUpdate
import Ranger.PolicyEvaluator.Levels

/-! # Policies created by delegated administrators

The access check matches the values of a new policy as if they were names of
resources. What the policy matches stays inside the delegation when some
delegating policy covers it level by level; a pattern or a recursive flag that
the check takes for a name can reach beyond.
-/

namespace Ranger

open Foundation RangerDefaultPolicyEvaluator

namespace ServiceREST

section Coverage

variable [Platform] [ClassLoader] {σ : Type} [ServiceStore σ] (rest : ServiceREST σ)
  (session : UserSession) (policy : RangerPolicy)

/-- A policy of an ordinary caller that passes validation and the access check, with
the engine that is asked and the definition the policy will have. -/
structure Admitted (policyEngine : RangerPolicyEngineImpl) (serviceDef : RangerServiceDef) :
    Prop where
  ordinary : session.isUserAdmin = false
  valid : RangerPolicyValidator.isValid rest.svcStore policy .create false = []
  checked : RangerPolicyValidator.checkedServiceDef rest.svcStore policy = some serviceDef
  engine : (rest.getPolicyEngine policy.service).1 = some policyEngine
  access : (rest.ensureAdminAccess session policy.service policy.resources).1.isOk = true

/-- Every resource an admitted policy matches is matched by an enabled policy that
delegates to the caller. -/
def CreateStaysInside : Prop :=
  ∀ policyEngine serviceDef, rest.Admitted session policy policyEngine serviceDef →
    ∀ resource, (init policy serviceDef rest.engineCache.options).isMatch resource = true →
      ∃ evaluator ∈ policyEngine.policyRepository.policyEvaluators,
        evaluator.base.policy.isEnabled = true ∧
          Delegates evaluator.base.policy session.loginId session.groups ∧
          evaluator.base.isMatch resource = true

/-- An enabled policy that delegates to the caller, passes the check and covers every
level it shares with the new policy. -/
structure Covers (serviceDef : RangerServiceDef) (evaluator : RangerDefaultPolicyEvaluator) :
    Prop where
  sameDef : evaluator.serviceDef = serviceDef
  enabled : evaluator.policy.isEnabled = true
  delegates : Delegates evaluator.policy session.loginId session.groups
  passed : evaluator.isMatchMap policy.resources = true
  levels : ∀ resourceDef ∈ serviceDef.resources, ∀ general special,
    evaluator.matchers.get? resourceDef.name = some general →
      (init policy serviceDef rest.engineCache.options).matchers.get? resourceDef.name =
        some special →
      RangerResourceMatcher.LevelCovered general special

/-- If the policy is admitted, no name in it hides another one, and some delegating
policy of the engine covers it. -/
def Covered : Prop :=
  ∀ policyEngine serviceDef, rest.Admitted session policy policyEngine serviceDef →
    RangerPolicyValidator.NamesApart policy.resources ∧
      ∃ evaluator ∈ policyEngine.policyRepository.policyEvaluators,
        rest.Covers session policy serviceDef evaluator.base

variable {rest session policy}

/-- A policy that is created was admitted. -/
theorem admitted_of_createPolicy (ordinary : session.isUserAdmin = false) (newGuid : String)
    (accepted : (rest.createPolicy session newGuid policy).1.isOk = true) :
    ∃ policyEngine serviceDef,
      rest.Admitted session (named newGuid policy) policyEngine serviceDef := by
  obtain ⟨valid, delegated, _⟩ := (rest.createPolicy_isOk_iff ordinary newGuid policy).mp accepted
  obtain ⟨serviceDef, checked⟩ := RangerPolicyValidator.exists_checkedServiceDef_of_isValid valid
  have access := (rest.ensureAdminAccess_isOk_iff ordinary _ _).mpr delegated
  obtain ⟨policyEngine, engine, _⟩ := delegated
  exact ⟨policyEngine, serviceDef, ordinary, valid, checked, engine, access⟩

/-- **A covered policy stays inside the delegation.** -/
theorem createStaysInside_of_covered (covered : rest.Covered session policy) :
    rest.CreateStaysInside session policy := by
  intro policyEngine serviceDef admitted resource matched
  obtain ⟨namesApart, evaluator, listed, covers⟩ := covered policyEngine serviceDef admitted
  refine ⟨evaluator, listed, covers.enabled, covers.delegates, ?_⟩
  have includes : ∀ resourceDef ∈ serviceDef.resources, ∀ policyResource,
      policy.resources.get? resourceDef.name = some policyResource →
        policyResource.isExcludes = false :=
    fun resourceDef level policyResource found =>
      RangerPolicyValidator.isExcludes_of_isValid admitted.valid admitted.checked namesApart level
        found
  exact isMatch_of_covered evaluator.base (init policy serviceDef rest.engineCache.options)
    covers.sameDef covers.passed includes covers.levels resource matched

end Coverage

section Recursion

attribute [local instance] Platform.ascii ClassLoader.addresses

def hdfsServiceDef : RangerServiceDef where
  name := "hdfs"
  resources :=
    [{ name := "path"
       level := 10
       mandatory := true
       recursiveSupported := true
       matcher := "org.apache.ranger.plugin.resourcematcher.RangerPathResourceMatcher"
       matcherOptions := ⟨[("wildCard", "true"), ("ignoreCase", "true")], by decide⟩ }]
  accessTypes := [{ name := "read" }, { name := "write" }, { name := "execute" }]

/-- Bob administers two directories, and nothing below them. -/
def directoryPolicy : RangerPolicy where
  id := some 1
  service := "cluster"
  name := "directories"
  resources := ⟨[("path", { values := ["/home", "/home/bob"] })], by decide⟩
  policyItems := [{ users := ["bob"], delegateAdmin := true }]

def bobPolicy : RangerPolicy where
  service := "cluster"
  name := "bob"
  resources := .single "path" { values := ["/home/bob"] }
  policyItems := [{ accesses := [⟨"read", true⟩], users := ["bob"] }]

/-- A policy for everything below a directory. -/
def treePolicy : RangerPolicy where
  service := "cluster"
  name := "tree"
  resources := ⟨[("path", { values := ["/home"], isRecursive := true })], by decide⟩
  policyItems := [{ accesses := [⟨"read", true⟩], users := ["bob"] }]

def hdfsREST : ServiceREST ServiceDBStore where
  svcStore :=
    { serviceDefs := [hdfsServiceDef]
      services := [{ id := 1, name := "cluster", type := "hdfs" }]
      policies := [directoryPolicy]
      users := ["bob"]
      groups := []
      nextPolicyId := 2 }
  configuration := ∅
  engineCache := ⟨adminPolicyEngineOptions, ∅⟩

/-- The engine of the service. -/
def hdfsEngine : RangerPolicyEngineImpl :=
  .create ∅
    { serviceName := "cluster", serviceDef := hdfsServiceDef, policies := [directoryPolicy] }
    adminPolicyEngineOptions

theorem mem_hdfsEngine {evaluator : RangerPolicyEvaluator} :
    evaluator ∈ hdfsEngine.policyRepository.policyEvaluators ↔
      RangerPolicyRepository.buildPolicyEvaluator ∅ directoryPolicy hdfsServiceDef
        adminPolicyEngineOptions = evaluator := by
  rw [hdfsEngine, RangerPolicyEngineImpl.mem_policyEvaluators]
  simp [directoryPolicy]

/-- Bob makes a policy for the files of alice. -/
theorem create_reaches_below : ¬ hdfsREST.CreateStaysInside bob treePolicy := by
  intro inside
  have admitted : hdfsREST.Admitted bob treePolicy hdfsEngine hdfsServiceDef :=
    { ordinary := rfl
      valid := by decide +kernel
      checked := rfl
      engine := rfl
      access := by decide +kernel }
  obtain ⟨evaluator, listed, _, _, matched⟩ := inside hdfsEngine hdfsServiceDef admitted
    { elements := some ⟨[("path", some "/home/alice/secret")], by decide⟩ } (by decide +kernel)
  rw [← mem_hdfsEngine.mp listed] at matched
  have unmatched : (init directoryPolicy hdfsServiceDef adminPolicyEngineOptions).isMatch
      { elements := some ⟨[("path", some "/home/alice/secret")], by decide⟩ } = false := by
    decide +kernel
  exact Bool.false_ne_true (unmatched.symm.trans matched)

/-- A policy for his own directory, though, stays inside. -/
theorem create_stays_at_name : hdfsREST.CreateStaysInside bob bobPolicy := by
  apply createStaysInside_of_covered
  intro policyEngine serviceDef admitted
  have sameEngine : hdfsEngine = policyEngine := Option.some.inj admitted.engine
  have sameDef : hdfsServiceDef = serviceDef := Option.some.inj admitted.checked
  subst sameEngine sameDef
  refine ⟨?_, _, mem_hdfsEngine.mpr rfl, rfl, rfl, ?_, by decide +kernel, ?_⟩
  · intro first one second two _
    rw [List.mem_singleton.mp one, List.mem_singleton.mp two]
  · exact ⟨_, List.mem_cons_self, by decide +kernel, rfl⟩
  · intro resourceDef level general special foundGeneral foundSpecial
    rw [List.mem_singleton.mp level] at foundGeneral foundSpecial
    rw [← Option.some.inj foundGeneral, ← Option.some.inj foundSpecial]
    apply RangerResourceMatcher.LevelCovered.values rfl
    intro value listed
    have single : value = "/home/bob" :=
      List.mem_singleton.mp (RangerResourceMatcher.mem_policyValues.mp listed).1
    subst single
    -- the value has no wildcard, and neither policy is recursive
    apply RangerResourceMatcher.ValueCovered.name
    · exact ⟨by decide, fun _ => by decide⟩
    · decide +kernel
    · intro deep
      exact absurd deep (by decide +kernel)

end Recursion

end ServiceREST

end Ranger

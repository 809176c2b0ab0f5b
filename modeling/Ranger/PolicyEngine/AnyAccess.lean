import Ranger.PolicyEngine.Verdict
import Ranger.PolicyEvaluator.Ancestors

/-! # Visibility of the ancestors of an accessible resource

Components ask an engine for any access to decide which databases and tables a
user may see. Whoever an engine without match caches lets reach a resource gets
any access to what lies above it. Remembered audit decisions do not matter here.
-/

namespace Ranger

open Foundation

namespace RangerPolicyEvaluator

variable [Platform] [ClassLoader] {evaluator : RangerPolicyEvaluator}

/-- What the evaluator adds to the access half of a result: what it matches now, by its
cache where it has one, and what its items grant. -/
def answers (evaluator : RangerPolicyEvaluator) (request : RangerAccessRequest) : Bool :=
  evaluator.base.covers (evaluator.isMatch request.resource).1 request &&
    evaluator.grantsItem request

theorem evaluate_access (request : RangerAccessRequest) {result : RangerAccessResult}
    (raised : result.isAccessDetermined = result.isAllowed) :
    (evaluator.evaluate request result).1.isAccessDetermined =
        (evaluator.evaluate request result).1.isAllowed ∧
      (evaluator.evaluate request result).1.isAllowed =
        (result.isAllowed || evaluator.answers request) := by
  rw [evaluate_answer]
  unfold RangerDefaultPolicyEvaluator.evaluateCovered answers
  simp only [itemTest_eq]
  generalize evaluator.base.covers (evaluator.isMatch request.resource).1 request = covered
  cases allowed : result.isAllowed <;> cases covered <;>
    cases granted : evaluator.grantsItem request <;> cases result.isAuditedDetermined <;>
      cases evaluator.base.policy.isAuditEnabled <;> simp [raised, allowed]

/-- Without a match cache the answer is that of the policy. -/
theorem answers_eq_allows (uncached : evaluator.type ≠ .cached) (request : RangerAccessRequest) :
    evaluator.answers request = evaluator.allows request := by
  unfold answers allows covers isMatch
  cases type : evaluator.type with
  | default => rfl
  | optimized => rfl
  | cached => exact absurd type uncached

end RangerPolicyEvaluator

namespace RangerPolicyRepository

variable (repository : RangerPolicyRepository)

/-- A remembered audit decision says nothing about access. -/
theorem setAuditEnabledFromCache_access (request : RangerAccessRequest) :
    let read := repository.setAuditEnabledFromCache request {}
    read.2.1.isAccessDetermined = read.2.1.isAllowed ∧ read.2.1.isAllowed = false ∧
      read.2.2.policyEvaluators = repository.policyEvaluators := by
  unfold setAuditEnabledFromCache
  cases repository.accessAuditCache with
  | none => exact ⟨rfl, rfl, rfl⟩
  | some accessAuditCache =>
      cases value : (accessAuditCache.get
          (request.resource.getAsString repository.serviceDef)).1 with
      | none => simp [value]
      | some value => simp [value]

theorem policyEvaluators_storeAuditEnabledInCache (request : RangerAccessRequest)
    (result : RangerAccessResult) :
    (repository.storeAuditEnabledInCache request result).policyEvaluators =
      repository.policyEvaluators := by
  unfold storeAuditEnabledInCache
  split <;> rfl

end RangerPolicyRepository

namespace RangerPolicyEngineImpl

open RangerPolicyEvaluator RangerAccessResource

section Engine

variable [Platform] [ClassLoader]

/-- The loop over the evaluators unites the accesses they allow. -/
theorem evaluateAll_isAllowed (evaluators : List RangerPolicyEvaluator)
    (request : RangerAccessRequest) {result : RangerAccessResult}
    (raised : result.isAccessDetermined = result.isAllowed) :
    (evaluateAll request result evaluators).1.isAllowed =
      (result.isAllowed || evaluators.any (·.answers request)) := by
  have steps : ∀ (evaluator : RangerPolicyEvaluator) (result : RangerAccessResult),
      True → result.isAccessDetermined = result.isAllowed →
      (evaluator.evaluate request result).1.isAccessDetermined =
          (evaluator.evaluate request result).1.isAllowed ∧
        (evaluator.evaluate request result).1.isAllowed =
          (result.isAllowed || evaluator.answers request) :=
    fun _ _ _ holds => evaluate_access request holds
  have settles : ∀ result : RangerAccessResult,
      result.isAccessDetermined = result.isAllowed →
      (result.isAccessDetermined && result.isAuditedDetermined) = true →
        result.isAllowed = true := by
    intro result holds settled
    rw [Bool.and_eq_true] at settled
    exact holds ▸ settled.1
  exact Scan.observe_scan steps settles evaluators result (fun _ _ => trivial) raised

/-- The access an engine answers with, and the evaluators it is left with, are those of its
loop on a result that says nothing about access. -/
theorem isAccessAllowedNoAudit_loop (engine : RangerPolicyEngineImpl)
    (request : RangerAccessRequest) :
    (engine.isAccessAllowedNoAudit request).1.isAllowed =
        engine.policyRepository.policyEvaluators.any (·.answers request) ∧
      ∃ result, (engine.isAccessAllowedNoAudit request).2.policyRepository.policyEvaluators =
        (evaluateAll request result engine.policyRepository.policyEvaluators).2 := by
  have remembered := engine.policyRepository.setAuditEnabledFromCache_access request
  unfold isAccessAllowedNoAudit
  generalize engine.policyRepository.setAuditEnabledFromCache request {} = read at remembered
  obtain ⟨foundInCache, ret, repository⟩ := read
  obtain ⟨raised, denied, evaluators⟩ := remembered
  have allowed := evaluateAll_isAllowed repository.policyEvaluators request raised
  rw [denied, Bool.false_or] at allowed
  cases foundInCache with
  | true => exact ⟨evaluators ▸ allowed, ret, evaluators ▸ rfl⟩
  | false =>
      refine ⟨evaluators ▸ allowed, ret, ?_⟩
      exact (RangerPolicyRepository.policyEvaluators_storeAuditEnabledInCache ..).trans
        (evaluators ▸ rfl)

/-- Answering a request leaves evaluators without match caches as they are. -/
theorem isAccessAllowedNoAudit_uncached {engine : RangerPolicyEngineImpl}
    (uncached : ∀ evaluator ∈ engine.policyRepository.policyEvaluators, evaluator.type ≠ .cached)
    (request : RangerAccessRequest) :
    (engine.isAccessAllowedNoAudit request).1.isAllowed =
        engine.policyRepository.policyEvaluators.any (·.allows request) ∧
      (engine.isAccessAllowedNoAudit request).2.policyRepository.policyEvaluators =
        engine.policyRepository.policyEvaluators := by
  obtain ⟨allowed, result, left⟩ := engine.isAccessAllowedNoAudit_loop request
  have asPolicies : engine.policyRepository.policyEvaluators.any (·.answers request) =
      engine.policyRepository.policyEvaluators.any (·.allows request) := by
    rw [Bool.eq_iff_iff, List.any_eq_true, List.any_eq_true]
    refine exists_congr fun evaluator => and_congr_right fun member => ?_
    rw [answers_eq_allows (uncached evaluator member)]
  exact ⟨allowed.trans asPolicies, left.trans (evaluateAll_stateless uncached request result)⟩

end Engine

section Verdict

variable [Platform] [ClassLoader]

variable {configuration : RangerConfiguration} {servicePolicies : ServicePolicies}
  {options : RangerPolicyEngineOptions}

/-- Whether the access is allowed does not depend on what was asked before. -/
theorem verdict_isAllowed_iff (uncached : EvaluatorType.ofName options.evaluatorType ≠ .cached)
    (history : List RangerAccessRequest) (request : RangerAccessRequest) :
    (verdict configuration servicePolicies options history request).isAllowed = true ↔
      ∃ policy ∈ servicePolicies.policies, policy.isEnabled = true ∧
        (RangerPolicyRepository.buildPolicyEvaluator configuration policy
          servicePolicies.serviceDef options).allows request = true := by
  have types : ∀ evaluator ∈
      (create configuration servicePolicies options).policyRepository.policyEvaluators,
      evaluator.type ≠ .cached := by
    intro evaluator member
    obtain ⟨policy, _, _, rfl⟩ := mem_policyEvaluators.mp member
    exact uncached
  have unchanged : ∀ engine : RangerPolicyEngineImpl,
      (∀ evaluator ∈ engine.policyRepository.policyEvaluators, evaluator.type ≠ .cached) →
      (Run.final (fun engine request => isAccessAllowedNoAudit engine request) engine
        history).policyRepository.policyEvaluators = engine.policyRepository.policyEvaluators := by
    induction history with
    | nil => exact fun _ _ => rfl
    | cons earlier rest ih =>
        intro engine uncachedEngine
        obtain ⟨_, same⟩ := isAccessAllowedNoAudit_uncached uncachedEngine earlier
        exact (ih _ (same ▸ uncachedEngine)).trans same
  have same := unchanged _ types
  unfold verdict
  rw [(isAccessAllowedNoAudit_uncached (same ▸ types) request).1, same, List.any_eq_true]
  simp only [mem_policyEvaluators]
  constructor
  · intro ⟨evaluator, ⟨policy, listed, enabled, built⟩, allowed⟩
    exact ⟨policy, listed, enabled, built ▸ allowed⟩
  · intro ⟨policy, listed, enabled, allowed⟩
    exact ⟨_, ⟨policy, listed, enabled, rfl⟩, allowed⟩

/-- The policy alone makes an engine allow the request. -/
def AllowedBy (configuration : RangerConfiguration) (servicePolicies : ServicePolicies)
    (options : RangerPolicyEngineOptions) (request : RangerAccessRequest)
    (policy : RangerPolicy) : Prop :=
  (verdict configuration { servicePolicies with policies := [policy] } options []
    request).isAllowed = true

theorem allowedBy_iff (uncached : EvaluatorType.ofName options.evaluatorType ≠ .cached)
    {request : RangerAccessRequest} {policy : RangerPolicy} :
    AllowedBy configuration servicePolicies options request policy ↔
      policy.isEnabled = true ∧
        (RangerPolicyRepository.buildPolicyEvaluator configuration policy
          servicePolicies.serviceDef options).allows request = true := by
  unfold AllowedBy
  rw [verdict_isAllowed_iff uncached]
  simp only [List.mem_singleton, exists_eq_left]

/-- The levels of the policy that the resource sets have no gap. -/
def SetsWithoutGap (servicePolicies : ServicePolicies) (options : RangerPolicyEngineOptions)
    (policy : RangerPolicy) (resource : RangerAccessResource) : Prop :=
  (RangerDefaultPolicyEvaluator.init policy servicePolicies.serviceDef options).HasNoGap resource

/-- A policy that allows a specific access allows any access to the ancestors. -/
theorem allows_any_of_allows (uncached : EvaluatorType.ofName options.evaluatorType ≠ .cached)
    (reads : ClassLoader.ReadsContext) {policy : RangerPolicy}
    (known : ∀ name ∈ policy.resources.keys,
      ∃ resourceDef ∈ servicePolicies.serviceDef.resources, resourceDef.name = name)
    {request : RangerAccessRequest} (specific : request.accessType ≠ ANY_ACCESS)
    (ordinary : request.accessType ≠ ADMIN_ACCESS)
    (allowed : (RangerPolicyRepository.buildPolicyEvaluator configuration policy
      servicePolicies.serviceDef options).allows request = true)
    (noGap : SetsWithoutGap servicePolicies options policy request.resource)
    {ancestor : RangerAccessResource}
    (above : IsAncestor servicePolicies.serviceDef request.resource ancestor) :
    (RangerPolicyRepository.buildPolicyEvaluator configuration policy servicePolicies.serviceDef
      options).allows
        { request with resource := ancestor, accessType := ANY_ACCESS } = true := by
  obtain ⟨reaches, grants, _⟩ := (allows_iff uncached).mp allowed
  obtain ⟨policyItem, member, granted⟩ := grants
  have matched : (RangerDefaultPolicyEvaluator.init policy servicePolicies.serviceDef
      options).isMatch request.resource = true := by
    obtain matched | ⟨any, _⟩ := reaches
    · exact matched
    · exact absurd (eq_of_beq any) specific
  refine (allows_iff uncached).mpr ⟨Or.inr ⟨rfl, ?_⟩, ⟨policyItem, member, ?_⟩, fun _ => rfl⟩
  · exact RangerDefaultPolicyEvaluator.matchResourceHead_of_isAncestor known matched noGap above
  · exact RangerDefaultPolicyEvaluator.grants_any_of_grants reads specific ordinary granted ancestor

/-- **Any access on ancestors.** What an engine with default or optimized evaluators
allows is allowed by policies, and each of them that has no gap in the resource
makes it allow any access to every ancestor, whatever was asked before. -/
theorem anyAccess_on_ancestors (uncached : EvaluatorType.ofName options.evaluatorType ≠ .cached)
    (reads : ClassLoader.ReadsContext)
    (known : ∀ policy ∈ servicePolicies.policies, ∀ name ∈ policy.resources.keys,
      ∃ resourceDef ∈ servicePolicies.serviceDef.resources, resourceDef.name = name)
    {request : RangerAccessRequest} (specific : request.accessType ≠ ANY_ACCESS)
    (ordinary : request.accessType ≠ ADMIN_ACCESS) {history : List RangerAccessRequest}
    (allowed : (verdict configuration servicePolicies options history request).isAllowed = true) :
    (∃ policy ∈ servicePolicies.policies,
        AllowedBy configuration servicePolicies options request policy) ∧
      ∀ policy ∈ servicePolicies.policies,
        AllowedBy configuration servicePolicies options request policy →
        SetsWithoutGap servicePolicies options policy request.resource →
        ∀ later ancestor, IsAncestor servicePolicies.serviceDef request.resource ancestor →
          (verdict configuration servicePolicies options later
            { request with resource := ancestor, accessType := ANY_ACCESS }).isAllowed = true := by
  constructor
  · obtain ⟨policy, listed, enabled, alone⟩ := (verdict_isAllowed_iff uncached _ _).mp allowed
    exact ⟨policy, listed, (allowedBy_iff uncached).mpr ⟨enabled, alone⟩⟩
  · intro policy listed by_policy noGap later ancestor above
    obtain ⟨enabled, alone⟩ := (allowedBy_iff uncached).mp by_policy
    refine (verdict_isAllowed_iff uncached _ _).mpr ⟨policy, listed, enabled, ?_⟩
    exact allows_any_of_allows uncached reads (known policy listed) specific ordinary alone noGap
      above

end Verdict

section Databases

attribute [local instance] Platform.ascii ClassLoader.addresses

/-- A user may read the tables of a database whose names begin alike. -/
def ordersPolicy : RangerPolicy where
  resources := ⟨[("database", { values := ["sales"] }), ("table", { values := ["orders*"] }),
    ("column", { values := ["*"] })], by decide⟩
  policyItems := [{ accesses := [{ type := "select" }], users := ["alice"] }]

def ordersPolicies : ServicePolicies where
  serviceName := "warehouse"
  serviceDef :=
    { name := "hive"
      resources := [{ name := "database" }, { name := "table" }, { name := "column" }]
      accessTypes := [{ name := "select" }, { name := "update" }] }
  policies := [ordersPolicy]

def ordersRequest : RangerAccessRequest where
  resource := { elements := some ⟨[("database", some "sales"), ("table", some "orders2014")],
    by decide⟩ }
  accessType := "select"
  user := some "alice"

def salesDatabase : RangerAccessResource where
  elements := some (.single "database" (some "sales"))

/-- The database of a readable table is visible. -/
theorem sales_database_visible :
    (verdict ∅ ordersPolicies { evaluatorType := "optimized" } []
      { ordersRequest with resource := salesDatabase, accessType := ANY_ACCESS }).isAllowed =
        true := by
  have readable : (verdict ∅ ordersPolicies { evaluatorType := "optimized" } []
      ordersRequest).isAllowed = true := by decide +kernel
  have above : IsAncestor ordersPolicies.serviceDef ordersRequest.resource salesDatabase := by
    refine ⟨by decide, fun name => ?_, by decide⟩
    by_cases database : name = "database"
    · subst database
      exact Or.inl rfl
    · have apart : (name == "database") = false := beq_eq_false_iff_ne.mpr database
      have unset : salesDatabase.getValue name = none := by
        simp [RangerAccessResource.getValue, salesDatabase, AssocMap.single, AssocMap.get?,
          List.lookup_cons, apart]
      exact Or.inr (by rw [unset]; rfl)
  have visible := anyAccess_on_ancestors (by decide) ClassLoader.addresses_readsContext (by decide)
    (by decide) (by decide) readable
  exact visible.2 ordersPolicy (List.mem_singleton.mpr rfl) (by unfold AllowedBy; decide +kernel)
    (by unfold SetsWithoutGap RangerDefaultPolicyEvaluator.HasNoGap; decide +kernel) []
    salesDatabase above

end Databases

end RangerPolicyEngineImpl

end Ranger

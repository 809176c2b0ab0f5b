import Ranger.PolicyEngine.Engine

/-! # The verdict of an engine as a union over its policies

The engine asks its evaluators in an order of their own and stops early, and an
evaluator works on the undetermined half of a result only. What comes out is
nevertheless a union: each flag says that some policy contributes it.
-/

namespace Ranger

open Foundation

/-- A flag of a result is determined only by being raised. -/
structure RangerAccessResult.RaisedOnly (result : RangerAccessResult) : Prop where
  access : result.isAccessDetermined = result.isAllowed
  audit : result.isAuditedDetermined = result.isAudited

theorem RangerAccessResult.raisedOnly_new : ({} : RangerAccessResult).RaisedOnly := ⟨rfl, rfl⟩

namespace RangerPolicyEvaluator

variable [Platform] (evaluator : RangerPolicyEvaluator)

/-- Whether a request is within reach of the evaluator's policy. -/
def covers (request : RangerAccessRequest) : Bool :=
  evaluator.base.covers (evaluator.base.isMatch request.resource) request

def audits (request : RangerAccessRequest) : Bool :=
  evaluator.covers request && evaluator.base.policy.isAuditEnabled

/-- A match cache that does not mislead the evaluator about a resource. -/
def Trusted (past : List RangerAccessResource) (resource : RangerAccessResource) : Prop :=
  evaluator.type = .cached → ∀ earlier ∈ past,
    RangerCachedPolicyEvaluator.Interchangeable evaluator.base earlier resource

/-- What an evaluator keeps from one request to the next: its class and its
policy, and a cache that speaks of resources presented so far. -/
structure Continues (past : List RangerAccessResource) (first second : RangerPolicyEvaluator) :
    Prop where
  type : second.type = first.type
  base : second.base = first.base
  sound : RangerCachedPolicyEvaluator.Sound second.base past second.cache

variable {past : List RangerAccessResource} {first second : List RangerPolicyEvaluator} in
theorem Continues.map_base (continues : List.Forall₂ (Continues past) first second) :
    second.map (·.base) = first.map (·.base) := by
  induction continues with
  | nil => rfl
  | cons head _ ih => rw [List.map_cons, List.map_cons, head.base, ih]

variable [ClassLoader]

/-- Whether the evaluator's policy has an item that grants the request, and the
aggregated access types, where they are asked, do not hide it. -/
def grantsItem (request : RangerAccessRequest) : Bool :=
  evaluator.base.policy.policyItems.any (evaluator.base.grants request) &&
    (evaluator.type == .default ||
      RangerOptimizedPolicyEvaluator.admitsAccess evaluator.base request.accessType)

def allows (request : RangerAccessRequest) : Bool :=
  evaluator.covers request && evaluator.grantsItem request

/-- The item test of the evaluator's class. -/
def itemTest : RangerAccessRequest → RangerAccessResult → RangerAccessResult :=
  match evaluator.type with
  | .default => evaluator.base.evaluatePolicyItemsForAccess
  | _ => RangerOptimizedPolicyEvaluator.evaluatePolicyItemsForAccess evaluator.base

theorem itemTest_eq (request : RangerAccessRequest) (result : RangerAccessResult) :
    evaluator.itemTest request result =
      if evaluator.grantsItem request then
        (result.setIsAllowed true).setPolicyId evaluator.base.policy.id
      else result := by
  have aggregated : RangerOptimizedPolicyEvaluator.evaluatePolicyItemsForAccess evaluator.base
      request result =
        if evaluator.base.policy.policyItems.any (evaluator.base.grants request) &&
            RangerOptimizedPolicyEvaluator.admitsAccess evaluator.base request.accessType then
          (result.setIsAllowed true).setPolicyId evaluator.base.policy.id
        else result := by
    rw [RangerOptimizedPolicyEvaluator.evaluatePolicyItemsForAccess_eq]
    cases RangerOptimizedPolicyEvaluator.admitsAccess evaluator.base request.accessType <;>
      simp [RangerDefaultPolicyEvaluator.evaluatePolicyItemsForAccess]
  unfold itemTest grantsItem
  cases type : evaluator.type with
  | default => simp [RangerDefaultPolicyEvaluator.evaluatePolicyItemsForAccess]
  | optimized => exact aggregated
  | cached => exact aggregated

/-- An evaluator of any class works on a result as its match of the resource, which may
be a remembered one, and its item test say. -/
theorem evaluate_answer (request : RangerAccessRequest) (result : RangerAccessResult) :
    (evaluator.evaluate request result).1 =
      evaluator.base.evaluateCovered evaluator.itemTest
        (evaluator.base.covers (evaluator.isMatch request.resource).1 request) request result := by
  unfold evaluate itemTest isMatch
  cases type : evaluator.type with
  | default => exact RangerDefaultPolicyEvaluator.evaluate_eq _ _ _
  | optimized => exact RangerOptimizedPolicyEvaluator.evaluate_eq _ _ _
  | cached =>
      simp only [RangerCachedPolicyEvaluator.evaluate, RangerDefaultPolicyEvaluator.evaluateWith_eq]
      by_cases determined : result.isAuditedDetermined && result.isAccessDetermined
      · rw [if_pos determined]
        rw [Bool.and_eq_true] at determined
        simp [RangerDefaultPolicyEvaluator.evaluateCovered, determined]
      · rw [if_neg determined]

variable {evaluator} {past : List RangerAccessResource}

/-- With a cache it can trust, an evaluator of any class works on a result as its
policy and its item test say, and keeps the cache sound. -/
theorem evaluate_of_trusted
    (sound : RangerCachedPolicyEvaluator.Sound evaluator.base past evaluator.cache)
    {request : RangerAccessRequest} (trusted : evaluator.Trusted past request.resource)
    (result : RangerAccessResult) :
    (evaluator.evaluate request result).1 =
        evaluator.base.evaluateCovered evaluator.itemTest (evaluator.covers request) request
          result ∧
      Continues (past ++ [request.resource]) evaluator (evaluator.evaluate request result).2 := by
  have unchanged : Continues (past ++ [request.resource]) evaluator evaluator :=
    ⟨rfl, rfl, sound.extend request.resource⟩
  unfold evaluate itemTest covers
  cases type : evaluator.type with
  | default => exact ⟨RangerDefaultPolicyEvaluator.evaluate_eq _ _ _, unchanged⟩
  | optimized => exact ⟨RangerOptimizedPolicyEvaluator.evaluate_eq _ _ _, unchanged⟩
  | cached =>
      have answer := sound.answer (trusted type)
      simp only [RangerCachedPolicyEvaluator.evaluate,
        RangerDefaultPolicyEvaluator.evaluateWith_eq, answer]
      by_cases determined : result.isAuditedDetermined && result.isAccessDetermined
      · simp only [determined, ↓reduceIte]
        refine ⟨?_, type.symm ▸ unchanged⟩
        rw [Bool.and_eq_true] at determined
        simp [RangerDefaultPolicyEvaluator.evaluateCovered, determined]
      · simp only [determined, Bool.false_eq_true, ↓reduceIte, true_and]
        exact ⟨type.symm, rfl, sound.isMatch request.resource⟩

/-- What one evaluator adds to the flags of a result. -/
theorem evaluateCovered_flags (request : RangerAccessRequest) {result : RangerAccessResult}
    (raised : result.RaisedOnly) :
    let next := evaluator.base.evaluateCovered evaluator.itemTest (evaluator.covers request)
      request result
    next.RaisedOnly ∧ next.isAllowed = (result.isAllowed || evaluator.allows request) ∧
      next.isAudited = (result.isAudited || evaluator.audits request) := by
  obtain ⟨access, audit⟩ := raised
  simp only [RangerDefaultPolicyEvaluator.evaluateCovered, itemTest_eq, allows, audits]
  cases covered : evaluator.covers request with
  | false => simpa using ⟨access, audit⟩
  | true =>
      cases allowed : result.isAllowed <;> cases audited : result.isAudited <;>
        cases granted : evaluator.grantsItem request <;>
          cases enabled : evaluator.base.policy.isAuditEnabled <;>
            simp_all <;> constructor <;> simp_all

/-- An evaluator without a match cache is the same after a request. -/
theorem evaluate_stateless (uncached : evaluator.type ≠ .cached) (request : RangerAccessRequest)
    (result : RangerAccessResult) : (evaluator.evaluate request result).2 = evaluator := by
  unfold evaluate
  cases type : evaluator.type with
  | default => rfl
  | optimized => rfl
  | cached => exact absurd type uncached

end RangerPolicyEvaluator

namespace RangerPolicyEngineImpl

open RangerPolicyEvaluator

section Loop

variable [Platform] [ClassLoader]

omit [Platform] [ClassLoader] in
private theorem settled_raises {result : RangerAccessResult} (raised : result.RaisedOnly)
    (settled : (result.isAccessDetermined && result.isAuditedDetermined) = true) :
    result.isAllowed = true ∧ result.isAudited = true := by
  rw [Bool.and_eq_true] at settled
  exact ⟨raised.access ▸ settled.1, raised.audit ▸ settled.2⟩

/-- The loop over evaluators with caches they can trust unites what they contribute. -/
theorem evaluateAll_union {past : List RangerAccessResource} {request : RangerAccessRequest}
    {evaluators : List RangerPolicyEvaluator}
    (trusted : ∀ evaluator ∈ evaluators,
      RangerCachedPolicyEvaluator.Sound evaluator.base past evaluator.cache ∧
        evaluator.Trusted past request.resource)
    {result : RangerAccessResult} (raised : result.RaisedOnly) :
    (evaluateAll request result evaluators).1.RaisedOnly ∧
      List.Forall₂ (Continues (past ++ [request.resource])) evaluators
        (evaluateAll request result evaluators).2 ∧
      (evaluateAll request result evaluators).1.isAllowed =
        (result.isAllowed || evaluators.any (·.allows request)) ∧
      (evaluateAll request result evaluators).1.isAudited =
        (result.isAudited || evaluators.any (·.audits request)) := by
  have steps : ∀ (evaluator : RangerPolicyEvaluator) (result : RangerAccessResult),
      (RangerCachedPolicyEvaluator.Sound evaluator.base past evaluator.cache ∧
        evaluator.Trusted past request.resource) → result.RaisedOnly →
      ((evaluator.evaluate request result).1.RaisedOnly ∧
        Continues (past ++ [request.resource]) evaluator (evaluator.evaluate request result).2) ∧
      (evaluator.evaluate request result).1.isAllowed =
        (result.isAllowed || evaluator.allows request) ∧
      (evaluator.evaluate request result).1.isAudited =
        (result.isAudited || evaluator.audits request) := by
    intro evaluator result ⟨sound, trust⟩ raised
    obtain ⟨answer, continues⟩ := evaluate_of_trusted sound trust result
    rw [answer]
    obtain ⟨next, allowed, audited⟩ := evaluateCovered_flags request raised
    exact ⟨⟨next, continues⟩, allowed, audited⟩
  have unused : ∀ evaluator : RangerPolicyEvaluator,
      (RangerCachedPolicyEvaluator.Sound evaluator.base past evaluator.cache ∧
        evaluator.Trusted past request.resource) →
      Continues (past ++ [request.resource]) evaluator evaluator :=
    fun evaluator ⟨sound, _⟩ => ⟨rfl, rfl, sound.extend request.resource⟩
  unfold evaluateAll
  obtain ⟨last, others⟩ := Scan.scan_invariant
    (fun evaluator result good holds => (steps evaluator result good holds).1) unused
    evaluators result trusted raised
  refine ⟨last, others, ?_, ?_⟩
  · exact Scan.observe_scan
      (fun evaluator result good holds =>
        ⟨(steps evaluator result good holds).1.1, (steps evaluator result good holds).2.1⟩)
      (fun result holds settled => (settled_raises holds settled).1) evaluators result trusted
      raised
  · exact Scan.observe_scan
      (fun evaluator result good holds =>
        ⟨(steps evaluator result good holds).1.1, (steps evaluator result good holds).2.2⟩)
      (fun result holds settled => (settled_raises holds settled).2) evaluators result trusted
      raised

theorem evaluateAll_stateless {evaluators : List RangerPolicyEvaluator}
    (uncached : ∀ evaluator ∈ evaluators, evaluator.type ≠ .cached) (request : RangerAccessRequest)
    (result : RangerAccessResult) : (evaluateAll request result evaluators).2 = evaluators := by
  have same := @Scan.scan_invariant RangerPolicyEvaluator RangerAccessResult
    (fun evaluator result => evaluator.evaluate request result)
    (fun result => result.isAccessDetermined && result.isAuditedDetermined)
    (fun _ => True) (fun evaluator => evaluator.type ≠ .cached) (fun first second => second = first)
    (fun evaluator result good _ => ⟨trivial, evaluate_stateless good request result⟩)
    (fun _ _ => rfl) evaluators result uncached trivial
  exact List.forall₂_eq_eq_eq ▸ same.2.flip

end Loop

section Engine

variable [Platform] [ClassLoader] (configuration : RangerConfiguration)

/-- The evaluators of the enabled policies, in the order of the policies. -/
def enabledEvaluators (servicePolicies : ServicePolicies) (options : RangerPolicyEngineOptions) :
    List RangerPolicyEvaluator :=
  (servicePolicies.policies.filter (·.isEnabled)).map fun policy =>
    RangerPolicyRepository.buildPolicyEvaluator configuration policy servicePolicies.serviceDef
      options

variable {configuration}

theorem policyEvaluators_perm {servicePolicies : ServicePolicies}
    {options : RangerPolicyEngineOptions} :
    (create configuration servicePolicies options).policyRepository.policyEvaluators.Perm
      (enabledEvaluators configuration servicePolicies options) :=
  List.perm_insertionSort _ _

theorem mem_policyEvaluators {servicePolicies : ServicePolicies}
    {options : RangerPolicyEngineOptions} {evaluator : RangerPolicyEvaluator} :
    evaluator ∈ (create configuration servicePolicies options).policyRepository.policyEvaluators ↔
      ∃ policy ∈ servicePolicies.policies, policy.isEnabled = true ∧
        RangerPolicyRepository.buildPolicyEvaluator configuration policy
          servicePolicies.serviceDef options = evaluator := by
  rw [policyEvaluators_perm.mem_iff, enabledEvaluators, List.mem_map]
  simp only [List.mem_filter, and_assoc]

/-- A new engine's caches are empty, so they mislead nobody. -/
theorem sound_of_mem_create {servicePolicies : ServicePolicies}
    {options : RangerPolicyEngineOptions} {evaluator : RangerPolicyEvaluator}
    (member : evaluator ∈
      (create configuration servicePolicies options).policyRepository.policyEvaluators) :
    RangerCachedPolicyEvaluator.Sound evaluator.base [] evaluator.cache := by
  obtain ⟨policy, _, _, rfl⟩ := mem_policyEvaluators.mp member
  exact RangerCachedPolicyEvaluator.sound_getInstance configuration

/-- Without an audit cache, the flags of a result are what the evaluators contribute. -/
theorem isAccessAllowedNoAudit_union {engine : RangerPolicyEngineImpl}
    {past : List RangerAccessResource} {request : RangerAccessRequest}
    (unremembered : engine.policyRepository.accessAuditCache = none)
    (trusted : ∀ evaluator ∈ engine.policyRepository.policyEvaluators,
      RangerCachedPolicyEvaluator.Sound evaluator.base past evaluator.cache ∧
        evaluator.Trusted past request.resource) :
    (engine.isAccessAllowedNoAudit request).1.isAllowed =
        engine.policyRepository.policyEvaluators.any (·.allows request) ∧
      (engine.isAccessAllowedNoAudit request).1.isAudited =
        engine.policyRepository.policyEvaluators.any (·.audits request) := by
  obtain ⟨_, _, allowed, audited⟩ :=
    evaluateAll_union trusted RangerAccessResult.raisedOnly_new
  simp only [isAccessAllowedNoAudit, RangerPolicyRepository.setAuditEnabledFromCache, unremembered,
    Bool.false_eq_true, ↓reduceIte, allowed, audited, Bool.false_or, and_self]

/-- Without caches, answering a request leaves the engine as it is. -/
theorem isAccessAllowedNoAudit_stateless {engine : RangerPolicyEngineImpl}
    (unremembered : engine.policyRepository.accessAuditCache = none)
    (uncached : ∀ evaluator ∈ engine.policyRepository.policyEvaluators,
      evaluator.type ≠ .cached) (request : RangerAccessRequest) :
    (engine.isAccessAllowedNoAudit request).2 = engine := by
  have same := evaluateAll_stateless uncached request {}
  simp only [isAccessAllowedNoAudit, RangerPolicyRepository.setAuditEnabledFromCache, unremembered,
    Bool.false_eq_true, ↓reduceIte, same, RangerPolicyRepository.storeAuditEnabledInCache,
    Option.map_none, ite_self]
  rw [← unremembered]

end Engine

section Union

variable [Platform] [ClassLoader]

/-- The result an engine gives for a request after it has answered others. -/
def verdict (configuration : RangerConfiguration) (servicePolicies : ServicePolicies)
    (options : RangerPolicyEngineOptions) (history : List RangerAccessRequest)
    (request : RangerAccessRequest) : RangerAccessResult :=
  ((Run.final (fun engine request => isAccessAllowedNoAudit engine request)
    (create configuration servicePolicies options) history).isAccessAllowedNoAudit request).1

/-- The policy matches the resource of a request or, for an any-access request,
the head of the resource. -/
def Reaches (serviceDef : RangerServiceDef) (options : RangerPolicyEngineOptions)
    (request : RangerAccessRequest) (policy : RangerPolicy) : Prop :=
  let evaluator := RangerDefaultPolicyEvaluator.init policy serviceDef options
  evaluator.isMatch request.resource = true ∨
    (request.isAccessTypeAny = true ∧ evaluator.matchResourceHead request.resource = true)

/-- An item of the policy passes every test of the item loop. -/
def Grants (serviceDef : RangerServiceDef) (options : RangerPolicyEngineOptions)
    (request : RangerAccessRequest) (policy : RangerPolicy) : Prop :=
  let evaluator := RangerDefaultPolicyEvaluator.init policy serviceDef options
  ∃ policyItem ∈ evaluator.policy.policyItems, evaluator.grants request policyItem = true

/-- The verdict as a union of what enabled policies contribute, with what follows
for reordered and for larger policy lists. -/
structure IsUnion (configuration : RangerConfiguration) (servicePolicies : ServicePolicies)
    (options : RangerPolicyEngineOptions) (history : List RangerAccessRequest)
    (request : RangerAccessRequest) : Prop where
  allowed : (verdict configuration servicePolicies options history request).isAllowed = true ↔
    ∃ policy ∈ servicePolicies.policies, policy.isEnabled = true ∧
      Reaches servicePolicies.serviceDef options request policy ∧
      Grants servicePolicies.serviceDef options request policy
  audited : (verdict configuration servicePolicies options history request).isAudited = true ↔
    ∃ policy ∈ servicePolicies.policies, policy.isEnabled = true ∧
      Reaches servicePolicies.serviceDef options request policy ∧ policy.isAuditEnabled = true
  anyOrder : ∀ policies, policies.Perm servicePolicies.policies →
    let reordered := verdict configuration { servicePolicies with policies := policies } options
      history request
    let original := verdict configuration servicePolicies options history request
    reordered.isAllowed = original.isAllowed ∧ reordered.isAudited = original.isAudited
  monotone : ∀ policies, servicePolicies.policies ⊆ policies →
    let larger := verdict configuration { servicePolicies with policies := policies } options
      history request
    let original := verdict configuration servicePolicies options history request
    (original.isAllowed = true → larger.isAllowed = true) ∧
      (original.isAudited = true → larger.isAudited = true)

variable {configuration : RangerConfiguration} {servicePolicies : ServicePolicies}
  {options : RangerPolicyEngineOptions}

omit [ClassLoader] in
theorem reaches_iff {policy : RangerPolicy} {serviceDef : RangerServiceDef}
    {request : RangerAccessRequest} :
    Reaches serviceDef options request policy ↔
      (RangerDefaultPolicyEvaluator.init policy serviceDef options).covers
        ((RangerDefaultPolicyEvaluator.init policy serviceDef options).isMatch request.resource)
        request = true := by
  simp only [Reaches, RangerDefaultPolicyEvaluator.covers, Bool.or_eq_true, Bool.and_eq_true]

omit [ClassLoader] in
theorem covers_iff {policy : RangerPolicy} {serviceDef : RangerServiceDef}
    {request : RangerAccessRequest} :
    (RangerPolicyRepository.buildPolicyEvaluator configuration policy serviceDef options).covers
        request = true ↔ Reaches serviceDef options request policy := by
  rw [reaches_iff]
  rfl

theorem allows_iff (uncached : EvaluatorType.ofName options.evaluatorType ≠ .cached)
    {policy : RangerPolicy} {serviceDef : RangerServiceDef} {request : RangerAccessRequest} :
    (RangerPolicyRepository.buildPolicyEvaluator configuration policy serviceDef options).allows
        request = true ↔
      Reaches serviceDef options request policy ∧ Grants serviceDef options request policy ∧
        (EvaluatorType.ofName options.evaluatorType = .optimized →
          RangerOptimizedPolicyEvaluator.admitsAccess
            (RangerDefaultPolicyEvaluator.init policy serviceDef options)
            request.accessType = true) := by
  rw [RangerPolicyEvaluator.allows, Bool.and_eq_true, covers_iff]
  simp only [grantsItem, RangerPolicyRepository.buildPolicyEvaluator, Grants, Bool.and_eq_true,
    List.any_eq_true, Bool.or_eq_true, beq_iff_eq]
  cases type : EvaluatorType.ofName options.evaluatorType with
  | default => simp
  | optimized => simp
  | cached => exact absurd type uncached

/-- The item test of an evaluator of any class counts where the aggregated access types
admit the request. -/
theorem allows_iff_of_admitted {policy : RangerPolicy} {serviceDef : RangerServiceDef}
    {request : RangerAccessRequest}
    (admitted : RangerOptimizedPolicyEvaluator.admitsAccess
      (RangerDefaultPolicyEvaluator.init policy serviceDef options) request.accessType = true) :
    (RangerPolicyRepository.buildPolicyEvaluator configuration policy serviceDef options).allows
        request = true ↔
      Reaches serviceDef options request policy ∧ Grants serviceDef options request policy := by
  rw [RangerPolicyEvaluator.allows, Bool.and_eq_true, covers_iff, grantsItem]
  change _ ∧ (_ && (_ || RangerOptimizedPolicyEvaluator.admitsAccess
      (RangerDefaultPolicyEvaluator.init policy serviceDef options) _)) = true ↔ _
  rw [admitted, Bool.or_true, Bool.and_true, List.any_eq_true]
  rfl

/-- The first answer of a new engine, whatever the class of its evaluators. -/
theorem isAllowed_create_iff {request : RangerAccessRequest} :
    ((create configuration servicePolicies options).isAccessAllowedNoAudit
        request).1.isAllowed = true ↔
      ∃ policy ∈ servicePolicies.policies, policy.isEnabled = true ∧
        (RangerPolicyRepository.buildPolicyEvaluator configuration policy
          servicePolicies.serviceDef options).allows request = true := by
  have trusted : ∀ evaluator ∈
      (create configuration servicePolicies options).policyRepository.policyEvaluators,
      RangerCachedPolicyEvaluator.Sound evaluator.base [] evaluator.cache ∧
        evaluator.Trusted [] request.resource :=
    fun evaluator member => ⟨sound_of_mem_create member, fun _ _ earlier => nomatch earlier⟩
  have union := (evaluateAll_union trusted RangerAccessResult.raisedOnly_new).2.2.1
  have answer : ((create configuration servicePolicies options).isAccessAllowedNoAudit
      request).1.isAllowed =
        (evaluateAll request {} (create configuration servicePolicies
          options).policyRepository.policyEvaluators).1.isAllowed := by
    cases cached : options.cacheAuditResults with
    | false => simp [isAccessAllowedNoAudit, create, RangerPolicyRepository.create,
        RangerPolicyRepository.setAuditEnabledFromCache, cached]
    | true => simp [isAccessAllowedNoAudit, create, RangerPolicyRepository.create,
        RangerPolicyRepository.setAuditEnabledFromCache, cached, BoundedMap.get,
        BoundedMap.ofCapacity]
  rw [answer, union, Bool.false_or, List.any_eq_true]
  simp only [mem_policyEvaluators]
  constructor
  · rintro ⟨evaluator, ⟨policy, listed, enabled, rfl⟩, allowed⟩
    exact ⟨policy, listed, enabled, allowed⟩
  · rintro ⟨policy, listed, enabled, allowed⟩
    exact ⟨_, ⟨policy, listed, enabled, rfl⟩, allowed⟩

theorem verdict_eq (uncached : EvaluatorType.ofName options.evaluatorType ≠ .cached)
    (unremembered : options.cacheAuditResults = false) (history : List RangerAccessRequest)
    (request : RangerAccessRequest) :
    verdict configuration servicePolicies options history request =
      ((create configuration servicePolicies options).isAccessAllowedNoAudit request).1 := by
  have noAuditCache :
      (create configuration servicePolicies options).policyRepository.accessAuditCache = none := by
    simp [create, RangerPolicyRepository.create, unremembered]
  have stateless := isAccessAllowedNoAudit_stateless noAuditCache fun evaluator member => by
    obtain ⟨policy, _, _, rfl⟩ := mem_policyEvaluators.mp member
    exact uncached
  unfold verdict
  induction history with
  | nil => rfl
  | cons earlier rest ih => rw [Run.final, stateless, ih]

/-- What an engine without caches answers, policy by policy. -/
theorem verdict_flags (configuration : RangerConfiguration) (servicePolicies : ServicePolicies)
    (uncached : EvaluatorType.ofName options.evaluatorType ≠ .cached)
    (unremembered : options.cacheAuditResults = false) (history : List RangerAccessRequest)
    (request : RangerAccessRequest) :
    ((verdict configuration servicePolicies options history request).isAllowed = true ↔
      ∃ policy ∈ servicePolicies.policies, policy.isEnabled = true ∧
        Reaches servicePolicies.serviceDef options request policy ∧
        Grants servicePolicies.serviceDef options request policy ∧
        (EvaluatorType.ofName options.evaluatorType = .optimized →
          RangerOptimizedPolicyEvaluator.admitsAccess
            (RangerDefaultPolicyEvaluator.init policy servicePolicies.serviceDef options)
            request.accessType = true)) ∧
    ((verdict configuration servicePolicies options history request).isAudited = true ↔
      ∃ policy ∈ servicePolicies.policies, policy.isEnabled = true ∧
        Reaches servicePolicies.serviceDef options request policy ∧
        policy.isAuditEnabled = true) := by
  have noAuditCache :
      (create configuration servicePolicies options).policyRepository.accessAuditCache = none := by
    simp [create, RangerPolicyRepository.create, unremembered]
  have trusted : ∀ evaluator ∈
      (create configuration servicePolicies options).policyRepository.policyEvaluators,
      RangerCachedPolicyEvaluator.Sound evaluator.base [] evaluator.cache ∧
        evaluator.Trusted [] request.resource := by
    intro evaluator member
    refine ⟨sound_of_mem_create member, fun _ earlier presented => ?_⟩
    cases presented
  obtain ⟨allowed, audited⟩ := isAccessAllowedNoAudit_union noAuditCache trusted
  rw [verdict_eq uncached unremembered, allowed, audited]
  simp only [List.any_eq_true, mem_policyEvaluators]
  constructor
  · constructor
    · rintro ⟨evaluator, ⟨policy, listed, enabled, rfl⟩, contributes⟩
      exact ⟨policy, listed, enabled, (allows_iff uncached).mp contributes⟩
    · rintro ⟨policy, listed, enabled, contributes⟩
      exact ⟨_, ⟨policy, listed, enabled, rfl⟩, (allows_iff uncached).mpr contributes⟩
  · constructor
    · rintro ⟨evaluator, ⟨policy, listed, enabled, rfl⟩, contributes⟩
      rw [audits, Bool.and_eq_true, covers_iff] at contributes
      exact ⟨policy, listed, enabled, contributes⟩
    · rintro ⟨policy, listed, enabled, reaches, audit⟩
      refine ⟨_, ⟨policy, listed, enabled, rfl⟩, ?_⟩
      rw [audits, Bool.and_eq_true, covers_iff]
      exact ⟨reaches, audit⟩

/-- **The verdict is a union.** With the audit cache off and default or optimized
evaluators, an engine's flags are the union over its enabled policies, whatever
was asked before, exactly when with optimized evaluators some policy that
contributes an access also lets the request past its aggregated access types. -/
theorem verdict_isUnion_iff (uncached : EvaluatorType.ofName options.evaluatorType ≠ .cached)
    (unremembered : options.cacheAuditResults = false) (history : List RangerAccessRequest)
    (request : RangerAccessRequest) :
    IsUnion configuration servicePolicies options history request ↔
      (EvaluatorType.ofName options.evaluatorType = .optimized →
        (∃ policy ∈ servicePolicies.policies, policy.isEnabled = true ∧
          Reaches servicePolicies.serviceDef options request policy ∧
          Grants servicePolicies.serviceDef options request policy) →
        ∃ policy ∈ servicePolicies.policies, policy.isEnabled = true ∧
          Reaches servicePolicies.serviceDef options request policy ∧
          Grants servicePolicies.serviceDef options request policy ∧
          RangerOptimizedPolicyEvaluator.admitsAccess
            (RangerDefaultPolicyEvaluator.init policy servicePolicies.serviceDef options)
            request.accessType = true) := by
  have flags : ∀ policies, _ ∧ _ := fun policies =>
    verdict_flags configuration { servicePolicies with policies := policies } uncached
      unremembered history request
  constructor
  · intro union optimized contributed
    obtain ⟨policy, listed, enabled, reaches, grants, admits⟩ :=
      (flags servicePolicies.policies).1.mp (union.allowed.mpr contributed)
    exact ⟨policy, listed, enabled, reaches, grants, admits optimized⟩
  · intro admitted
    refine ⟨?_, (flags servicePolicies.policies).2, ?_, ?_⟩
    · refine (flags servicePolicies.policies).1.trans ⟨?_, ?_⟩
      · rintro ⟨policy, listed, enabled, reaches, grants, _⟩
        exact ⟨policy, listed, enabled, reaches, grants⟩
      · intro contributed
        by_cases optimized : EvaluatorType.ofName options.evaluatorType = .optimized
        · obtain ⟨policy, listed, enabled, reaches, grants, admits⟩ :=
            admitted optimized contributed
          exact ⟨policy, listed, enabled, reaches, grants, fun _ => admits⟩
        · obtain ⟨policy, listed, enabled, reaches, grants⟩ := contributed
          exact ⟨policy, listed, enabled, reaches, grants, fun same => absurd same optimized⟩
    · intro policies reordered
      constructor
      · rw [Bool.eq_iff_iff, (flags policies).1, (flags servicePolicies.policies).1]
        simp only [reordered.mem_iff]
      · rw [Bool.eq_iff_iff, (flags policies).2, (flags servicePolicies.policies).2]
        simp only [reordered.mem_iff]
    · intro policies larger
      constructor
      · intro allowed
        obtain ⟨policy, listed, contributes⟩ := (flags servicePolicies.policies).1.mp allowed
        exact (flags policies).1.mpr ⟨policy, larger listed, contributes⟩
      · intro audited
        obtain ⟨policy, listed, contributes⟩ := (flags servicePolicies.policies).2.mp audited
        exact (flags policies).2.mpr ⟨policy, larger listed, contributes⟩

end Union

section Spelling

attribute [local instance] Platform.ascii ClassLoader.addresses

open RangerOptimizedPolicyEvaluator (capitalPolicy pathServiceDef requestToRead)

def capitalPolicies : ServicePolicies where
  serviceName := "cluster"
  serviceDef := pathServiceDef
  policies := [capitalPolicy]

def optimizedOptions : RangerPolicyEngineOptions where
  evaluatorType := "optimized"
  cacheAuditResults := false

/-- The only policy reaches and grants the request, and the engine does not allow it. -/
theorem capital_access_denied :
    (verdict ∅ capitalPolicies optimizedOptions [] requestToRead).isAllowed = false ∧
      capitalPolicy ∈ capitalPolicies.policies ∧ capitalPolicy.isEnabled = true ∧
      Reaches pathServiceDef optimizedOptions requestToRead capitalPolicy ∧
      Grants pathServiceDef optimizedOptions requestToRead capitalPolicy := by
  refine ⟨by decide, List.mem_singleton.mpr rfl, rfl, Or.inl (by decide), ?_⟩
  exact ⟨{ accesses := [{ type := "Read" }], users := ["alice"] }, by decide, by decide⟩

theorem capital_verdict_isUnion_iff :
    IsUnion ∅ capitalPolicies optimizedOptions [] requestToRead ↔
      (EvaluatorType.ofName optimizedOptions.evaluatorType = .optimized →
        (∃ policy ∈ capitalPolicies.policies, policy.isEnabled = true ∧
          Reaches pathServiceDef optimizedOptions requestToRead policy ∧
          Grants pathServiceDef optimizedOptions requestToRead policy) →
        ∃ policy ∈ capitalPolicies.policies, policy.isEnabled = true ∧
          Reaches pathServiceDef optimizedOptions requestToRead policy ∧
          Grants pathServiceDef optimizedOptions requestToRead policy ∧
          RangerOptimizedPolicyEvaluator.admitsAccess
            (RangerDefaultPolicyEvaluator.init policy pathServiceDef optimizedOptions)
            requestToRead.accessType = true) :=
  verdict_isUnion_iff (by decide) rfl [] requestToRead

end Spelling

end RangerPolicyEngineImpl

end Ranger

import Ranger.PolicyEngine.AnyAccess
import Ranger.PolicyEngine.AuditCache

/-! # What an engine says of a request

An engine that allows a request names a policy. As long as its caches do not mislead it, it
allows what one of its policies allows, it names such a policy, and it audits what one of
them audits, whatever it has answered before.
-/

namespace Ranger

open Foundation

namespace RangerPolicyEngineImpl

open RangerPolicyEvaluator

variable [Platform] [ClassLoader]

/-- What a result says about access, as far as it goes back to evaluators. -/
structure Attributed (evaluators : List RangerPolicyEvaluator) (request : RangerAccessRequest)
    (result : RangerAccessResult) : Prop where
  raised : result.isAccessDetermined = result.isAllowed
  granted : result.isAllowed = true → ∃ evaluator ∈ evaluators,
    evaluator.allows request = true ∧
      result.policyId = evaluator.base.policy.id.getD UNKNOWN_POLICY
  denied : result.isAllowed = false → result.policyId = UNKNOWN_POLICY

section Loop

variable {evaluators : List RangerPolicyEvaluator} {evaluator : RangerPolicyEvaluator}
  {past : List RangerAccessResource} {request : RangerAccessRequest} {result : RangerAccessResult}

omit [Platform] [ClassLoader] in
/-- What one evaluator does to the access half of a result. -/
theorem evaluateCovered_access (base : RangerDefaultPolicyEvaluator)
    {itemTest : RangerAccessRequest → RangerAccessResult → RangerAccessResult}
    {granted : Bool} (test : ∀ result, itemTest request result =
      if granted then (result.setIsAllowed true).setPolicyId base.policy.id else result)
    (covered : Bool) (raised : result.isAccessDetermined = result.isAllowed) :
    let next := base.evaluateCovered itemTest covered request result
    next.isAccessDetermined = next.isAllowed ∧
      (next.isAllowed = result.isAllowed ∧ next.policyId = result.policyId ∨
        covered = true ∧ granted = true ∧ next.isAllowed = true ∧
          next.policyId = base.policy.id.getD UNKNOWN_POLICY) := by
  simp only [RangerDefaultPolicyEvaluator.evaluateCovered, test]
  cases covered with
  | false => simp [raised]
  | true =>
      cases allowed : result.isAllowed <;> cases granted <;> cases result.isAuditedDetermined <;>
        cases base.policy.isAuditEnabled <;>
          simp [raised, allowed, RangerAccessResult.setPolicyId, RangerAccessResult.setIsAllowed,
            RangerAccessResult.setIsAudited]

theorem Attributed.evaluate (attributed : Attributed evaluators request result)
    (listed : evaluator ∈ evaluators)
    (sound : RangerCachedPolicyEvaluator.Sound evaluator.base past evaluator.cache)
    (trusted : evaluator.Trusted past request.resource) :
    Attributed evaluators request (evaluator.evaluate request result).1 := by
  rw [(evaluate_of_trusted sound trusted result).1]
  obtain ⟨raised, same | ⟨covered, granted, allowed, id⟩⟩ := evaluateCovered_access
    evaluator.base (evaluator.itemTest_eq request) (evaluator.covers request) attributed.raised
  · obtain ⟨allowed, id⟩ := same
    refine ⟨raised, ?_, ?_⟩
    · rw [allowed, id]
      exact attributed.granted
    · rw [allowed, id]
      exact attributed.denied
  · refine ⟨raised, fun _ => ⟨evaluator, listed, ?_, id⟩, fun denied => ?_⟩
    · rw [allows, covered, granted]
      rfl
    · rw [allowed] at denied
      cases denied

theorem Attributed.evaluateAll (attributed : Attributed evaluators request result)
    (trusted : ∀ evaluator ∈ evaluators,
      RangerCachedPolicyEvaluator.Sound evaluator.base past evaluator.cache ∧
        evaluator.Trusted past request.resource) :
    Attributed evaluators request (evaluateAll request result evaluators).1 := by
  have loop := @Scan.scan_invariant RangerPolicyEvaluator RangerAccessResult
    (fun evaluator result => evaluator.evaluate request result)
    (fun result => result.isAccessDetermined && result.isAuditedDetermined)
    (Attributed evaluators request) (· ∈ evaluators) (fun _ _ => True)
    (fun evaluator result listed holds =>
      ⟨holds.evaluate listed (trusted evaluator listed).1 (trusted evaluator listed).2, trivial⟩)
    (fun _ _ => trivial) evaluators result (fun _ listed => listed) attributed
  exact loop.1

/-- What an engine answers goes back to its evaluators. -/
theorem isAccessAllowedNoAudit_attributed {engine : RangerPolicyEngineImpl}
    (trusted : ∀ evaluator ∈ engine.policyRepository.policyEvaluators,
      RangerCachedPolicyEvaluator.Sound evaluator.base past evaluator.cache ∧
        evaluator.Trusted past request.resource) :
    Attributed engine.policyRepository.policyEvaluators request
      (engine.isAccessAllowedNoAudit request).1 := by
  unfold isAccessAllowedNoAudit RangerPolicyRepository.setAuditEnabledFromCache
  have fresh : ∀ result : RangerAccessResult, result.isAccessDetermined = false →
      result.isAllowed = false → result.policyId = UNKNOWN_POLICY →
      Attributed engine.policyRepository.policyEvaluators request result := by
    intro result undetermined denied unknown
    refine ⟨undetermined.trans denied.symm, fun allowed => ?_, fun _ => unknown⟩
    rw [denied] at allowed
    cases allowed
  cases engine.policyRepository.accessAuditCache with
  | none => exact (fresh {} rfl rfl rfl).evaluateAll trusted
  | some accessAuditCache =>
      dsimp only
      cases (accessAuditCache.get
        (request.resource.getAsString engine.policyRepository.serviceDef)).1 with
      | none => exact (fresh {} rfl rfl rfl).evaluateAll trusted
      | some value => exact (fresh _ rfl rfl rfl).evaluateAll trusted

/-- An evaluator that is not misled answers as its policy does. -/
theorem answers_of_trusted
    (sound : RangerCachedPolicyEvaluator.Sound evaluator.base past evaluator.cache)
    (trusted : evaluator.Trusted past request.resource) :
    evaluator.answers request = evaluator.allows request := by
  unfold answers allows covers isMatch
  cases type : evaluator.type with
  | default => rfl
  | optimized => rfl
  | cached =>
      dsimp only
      rw [sound.answer (trusted type)]

/-- An engine that is not misled allows what one of its evaluators allows. -/
theorem isAllowed_of_trusted {engine : RangerPolicyEngineImpl}
    (trusted : ∀ evaluator ∈ engine.policyRepository.policyEvaluators,
      RangerCachedPolicyEvaluator.Sound evaluator.base past evaluator.cache ∧
        evaluator.Trusted past request.resource) :
    (engine.isAccessAllowedNoAudit request).1.isAllowed = true ↔
      ∃ evaluator ∈ engine.policyRepository.policyEvaluators, evaluator.allows request = true := by
  rw [(engine.isAccessAllowedNoAudit_loop request).1, List.any_eq_true]
  refine exists_congr fun evaluator => and_congr_right fun listed => ?_
  rw [answers_of_trusted (trusted evaluator listed).1 (trusted evaluator listed).2]

end Loop

section Built

variable (alike : RangerAccessRequest → Prop) (servicePolicies : ServicePolicies)
  (options : RangerPolicyEngineOptions)

/-- An engine of the policies that has answered requests of some kind. -/
structure Built (engine : RangerPolicyEngineImpl) : Prop where
  serviceName : engine.policyRepository.serviceName = servicePolicies.serviceName
  past : ∃ past, (∀ earlier ∈ past, alike earlier) ∧
    Evaluators servicePolicies options (past.map (·.resource)) engine ∧
    ∀ accessAuditCache, engine.policyRepository.accessAuditCache = some accessAuditCache →
      Remembers servicePolicies options past accessAuditCache

/-- What the policies say of a request, with the policy that the result names. -/
structure Says (configuration : RangerConfiguration) (request : RangerAccessRequest)
    (result : RangerAccessResult) : Prop where
  allowed : result.isAllowed = true ↔ ∃ policy ∈ servicePolicies.policies,
    AllowedBy configuration servicePolicies options request policy
  audited : result.isAudited = true ↔ AuditedBy servicePolicies options request
  named : result.isAllowed = true → ∃ policy ∈ servicePolicies.policies,
    AllowedBy configuration servicePolicies options request policy ∧
      result.policyId = policy.id.getD UNKNOWN_POLICY
  unnamed : result.isAllowed = false → result.policyId = UNKNOWN_POLICY

variable {alike servicePolicies options} {engine : RangerPolicyEngineImpl}
  {request : RangerAccessRequest}

theorem built_create (configuration : RangerConfiguration) :
    Built alike servicePolicies options (create configuration servicePolicies options) where
  serviceName := rfl
  past := by
    refine ⟨[], fun _ listed => (by cases listed),
      evaluators_create configuration options.cacheAuditResults, fun accessAuditCache kept => ?_⟩
    cases remembering : options.cacheAuditResults with
    | false => simp [create, RangerPolicyRepository.create, remembering] at kept
    | true =>
        simp only [create, RangerPolicyRepository.create, remembering, ↓reduceIte] at kept
        rw [← Option.some.inj kept]
        exact remembers_ofCapacity _

/-- A policy allows a request by itself when it is enabled and its evaluator allows it. -/
theorem allowedBy_iff_allows (configuration : RangerConfiguration) {policy : RangerPolicy} :
    AllowedBy configuration servicePolicies options request policy ↔ policy.isEnabled = true ∧
      (RangerPolicyRepository.buildPolicyEvaluator configuration policy
        servicePolicies.serviceDef options).allows request = true := by
  unfold AllowedBy verdict
  rw [Run.final, isAllowed_create_iff]
  simp only [List.mem_singleton, exists_eq_left]

/-- The evaluators allow what the policies do. -/
theorem Evaluators.exists_allows_iff {past : List RangerAccessResource}
    (evaluators : Evaluators servicePolicies options past engine)
    (configuration : RangerConfiguration) (id : Option Int → Prop) :
    (∃ evaluator ∈ engine.policyRepository.policyEvaluators,
        evaluator.allows request = true ∧ id evaluator.base.policy.id) ↔
      ∃ policy ∈ servicePolicies.policies,
        AllowedBy configuration servicePolicies options request policy ∧ id policy.id := by
  have same : ∀ evaluator ∈ engine.policyRepository.policyEvaluators, ∀ policy,
      RangerDefaultPolicyEvaluator.init policy servicePolicies.serviceDef options =
        evaluator.base →
      evaluator.allows request = (RangerPolicyRepository.buildPolicyEvaluator configuration policy
        servicePolicies.serviceDef options).allows request ∧
        evaluator.base.policy.id = policy.id := by
    intro evaluator listed policy base
    have type := evaluators.type evaluator listed
    unfold allows covers grantsItem
    rw [← base, type]
    exact ⟨rfl, rfl⟩
  constructor
  · rintro ⟨evaluator, listed, allowed, holds⟩
    obtain ⟨policy, member, enabled, base⟩ :=
      (evaluators.base evaluator.base).mp (List.mem_map_of_mem listed)
    obtain ⟨allows, named⟩ := same evaluator listed policy base
    refine ⟨policy, member, (allowedBy_iff_allows configuration).mpr ⟨enabled, ?_⟩, named ▸ holds⟩
    rw [← allows, allowed]
  · rintro ⟨policy, member, allowed, holds⟩
    obtain ⟨enabled, allowed⟩ := (allowedBy_iff_allows configuration).mp allowed
    obtain ⟨evaluator, listed, base⟩ :=
      List.mem_map.mp ((evaluators.base _).mpr ⟨policy, member, enabled, rfl⟩)
    obtain ⟨allows, named⟩ := same evaluator listed policy base.symm
    exact ⟨evaluator, listed, allows.trans allowed, named.symm ▸ holds⟩

/-- An answer leaves the service of an engine as it is. -/
theorem serviceName_isAccessAllowedNoAudit (engine : RangerPolicyEngineImpl)
    (request : RangerAccessRequest) :
    (engine.isAccessAllowedNoAudit request).2.policyRepository.serviceName =
      engine.policyRepository.serviceName := by
  have stored : ∀ (repository : RangerPolicyRepository) (result : RangerAccessResult),
      (repository.storeAuditEnabledInCache request result).serviceName =
        repository.serviceName := by
    intro repository result
    unfold RangerPolicyRepository.storeAuditEnabledInCache
    split
    · rfl
    · rfl
  unfold isAccessAllowedNoAudit RangerPolicyRepository.setAuditEnabledFromCache
  cases engine.policyRepository.accessAuditCache with
  | none => exact stored _ _
  | some accessAuditCache =>
      dsimp only
      cases (accessAuditCache.get
        (request.resource.getAsString engine.policyRepository.serviceDef)).1 with
      | none => exact stored _ _
      | some value => rfl

/-- An engine without an audit cache keeps its evaluators. -/
theorem Evaluators.next_of_unremembered {past : List RangerAccessResource}
    (evaluators : Evaluators servicePolicies options past engine)
    (unremembered : engine.policyRepository.accessAuditCache = none)
    (trusted : ∀ evaluator ∈ engine.policyRepository.policyEvaluators,
      RangerCachedPolicyEvaluator.Sound evaluator.base past evaluator.cache ∧
        evaluator.Trusted past request.resource) :
    Evaluators servicePolicies options (past ++ [request.resource])
        (engine.isAccessAllowedNoAudit request).2 ∧
      (engine.isAccessAllowedNoAudit request).2.policyRepository.accessAuditCache = none := by
  obtain ⟨_, continues, _⟩ := evaluateAll_union trusted RangerAccessResult.raisedOnly_new
  have next : (engine.isAccessAllowedNoAudit request).2 =
      ⟨{ engine.policyRepository with
          policyEvaluators := (evaluateAll request {} engine.policyRepository.policyEvaluators).2
          accessAuditCache := none }⟩ := by
    simp only [isAccessAllowedNoAudit, RangerPolicyRepository.setAuditEnabledFromCache,
      unremembered, Bool.false_eq_true, ↓reduceIte,
      RangerPolicyRepository.storeAuditEnabledInCache, Option.map_none, ite_self]
  rw [next]
  exact ⟨evaluators.continue rfl continues, rfl⟩

/-- **What an engine says.** Whatever requests of its kind an engine has answered, it says of
the next one what its policies say. -/
theorem Built.answer (built : Built alike servicePolicies options engine)
    (harmless : ∀ earlier later, alike earlier → alike later →
      Harmless servicePolicies options earlier later)
    (configuration : RangerConfiguration) (kind : alike request) :
    Says servicePolicies options configuration request (engine.isAccessAllowedNoAudit request).1 ∧
      Built alike servicePolicies options (engine.isAccessAllowedNoAudit request).2 := by
  obtain ⟨serviceName, past, earlier, evaluators, remembers⟩ := built
  have unmisled : ∀ before ∈ past, Harmless servicePolicies options before request :=
    fun before listed => harmless before request (earlier before listed) kind
  have trusted := evaluators.trusted fun matching before listed =>
    (unmisled before listed).isMatch matching
  have attributed := isAccessAllowedNoAudit_attributed trusted
  have kinds : ∀ before ∈ past ++ [request], alike before := by
    intro before listed
    rcases List.mem_append.mp listed with behind | last
    · exact earlier before behind
    · rw [List.mem_singleton.mp last]
      exact kind
  have next : ((engine.isAccessAllowedNoAudit request).1.isAudited = true ↔
        AuditedBy servicePolicies options request) ∧
      Evaluators servicePolicies options ((past ++ [request]).map (·.resource))
        (engine.isAccessAllowedNoAudit request).2 ∧
      ∀ accessAuditCache,
        (engine.isAccessAllowedNoAudit request).2.policyRepository.accessAuditCache =
          some accessAuditCache →
        Remembers servicePolicies options (past ++ [request]) accessAuditCache := by
    cases cached : engine.policyRepository.accessAuditCache with
    | none =>
        obtain ⟨kept, still⟩ := evaluators.next_of_unremembered cached trusted
        refine ⟨?_, by rwa [List.map_append, List.map_singleton], fun _ impossible => ?_⟩
        · rw [(isAccessAllowedNoAudit_union cached trusted).2]
          exact evaluators.any_audits request
        · rw [still] at impossible
          cases impossible
    | some accessAuditCache =>
        have remembering : Remembering servicePolicies options past engine :=
          ⟨evaluators, accessAuditCache, cached, remembers accessAuditCache cached⟩
        obtain ⟨audited, kept, other, left, still⟩ :=
          remembering.step configuration request unmisled
        refine ⟨by rw [audited, auditFlagAlone_iff], kept, fun found same => ?_⟩
        rw [left] at same
        rw [← Option.some.inj same]
        exact still
  refine ⟨⟨?_, next.1, ?_, attributed.denied⟩, ?_, past ++ [request], kinds, next.2⟩
  · rw [isAllowed_of_trusted trusted]
    simpa using evaluators.exists_allows_iff configuration fun _ => True
  · intro allowed
    exact (evaluators.exists_allows_iff configuration fun id =>
      (engine.isAccessAllowedNoAudit request).1.policyId = id.getD UNKNOWN_POLICY).mp
        (attributed.granted allowed)
  · exact (serviceName_isAccessAllowedNoAudit engine request).trans serviceName

end Built

end RangerPolicyEngineImpl

end Ranger

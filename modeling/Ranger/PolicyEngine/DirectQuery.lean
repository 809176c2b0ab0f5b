import Ranger.PolicyEngine.AnyAccess
import Ranger.PolicyEvaluator.ImpliedGrants

/-! # The direct query and the request

The admin server asks an engine about a resource, a user and an access type, and the
plugins ask with a request. The direct query looks at the items first and at the resource
afterwards, the request the other way round, and both may use the same match caches. For
policies without item conditions they answer alike.
-/

namespace Ranger

open Foundation RangerDefaultPolicyEvaluator

/-- None of the items has a condition. -/
def RangerPolicy.Unconditional (policy : RangerPolicy) : Prop :=
  ∀ policyItem ∈ policy.policyItems, policyItem.conditions = []

section Items

variable [Platform]

theorem RangerPolicy.Unconditional.init {policy : RangerPolicy}
    (unconditional : policy.Unconditional) (serviceDef : RangerServiceDef)
    (options : RangerPolicyEngineOptions) :
    (RangerDefaultPolicyEvaluator.init policy serviceDef options).policy.Unconditional := by
  intro policyItem member
  obtain ⟨original, listed, rfl⟩ := List.mem_map.mp member
  rw [preprocessPolicyItem_eq]
  exact unconditional original listed

variable [ClassLoader]

/-- The two loops over the items ask the same of an item without conditions. -/
theorem grants_eq_allows (evaluator : RangerDefaultPolicyEvaluator)
    {request : RangerAccessRequest} (specific : request.accessType ≠ ANY_ACCESS)
    {policyItem : RangerPolicyItem} (unconditional : policyItem.conditions = []) :
    evaluator.grants request policyItem =
      allows request.user request.userGroups request.accessType policyItem := by
  have notAny : request.isAccessTypeAny = false := beq_eq_false_iff_ne.mpr specific
  have anyCondition : matchCustomConditions policyItem request evaluator.getConditionEvaluators =
      true := by
    rw [matchCustomConditions, unconditional]
    rfl
  unfold grants allows
  rw [Bool.and_comm]
  by_cases admin : request.accessType = ADMIN_ACCESS
  · have delegated : request.isAccessTypeDelegatedAdmin = true := beq_iff_eq.mpr admin
    rw [if_pos delegated, if_pos admin]
  · have ordinary : request.isAccessTypeDelegatedAdmin = false := beq_eq_false_iff_ne.mpr admin
    rw [if_neg (Bool.eq_false_iff.mp ordinary), if_neg (Bool.eq_false_iff.mp notAny),
      if_neg admin, if_neg specific, anyCondition, Bool.and_true]

end Items

namespace RangerPolicyEvaluator

variable [Platform] [ClassLoader]

/-- The items of an evaluator of any class admit a user and an access type to the direct
query when they grant the request. -/
theorem isUserAccessAllowed_eq_grantsItem {evaluator : RangerPolicyEvaluator}
    (unconditional : evaluator.base.policy.Unconditional) {request : RangerAccessRequest}
    (named : request.accessType ≠ "") (specific : request.accessType ≠ ANY_ACCESS) :
    evaluator.isUserAccessAllowed request.user request.userGroups request.accessType =
      evaluator.grantsItem request := by
  have nonempty : request.accessType.isEmpty = false := by
    rw [Bool.eq_false_iff, ne_eq, String.isEmpty_iff]
    exact named
  have items : evaluator.base.isAccessAllowed request.user request.userGroups request.accessType =
      evaluator.base.policy.policyItems.any (evaluator.base.grants request) := by
    simp only [RangerDefaultPolicyEvaluator.isAccessAllowed, nonempty, Bool.false_eq_true,
      ↓reduceIte]
    rw [Bool.eq_iff_iff, List.any_eq_true, List.any_eq_true]
    refine exists_congr fun policyItem => and_congr_right fun member => ?_
    rw [grants_eq_allows evaluator.base specific (unconditional policyItem member)]
  have aggregated : RangerOptimizedPolicyEvaluator.isAccessAllowed evaluator.base request.user
      request.userGroups request.accessType =
        (evaluator.base.policy.policyItems.any (evaluator.base.grants request) &&
          RangerOptimizedPolicyEvaluator.admitsAccess evaluator.base request.accessType) := by
    simp only [RangerOptimizedPolicyEvaluator.isAccessAllowed, nonempty, Bool.false_eq_true,
      ↓reduceIte, items]
    cases admitted :
        RangerOptimizedPolicyEvaluator.admitsAccess evaluator.base request.accessType with
    | false => simp
    | true =>
        -- a granting item names the user, so the aggregated users let the user through
        cases granted : evaluator.base.policy.policyItems.any (evaluator.base.grants request) with
        | false => simp
        | true =>
            obtain ⟨policyItem, member, grantsIt⟩ := List.any_eq_true.mp granted
            simp only [RangerDefaultPolicyEvaluator.grants, Bool.and_eq_true] at grantsIt
            have user := RangerOptimizedPolicyEvaluator.admitsUser_of_matchUserGroup
              evaluator.base member grantsIt.1
            rw [if_pos user]
            rfl
  unfold isUserAccessAllowed grantsItem
  cases evaluator.type with
  | default => exact items.trans (Bool.and_true _).symm
  | optimized => exact aggregated
  | cached => exact aggregated

/-- The direct query of one evaluator answers as the evaluator answers the request. -/
theorem isAccessAllowed_eq_answers {evaluator : RangerPolicyEvaluator}
    (unconditional : evaluator.base.policy.Unconditional) {request : RangerAccessRequest}
    (named : request.accessType ≠ "") (specific : request.accessType ≠ ANY_ACCESS) :
    (evaluator.isAccessAllowed request.resource request.user request.userGroups
      request.accessType).1 = evaluator.answers request := by
  have notAny : request.isAccessTypeAny = false := beq_eq_false_iff_ne.mpr specific
  unfold isAccessAllowed answers
  rw [isUserAccessAllowed_eq_grantsItem unconditional named specific]
  cases granted : evaluator.grantsItem request <;>
    simp [RangerDefaultPolicyEvaluator.covers, notAny]

omit [ClassLoader] in
theorem base_isMatch (evaluator : RangerPolicyEvaluator) (resource : RangerAccessResource) :
    (evaluator.isMatch resource).2.base = evaluator.base := by
  unfold isMatch
  cases evaluator.type <;> rfl

omit [ClassLoader] in
theorem base_isAccessAllowed (evaluator : RangerPolicyEvaluator) (resource : RangerAccessResource)
    (user : Option String) (userGroups : List String) (accessType : String) :
    (evaluator.isAccessAllowed resource user userGroups accessType).2.base = evaluator.base := by
  unfold isAccessAllowed
  split
  · exact base_isMatch evaluator resource
  · rfl

theorem base_evaluate (evaluator : RangerPolicyEvaluator) (request : RangerAccessRequest)
    (result : RangerAccessResult) :
    (evaluator.evaluate request result).2.base = evaluator.base := by
  unfold evaluate
  cases evaluator.type <;> rfl

end RangerPolicyEvaluator

namespace RangerPolicyEngineImpl

open RangerPolicyEvaluator

variable [Platform] [ClassLoader]

/-- What an engine may be asked: about a resource directly, or with a request. -/
inductive EngineQuery where
  | resource (resource : RangerAccessResource) (user : Option String) (userGroups : List String)
      (accessType : String)
  | request (request : RangerAccessRequest)

def ask (engine : RangerPolicyEngineImpl) : EngineQuery → Bool × RangerPolicyEngineImpl
  | .resource resource user userGroups accessType =>
      engine.isAccessAllowed resource user userGroups accessType
  | .request request =>
      let (result, engine) := engine.isAccessAllowedNoAudit request
      (result.isAllowed, engine)

/-- None of the policies of an engine has an item with a condition. -/
def Unconditional (engine : RangerPolicyEngineImpl) : Prop :=
  ∀ evaluator ∈ engine.policyRepository.policyEvaluators, evaluator.base.policy.Unconditional

omit [Platform] [ClassLoader] in
/-- Evaluators that keep their policies keep them unconditional. -/
private theorem unconditional_of_bases {first second : List RangerPolicyEvaluator}
    (kept : List.Forall₂ (fun before after => after.base = before.base) first second)
    (unconditional : ∀ evaluator ∈ first, evaluator.base.policy.Unconditional) :
    ∀ evaluator ∈ second, evaluator.base.policy.Unconditional := by
  intro evaluator member
  obtain ⟨before, listed, same⟩ := Scan.exists_of_mem kept member
  exact same ▸ unconditional before listed

/-- A query leaves the policies of an engine as they are. -/
theorem Unconditional.ask {engine : RangerPolicyEngineImpl} (unconditional : engine.Unconditional)
    (query : EngineQuery) : (engine.ask query).2.Unconditional := by
  cases query with
  | resource resource user userGroups accessType =>
      refine unconditional_of_bases (@Scan.scan_invariant RangerPolicyEvaluator Bool
        (fun evaluator _ => evaluator.isAccessAllowed resource user userGroups accessType) id
        (fun _ => True) (fun _ => True) (fun before after => after.base = before.base)
        (fun evaluator _ _ _ => ⟨trivial, base_isAccessAllowed ..⟩) (fun _ _ => rfl) _ false
        (fun _ _ => trivial) trivial).2 unconditional
  | request request =>
      obtain ⟨_, result, left⟩ := engine.isAccessAllowedNoAudit_loop request
      change ∀ evaluator ∈ (engine.isAccessAllowedNoAudit request).2.policyRepository.policyEvaluators,
        evaluator.base.policy.Unconditional
      rw [left]
      refine unconditional_of_bases (@Scan.scan_invariant RangerPolicyEvaluator RangerAccessResult
        (fun evaluator result => evaluator.evaluate request result)
        (fun result => result.isAccessDetermined && result.isAuditedDetermined)
        (fun _ => True) (fun _ => True) (fun before after => after.base = before.base)
        (fun evaluator _ _ _ => ⟨trivial, base_evaluate ..⟩) (fun _ _ => rfl) _ result
        (fun _ _ => trivial) trivial).2 unconditional

theorem Unconditional.create {servicePolicies : ServicePolicies}
    (unconditional : ∀ policy ∈ servicePolicies.policies, policy.Unconditional)
    (configuration : RangerConfiguration) (options : RangerPolicyEngineOptions) :
    (RangerPolicyEngineImpl.create configuration servicePolicies options).Unconditional := by
  intro evaluator member
  obtain ⟨policy, listed, _, rfl⟩ := mem_policyEvaluators.mp member
  exact (unconditional policy listed).init servicePolicies.serviceDef options

theorem Unconditional.final {engine : RangerPolicyEngineImpl}
    (unconditional : engine.Unconditional) (history : List EngineQuery) :
    (Run.final RangerPolicyEngineImpl.ask engine history).Unconditional := by
  induction history generalizing engine with
  | nil => exact unconditional
  | cons query _ ih => exact ih (unconditional.ask query)

/-- In any state, an engine answers the direct query as it answers the request. -/
theorem isAccessAllowed_eq_request {engine : RangerPolicyEngineImpl}
    (unconditional : engine.Unconditional) {request : RangerAccessRequest}
    (named : request.accessType ≠ "") (specific : request.accessType ≠ ANY_ACCESS) :
    (engine.isAccessAllowed request.resource request.user request.userGroups
      request.accessType).1 = (engine.isAccessAllowedNoAudit request).1.isAllowed := by
  have direct := Scan.scan_test (fun evaluator : RangerPolicyEvaluator =>
    evaluator.isAccessAllowed request.resource request.user request.userGroups request.accessType)
    engine.policyRepository.policyEvaluators
  rw [(engine.isAccessAllowedNoAudit_loop request).1]
  refine direct.trans ?_
  rw [Bool.eq_iff_iff, List.any_eq_true, List.any_eq_true]
  refine exists_congr fun evaluator => and_congr_right fun member => ?_
  rw [isAccessAllowed_eq_answers (unconditional evaluator member) named specific]

/-- **The two evaluation paths agree.** An engine over policies without item conditions
answers the direct query for a specific or a delegated-admin access as it answers the
request built from the same values, whatever it was asked before and whatever it
remembers. -/
theorem directQuery_iff_request (configuration : RangerConfiguration)
    {servicePolicies : ServicePolicies} (options : RangerPolicyEngineOptions)
    (unconditional : ∀ policy ∈ servicePolicies.policies, policy.Unconditional)
    (history : List EngineQuery) (resource : RangerAccessResource) (user : Option String)
    (userGroups : List String) {accessType : String} (named : accessType ≠ "")
    (specific : accessType ≠ ANY_ACCESS) :
    let engine := Run.final ask (create configuration servicePolicies options) history
    (engine.isAccessAllowed resource user userGroups accessType).1 = true ↔
      (engine.isAccessAllowedNoAudit
        (.create resource accessType user userGroups)).1.isAllowed = true := by
  intro engine
  have within : engine.Unconditional :=
    (Unconditional.create unconditional configuration options).final history
  have carried : RangerAccessRequest.setAccessType accessType = accessType := by
    unfold RangerAccessRequest.setAccessType
    rw [if_neg fun empty => named (String.isEmpty_iff.mp empty)]
  have same := @isAccessAllowed_eq_request _ _ _ within
    (.create resource accessType user userGroups) (by rwa [RangerAccessRequest.create, carried])
    (by rwa [RangerAccessRequest.create, carried])
  rw [← same, RangerAccessRequest.create, carried]

end RangerPolicyEngineImpl

section Remembered

attribute [local instance] Platform.ascii ClassLoader.addresses

open RangerPolicyEngineImpl

/-- After a request for the whole database, the direct query for a table and the request
for it agree. -/
theorem directQuery_orders :
    let engine := Run.final ask (create ∅ ordersPolicies {})
      [.request { ordersRequest with resource := salesDatabase, accessType := ANY_ACCESS }]
    (engine.isAccessAllowed ordersRequest.resource (some "alice") [] "select").1 = true ↔
      (engine.isAccessAllowedNoAudit
        (.create ordersRequest.resource "select" (some "alice") [])).1.isAllowed = true :=
  directQuery_iff_request ∅ {}
    (fun policy listed policyItem member => by
      rw [List.mem_singleton.mp listed] at member
      rw [List.mem_singleton.mp member])
    _ _ _ _ (by decide) (by decide)

end Remembered

end Ranger

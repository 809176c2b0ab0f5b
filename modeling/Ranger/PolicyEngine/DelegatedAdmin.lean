import Ranger.PolicyEngine.Verdict
import Ranger.PolicyEvaluator.ImpliedGrants

/-! # Delegated administration by the engine

For delegated admin every evaluator class asks the same of a policy: an item that
delegates to the user, and a match of the resource map.
-/

namespace Ranger

open Foundation RangerDefaultPolicyEvaluator

variable [Platform]

section Evaluator

/-- Adding implied grants does not change whom a policy delegates to. -/
theorem delegates_init (policy : RangerPolicy) (serviceDef : RangerServiceDef)
    (options : RangerPolicyEngineOptions) (user : Option String) (groups : List String) :
    Delegates (init policy serviceDef options).policy user groups ↔
      Delegates policy user groups := by
  have kept : ∀ policyItem : RangerPolicyItem,
      (matchUserGroup (preprocessPolicyItem serviceDef policyItem) user groups =
        matchUserGroup policyItem user groups) ∧
      (preprocessPolicyItem serviceDef policyItem).delegateAdmin = policyItem.delegateAdmin := by
    intro policyItem
    rw [preprocessPolicyItem_eq]
    exact ⟨rfl, rfl⟩
  simp only [Delegates, init, preprocessPolicy, List.mem_map, exists_exists_and_eq_and, kept]

theorem isUserAccessAllowed_admin_iff (evaluator : RangerPolicyEvaluator) {user : Option String}
    {userGroups : List String} :
    evaluator.isUserAccessAllowed user userGroups ADMIN_ACCESS = true ↔
      Delegates evaluator.base.policy user userGroups := by
  rw [← isAccessAllowed_admin_iff]
  have optimized : RangerOptimizedPolicyEvaluator.isAccessAllowed evaluator.base user userGroups
      ADMIN_ACCESS = true ↔ evaluator.base.isAccessAllowed user userGroups ADMIN_ACCESS = true := by
    have named : (if ADMIN_ACCESS.isEmpty then ANY_ACCESS else ADMIN_ACCESS) = ADMIN_ACCESS := rfl
    simp only [RangerOptimizedPolicyEvaluator.isAccessAllowed, named]
    constructor
    · intro allowed
      split at allowed
      · split at allowed
        · exact allowed
        · cases allowed
      · cases allowed
    · intro allowed
      obtain ⟨policyItem, member, matched, admin⟩ := (isAccessAllowed_admin_iff _).mp allowed
      have user_admitted :=
        RangerOptimizedPolicyEvaluator.admitsUser_of_matchUserGroup evaluator.base member matched
      have access_admitted :
          RangerOptimizedPolicyEvaluator.admitsAccess evaluator.base ADMIN_ACCESS = true := by
        have delegating : RangerOptimizedPolicyEvaluator.delegateAdmin evaluator.base = true :=
          List.any_eq_true.mpr ⟨policyItem, member, admin⟩
        simp [RangerOptimizedPolicyEvaluator.admitsAccess, delegating]
      rw [if_pos user_admitted, if_pos access_admitted]
      exact allowed
  unfold RangerPolicyEvaluator.isUserAccessAllowed
  cases evaluator.type with
  | default => exact Iff.rfl
  | optimized => exact optimized
  | cached => exact optimized

end Evaluator

namespace RangerPolicyEngineImpl

/-- What `isAccessAllowed(RangerAccessResource, ...)` answers for delegated admin. -/
theorem isAccessAllowed_admin_iff (engine : RangerPolicyEngineImpl)
    {resource : RangerAccessResource} {user : Option String} {userGroups : List String} :
    (engine.isAccessAllowed resource user userGroups ADMIN_ACCESS).1 = true ↔
      ∃ evaluator ∈ engine.policyRepository.policyEvaluators,
        Delegates evaluator.base.policy user userGroups ∧
          (evaluator.isMatch resource).1 = true := by
  have answer := Scan.scan_test (fun evaluator : RangerPolicyEvaluator =>
    evaluator.isAccessAllowed resource user userGroups ADMIN_ACCESS)
    engine.policyRepository.policyEvaluators
  have asked : ∀ evaluator : RangerPolicyEvaluator,
      (evaluator.isAccessAllowed resource user userGroups ADMIN_ACCESS).1 = true ↔
        Delegates evaluator.base.policy user userGroups ∧
          (evaluator.isMatch resource).1 = true := by
    intro evaluator
    rw [← isUserAccessAllowed_admin_iff, RangerPolicyEvaluator.isAccessAllowed]
    by_cases delegating :
        evaluator.isUserAccessAllowed user userGroups ADMIN_ACCESS = true
    · simp [delegating]
    · simp [delegating]
  change (Scan.scan _ _ _ _).1 = true ↔ _
  rw [answer, List.any_eq_true]
  simp only [asked]

/-- What `isAccessAllowed(Map, ...)` answers for delegated admin, by the evaluators. -/
theorem isMapAccessAllowed_admin_iff (engine : RangerPolicyEngineImpl)
    {resources : AssocMap String RangerPolicyResource} {user : Option String}
    {userGroups : List String} :
    engine.isMapAccessAllowed resources user userGroups ADMIN_ACCESS = true ↔
      ∃ evaluator ∈ engine.policyRepository.policyEvaluators,
        Delegates evaluator.base.policy user userGroups ∧
          evaluator.base.isMatchMap resources = true := by
  simp only [isMapAccessAllowed, RangerPolicyEvaluator.isMapAccessAllowed, List.any_eq_true,
    Bool.and_eq_true, isUserAccessAllowed_admin_iff]

/-- **Delegated admin by a new engine.** A resource map is administered by whoever
an enabled policy that matches the map delegates to. -/
theorem isMapAccessAllowed_create_iff [ClassLoader] (configuration : RangerConfiguration)
    (servicePolicies : ServicePolicies) (options : RangerPolicyEngineOptions)
    {resources : AssocMap String RangerPolicyResource} {user : Option String}
    {userGroups : List String} :
    (create configuration servicePolicies options).isMapAccessAllowed resources user userGroups
        ADMIN_ACCESS = true ↔
      ∃ policy ∈ servicePolicies.policies, policy.isEnabled = true ∧
        Delegates policy user userGroups ∧
        (init policy servicePolicies.serviceDef options).isMatchMap resources = true := by
  rw [isMapAccessAllowed_admin_iff]
  simp only [mem_policyEvaluators]
  constructor
  · rintro ⟨evaluator, ⟨policy, listed, enabled, rfl⟩, delegates, matched⟩
    exact ⟨policy, listed, enabled, (delegates_init ..).mp delegates, matched⟩
  · rintro ⟨policy, listed, enabled, delegates, matched⟩
    exact ⟨_, ⟨policy, listed, enabled, rfl⟩, (delegates_init ..).mpr delegates, matched⟩

end RangerPolicyEngineImpl

end Ranger

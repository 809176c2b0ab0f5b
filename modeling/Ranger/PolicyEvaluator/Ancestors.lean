import Ranger.PolicyEvaluator.Conditions
import Ranger.PolicyEvaluator.Levels

/-! # Any access on the ancestors of a resource

An ancestor keeps the upper set levels of a resource. A policy that matches the
resource matches the head of every ancestor, as long as the resource skips none
of the policy's levels, and an item that grants one access grants some access.
-/

namespace Ranger

open Foundation

/-- The classes look at who asks and in which context, not at what is asked for. -/
def ClassLoader.ReadsContext [ClassLoader] : Prop :=
  ∀ className evaluatorClass, ClassLoader.newConditionEvaluator className = some evaluatorClass →
    ∀ conditionDef condition (request : RangerAccessRequest) resource accessType,
      evaluatorClass conditionDef condition
          { request with resource := resource, accessType := accessType } =
        evaluatorClass conditionDef condition request

theorem ClassLoader.addresses_readsContext [Platform] :
    @ClassLoader.ReadsContext ClassLoader.addresses := by
  intro className evaluatorClass found conditionDef condition request resource accessType
  obtain ⟨_, same⟩ := Option.ite_none_right_eq_some.mp found
  rw [← Option.some.inj same]
  rfl

namespace RangerAccessResource

/-- The resource has a name at a level. -/
def Has (resource : RangerAccessResource) (resourceDef : RangerResourceDef) : Prop :=
  isEmptyValue (resource.getValue resourceDef.name) = false

instance (resource : RangerAccessResource) (resourceDef : RangerResourceDef) :
    Decidable (resource.Has resourceDef) :=
  inferInstanceAs (Decidable (isEmptyValue (resource.getValue resourceDef.name) = false))

/-- The second resource keeps the names of an initial segment of the set levels of
the first one. -/
structure IsAncestor (serviceDef : RangerServiceDef)
    (resource ancestor : RangerAccessResource) : Prop where
  keys : ∀ name ∈ ancestor.getKeys, name ∈ resource.getKeys
  values : ∀ name, ancestor.getValue name = resource.getValue name ∨
    isEmptyValue (ancestor.getValue name) = true
  segment : serviceDef.resources.Pairwise fun higher lower =>
    resource.Has higher → ancestor.Has lower → ancestor.Has higher

end RangerAccessResource

namespace RangerDefaultPolicyEvaluator

open RangerAccessResource

/-- No level of the policy is unset in the resource above one that is set. -/
def HasNoGap (evaluator : RangerDefaultPolicyEvaluator) (resource : RangerAccessResource) : Prop :=
  evaluator.serviceDef.resources.Pairwise fun higher lower =>
    evaluator.matchers.containsKey higher.name = true →
      evaluator.matchers.containsKey lower.name = true → resource.Has lower → resource.Has higher

section Head

variable [Platform] {evaluator : RangerDefaultPolicyEvaluator} {resource : RangerAccessResource}

/-- The head is matched when the set levels of the policy match and none of them
lies below an unset one. -/
private theorem matchHeadLoop_of_levels {levels : List RangerResourceDef} {skipped : Bool}
    (matching : ∀ resourceDef ∈ levels, ∀ matcher,
      evaluator.matchers.get? resourceDef.name = some matcher → resource.Has resourceDef →
        matcher.isMatch (resource.getValue resourceDef.name) = true)
    (closed : levels.Pairwise fun higher lower =>
      evaluator.matchers.containsKey higher.name = true →
        evaluator.matchers.containsKey lower.name = true → resource.Has lower →
          resource.Has higher)
    (behind : skipped = true → ∀ resourceDef ∈ levels,
      evaluator.matchers.containsKey resourceDef.name = true → ¬ resource.Has resourceDef) :
    evaluator.matchHeadLoop resource skipped levels = true := by
  induction levels generalizing skipped with
  | nil => rfl
  | cons resourceDef rest ih =>
      obtain ⟨first, others⟩ := List.pairwise_cons.mp closed
      have restMatching := fun lower (member : lower ∈ rest) =>
        matching lower (List.mem_cons_of_mem _ member)
      unfold matchHeadLoop
      cases found : evaluator.matchers.get? resourceDef.name with
      | none =>
          exact ih restMatching others fun skip lower member =>
            behind skip lower (List.mem_cons_of_mem _ member)
      | some matcher =>
          have constrained := (evaluator.containsKey_matchers_iff _).mpr ⟨matcher, found⟩
          by_cases unset : isEmptyValue (resource.getValue resourceDef.name) = true
          · simp only [unset, ↓reduceIte]
            apply ih restMatching others
            intro _ lower member lowerConstrained set
            have here := first lower member constrained lowerConstrained set
            unfold Has at here
            rw [unset] at here
            cases here
          · have set : resource.Has resourceDef := Bool.eq_false_iff.mpr unset
            have noSkip : skipped = false := by
              apply Bool.eq_false_iff.mpr
              intro skip
              exact behind skip resourceDef List.mem_cons_self constrained set
            have matched := matching resourceDef List.mem_cons_self matcher found set
            simp only [unset, noSkip, matched, Bool.false_eq_true, ↓reduceIte]
            apply ih restMatching others
            intro skip
            cases skip

omit [Platform] in
/-- Every level of a policy whose names the service knows has a matcher. -/
theorem size_matchers (known : ∀ name ∈ evaluator.policy.resources.keys,
    ∃ resourceDef ∈ evaluator.serviceDef.resources, resourceDef.name = name) :
    evaluator.matchers.size = evaluator.policy.resources.size := by
  have sameKeys : evaluator.matchers.keys.Perm evaluator.policy.resources.keys := by
    apply (List.perm_ext_iff_of_nodup evaluator.matchers.nodup
      evaluator.policy.resources.nodup).mpr
    intro name
    have left : name ∈ evaluator.matchers.keys ↔ (evaluator.matchers.get? name).isSome = true :=
      AssocMap.isSome_get?_iff.symm
    have right : name ∈ evaluator.policy.resources.keys ↔
        (evaluator.policy.resources.get? name).isSome = true := AssocMap.isSome_get?_iff.symm
    change name ∈ evaluator.matchers.keys ↔ name ∈ evaluator.policy.resources.keys
    constructor
    · intro key
      obtain ⟨matcher, found⟩ := Option.isSome_iff_exists.mp (left.mp key)
      obtain ⟨_, policyResource, _, given, _⟩ := matcher_parts found
      rw [right, given]
      rfl
    · intro key
      obtain ⟨resourceDef, member, rfl⟩ := known name key
      obtain ⟨definition, defined⟩ := Option.isSome_iff_exists.mp (isSome_levelDef member)
      obtain ⟨policyResource, given⟩ := Option.isSome_iff_exists.mp (right.mp key)
      rw [left, get?_matchers, defined, Option.bind_some, given]
      rfl
  have lengths := sameKeys.length_eq
  rwa [AssocMap.keys, AssocMap.keys, List.length_map, List.length_map] at lengths

/-- **Heads of a matched resource.** A policy whose levels the service knows matches
the head of every ancestor of a resource it matches without a gap. -/
theorem matchResourceHead_of_isAncestor
    (known : ∀ name ∈ evaluator.policy.resources.keys,
      ∃ resourceDef ∈ evaluator.serviceDef.resources, resourceDef.name = name)
    (matched : evaluator.isMatch resource = true) (noGap : evaluator.HasNoGap resource)
    {ancestor : RangerAccessResource}
    (above : IsAncestor evaluator.serviceDef resource ancestor) :
    evaluator.matchResourceHead ancestor = true := by
  unfold isMatch at matched
  simp only [Bool.and_eq_true, List.all_eq_true] at matched
  have keys : evaluator.keysMatch ancestor.getKeys = true := by
    apply List.all_eq_true.mpr
    intro name key
    exact List.all_eq_true.mp matched.1.1 name (above.keys name key)
  have kept : ∀ resourceDef, ancestor.Has resourceDef →
      ancestor.getValue resourceDef.name = resource.getValue resourceDef.name := by
    intro resourceDef set
    obtain same | unset := above.values resourceDef.name
    · exact same
    · unfold Has at set
      rw [unset] at set
      cases set
  have loop : evaluator.matchHeadLoop ancestor false evaluator.serviceDef.resources = true := by
    apply matchHeadLoop_of_levels
    · intro resourceDef member matcher found set
      have level := matched.2 resourceDef member
      unfold matchesLevel at level
      rw [found] at level
      rw [kept resourceDef set]
      exact level
    · refine noGap.imp₂ ?_ above.segment
      intro higher lower below stays constrained lowerConstrained set
      have lowerSet : resource.Has lower := by
        unfold Has at set ⊢
        rwa [← kept lower set]
      exact stays (below constrained lowerConstrained lowerSet) set
    · intro skip
      cases skip
  unfold matchResourceHead
  simp only [size_matchers known, keys, loop, ne_eq, not_true_eq_false, Bool.not_true,
    Bool.false_eq_true, ↓reduceIte, ite_self]

end Head

section Items

variable [Platform] [ClassLoader] {evaluator : RangerDefaultPolicyEvaluator}

omit [Platform] in
/-- Conditions are tested alike whatever is asked for. -/
theorem matchCustomConditions_elsewhere (reads : ClassLoader.ReadsContext)
    (policyItem : RangerPolicyItem) (request : RangerAccessRequest)
    (resource : RangerAccessResource) (accessType : String) :
    matchCustomConditions policyItem { request with resource := resource, accessType := accessType }
        evaluator.getConditionEvaluators =
      matchCustomConditions policyItem request evaluator.getConditionEvaluators := by
  have alike : ∀ type conditionEvaluator,
      evaluator.getConditionEvaluators.get? type = some conditionEvaluator →
        conditionEvaluator { request with resource := resource, accessType := accessType } =
          conditionEvaluator request := by
    intro type conditionEvaluator found
    unfold getConditionEvaluators at found
    split at found
    · cases found
    · rw [get?_initializeConditionEvaluators] at found
      obtain ⟨condition, _, created⟩ := Option.bind_eq_some_iff.mp found
      unfold newEvaluatorFor at created
      split at created
      · cases created
      · next conditionDef _ =>
          obtain ⟨_, loaded⟩ := Option.ite_none_left_eq_some.mp created
          obtain ⟨evaluatorClass, resolved, rfl⟩ := Option.map_eq_some_iff.mp loaded
          exact reads _ evaluatorClass resolved conditionDef condition request resource accessType
  unfold matchCustomConditions
  congr 1
  funext itemCondition
  split
  · rfl
  · cases found : evaluator.getConditionEvaluators.get? itemCondition.type with
    | none => rfl
    | some conditionEvaluator => exact alike _ _ found

/-- An item that grants a specific access grants some access, at any resource. -/
theorem grants_any_of_grants (reads : ClassLoader.ReadsContext) {request : RangerAccessRequest}
    (specific : request.accessType ≠ ANY_ACCESS) (ordinary : request.accessType ≠ ADMIN_ACCESS)
    {policyItem : RangerPolicyItem} (granted : evaluator.grants request policyItem = true)
    (resource : RangerAccessResource) :
    evaluator.grants { request with resource := resource, accessType := ANY_ACCESS }
      policyItem = true := by
  have notAny : request.isAccessTypeAny = false := beq_eq_false_iff_ne.mpr specific
  have notAdmin : request.isAccessTypeDelegatedAdmin = false := beq_eq_false_iff_ne.mpr ordinary
  unfold grants at granted ⊢
  simp only [notAny, notAdmin, Bool.false_eq_true, ↓reduceIte, Bool.and_eq_true] at granted
  obtain ⟨named, accessible, conditions⟩ := granted
  have some_access : policyItem.accesses.any (·.isAllowed) = true := by
    cases found : getAccess policyItem request.accessType with
    | none =>
        rw [found] at accessible
        cases accessible
    | some access =>
        rw [found] at accessible
        exact List.any_eq_true.mpr ⟨access, List.mem_of_find?_eq_some found, accessible⟩
  rw [matchCustomConditions_elsewhere reads policyItem request resource ANY_ACCESS, conditions]
  simp [named, some_access, RangerAccessRequest.isAccessTypeAny,
    RangerAccessRequest.isAccessTypeDelegatedAdmin, ANY_ACCESS, ADMIN_ACCESS]

end Items

end RangerDefaultPolicyEvaluator

end Ranger

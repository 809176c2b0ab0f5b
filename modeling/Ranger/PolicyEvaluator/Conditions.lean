import Ranger.PolicyEvaluator.Default

/-! # Whose values a custom condition is checked with

The evaluators of a policy are kept by condition type. An item is therefore
checked with the values of the first condition of that type in the policy,
whichever item wrote it.
-/

namespace Ranger

open Foundation

/-- The conditions of a policy, in the order its evaluators are created. -/
def RangerPolicy.conditions (policy : RangerPolicy) : List RangerPolicyItemCondition :=
  policy.policyItems.flatMap (·.conditions)

/-- The condition of a type that is met first. -/
def RangerPolicy.firstCondition (policy : RangerPolicy) (type : String) :
    Option RangerPolicyItemCondition :=
  policy.conditions.find? fun condition => condition.type == type

namespace RangerDefaultPolicyEvaluator

/-- A condition whose class the service definition names and the class path holds. -/
def Resolvable (loadable : String → Bool) (serviceDef : RangerServiceDef)
    (condition : RangerPolicyItemCondition) : Prop :=
  ∃ conditionDef, getConditionDef serviceDef condition.type = some conditionDef ∧
    conditionDef.evaluator.isEmpty = false ∧ loadable conditionDef.evaluator = true

section Registry

variable [loader : ClassLoader]

/-- The test of an item by its own conditions: each one that can be resolved is
put to a fresh evaluator with that condition's values. -/
def ownConditionsHold (serviceDef : RangerServiceDef) (policyItem : RangerPolicyItem)
    (request : RangerAccessRequest) : Bool :=
  policyItem.conditions.all fun condition =>
    match newEvaluatorFor serviceDef condition with
    | none => true
    | some freshEvaluator => freshEvaluator request

theorem isSome_newEvaluatorFor_iff {loadable : String → Bool} {serviceDef : RangerServiceDef}
    (found : ∀ className, (loader.newConditionEvaluator className).isSome = loadable className)
    (condition : RangerPolicyItemCondition) :
    (newEvaluatorFor serviceDef condition).isSome ↔ Resolvable loadable serviceDef condition := by
  unfold newEvaluatorFor Resolvable
  cases defined : getConditionDef serviceDef condition.type with
  | none => simp
  | some conditionDef =>
      simp only [Option.some.injEq, exists_eq_left']
      cases unnamed : conditionDef.evaluator.isEmpty with
      | true => simp only [↓reduceIte, Option.isSome_none, Bool.false_eq_true, Bool.true_eq_false,
          false_and]
      | false =>
          simp only [Bool.false_eq_true, ↓reduceIte, Option.isSome_map, found, true_and]

/-- Whether a condition can be resolved depends on its type only. -/
private theorem newEvaluatorFor_eq_none {serviceDef : RangerServiceDef}
    {first second : RangerPolicyItemCondition} (same : second.type = first.type)
    (missing : newEvaluatorFor serviceDef first = none) :
    newEvaluatorFor serviceDef second = none := by
  unfold newEvaluatorFor at missing ⊢
  rw [same]
  cases defined : getConditionDef serviceDef first.type with
  | none => rfl
  | some conditionDef =>
      rw [defined] at missing
      cases unnamed : conditionDef.evaluator.isEmpty with
      | true => simp only [unnamed, ↓reduceIte]
      | false =>
          simp only [unnamed, Bool.false_eq_true, ↓reduceIte, Option.map_eq_none_iff] at missing ⊢
          exact missing

/-- The evaluators a list of conditions leads to, by condition type. -/
private def registrations (serviceDef : RangerServiceDef)
    (conditions : List RangerPolicyItemCondition) : List (String × RangerConditionEvaluator) :=
  conditions.filterMap fun condition =>
    (newEvaluatorFor serviceDef condition).map fun anEvaluator => (condition.type, anEvaluator)

private theorem addConditionEvaluator_foldl (serviceDef : RangerServiceDef)
    (conditions : List RangerPolicyItemCondition)
    (result : AssocMap String RangerConditionEvaluator) :
    conditions.foldl (addConditionEvaluator serviceDef) result =
      result.putAllIfAbsent (registrations serviceDef conditions) := by
  induction conditions generalizing result with
  | nil => rfl
  | cons condition rest ih =>
      rw [List.foldl_cons, ih]
      cases created : newEvaluatorFor serviceDef condition with
      | none => simp [addConditionEvaluator, registrations, created]
      | some anEvaluator =>
          simp [addConditionEvaluator, registrations, created, AssocMap.putAllIfAbsent,
            AssocMap.putIfAbsent]

private theorem lookup_registrations (serviceDef : RangerServiceDef)
    (conditions : List RangerPolicyItemCondition) (type : String) :
    (registrations serviceDef conditions).lookup type =
      (conditions.find? fun condition => condition.type == type).bind
        (newEvaluatorFor serviceDef) := by
  induction conditions with
  | nil => rfl
  | cons condition rest ih =>
      by_cases same : condition.type = type
      · subst same
        rw [List.find?_cons_of_pos (by simp), Option.bind_some]
        cases created : newEvaluatorFor serviceDef condition with
        | some anEvaluator => simp [registrations, created]
        | none =>
            have skipped : registrations serviceDef (condition :: rest) =
                registrations serviceDef rest := by simp [registrations, created]
            rw [skipped, ih]
            cases later : rest.find? fun other => other.type == condition.type with
            | none => rfl
            | some other =>
                have typed := List.find?_some later
                exact newEvaluatorFor_eq_none (beq_iff_eq.mp typed) created
      · rw [List.find?_cons_of_neg (by simpa using same), ← ih]
        cases created : newEvaluatorFor serviceDef condition with
        | none => simp [registrations, created]
        | some anEvaluator =>
            have different : (type == condition.type) = false := by
              simpa using fun equal => same equal.symm
            simp [registrations, created, List.lookup_cons, different]

/-- A type is registered with the values of its first condition in the policy. -/
theorem get?_initializeConditionEvaluators (policy : RangerPolicy) (serviceDef : RangerServiceDef)
    (type : String) :
    (initializeConditionEvaluators policy serviceDef).get? type =
      (policy.firstCondition type).bind (newEvaluatorFor serviceDef) := by
  unfold initializeConditionEvaluators
  rw [addConditionEvaluator_foldl, AssocMap.get?_putAllIfAbsent, AssocMap.get?_empty,
    Option.none_or, lookup_registrations]
  rfl

/-- The code's test, condition by condition. -/
theorem matchCustomConditions_eq_all (policy : RangerPolicy) (serviceDef : RangerServiceDef)
    (policyItem : RangerPolicyItem) (request : RangerAccessRequest) :
    matchCustomConditions policyItem request (initializeConditionEvaluators policy serviceDef) =
      policyItem.conditions.all fun condition =>
        isBlank condition.type ||
          match (policy.firstCondition condition.type).bind (newEvaluatorFor serviceDef) with
          | none => true
          | some conditionEvaluator => conditionEvaluator request := by
  unfold matchCustomConditions
  congr 1
  funext condition
  rw [get?_initializeConditionEvaluators]
  cases isBlank condition.type with
  | true => rfl
  | false => rfl

end Registry

/-- An item condition is one of the policy's, so its type has a first condition. -/
theorem firstCondition_of_mem {policy : RangerPolicy} {policyItem : RangerPolicyItem}
    (member : policyItem ∈ policy.policyItems) {condition : RangerPolicyItemCondition}
    (listed : condition ∈ policyItem.conditions) :
    ∃ first, policy.firstCondition condition.type = some first ∧ first.type = condition.type := by
  have present : condition ∈ policy.conditions :=
    List.mem_flatMap.mpr ⟨policyItem, member, listed⟩
  obtain ⟨first, found⟩ : ∃ first, policy.firstCondition condition.type = some first := by
    apply Option.isSome_iff_exists.mp
    exact List.find?_isSome.mpr ⟨condition, present, beq_self_eq_true _⟩
  unfold RangerPolicy.firstCondition at found
  have typed := List.find?_some found
  exact ⟨first, found, by simpa only [beq_iff_eq] using typed⟩

/-- The item's own conditions are the ones the policy's evaluators are made from. -/
def UsesOwnConditions (loadable : String → Bool) (policy : RangerPolicy)
    (serviceDef : RangerServiceDef) (policyItem : RangerPolicyItem) : Prop :=
  ∀ condition ∈ policyItem.conditions, Resolvable loadable serviceDef condition →
    isBlank condition.type = false ∧ policy.firstCondition condition.type = some condition

/-- A class path of the given classes whose instances reject one condition. -/
@[reducible] private def rejecting (loadable : String → Bool)
    (rejected : RangerPolicyItemCondition) : ClassLoader where
  newConditionEvaluator className :=
    if loadable className then some fun _ condition _ => decide (condition ≠ rejected) else none

private theorem rejecting_isSome (loadable : String → Bool)
    (rejected : RangerPolicyItemCondition) (className : String) :
    ((rejecting loadable rejected).newConditionEvaluator className).isSome =
      loadable className := by
  change (if loadable className then _ else _ : Option _).isSome = _
  cases loadable className <;> rfl

private theorem rejecting_newEvaluatorFor {loadable : String → Bool}
    {rejected condition : RangerPolicyItemCondition} {serviceDef : RangerServiceDef}
    {anEvaluator : RangerConditionEvaluator}
    (created : @newEvaluatorFor (rejecting loadable rejected) serviceDef condition =
      some anEvaluator) (request : RangerAccessRequest) :
    anEvaluator request = decide (condition ≠ rejected) := by
  unfold newEvaluatorFor at created
  cases defined : getConditionDef serviceDef condition.type with
  | none => simp only [defined, reduceCtorEq] at created
  | some conditionDef =>
      simp only [defined] at created
      split at created
      · cases created
      · obtain ⟨evaluatorClass, loaded, rfl⟩ := Option.map_eq_some_iff.mp created
        change (if loadable conditionDef.evaluator then _ else _) = _ at loaded
        split at loaded
        · cases loaded
          rfl
        · cases loaded

/-- The code's test passes a rejected condition over unless it is the first of its type. -/
private theorem matchCustomConditions_rejecting (loadable : String → Bool)
    {policy : RangerPolicy} {policyItem : RangerPolicyItem}
    (member : policyItem ∈ policy.policyItems) {condition : RangerPolicyItemCondition}
    (foreign : ¬ (isBlank condition.type = false ∧
      policy.firstCondition condition.type = some condition))
    (serviceDef : RangerServiceDef) (request : RangerAccessRequest) :
    matchCustomConditions policyItem request
      (@initializeConditionEvaluators (rejecting loadable condition) policy serviceDef) = true := by
  let loader : ClassLoader := rejecting loadable condition
  rw [matchCustomConditions_eq_all]
  apply List.all_eq_true.mpr
  intro other present
  obtain ⟨first, chosen, typed⟩ := firstCondition_of_mem member present
  rw [chosen, Option.bind_some]
  cases created : newEvaluatorFor serviceDef first with
  | none => simp
  | some anEvaluator =>
      simp only [rejecting_newEvaluatorFor created request, Bool.or_eq_true, decide_eq_true_eq]
      by_cases blank : isBlank other.type = true
      · exact Or.inl blank
      · refine Or.inr fun equal => foreign ?_
        rw [equal] at chosen typed
        rw [typed]
        exact ⟨Bool.eq_false_iff.mpr blank, chosen⟩

/-- A condition that is the first of its type if it can be resolved is tested by
its own values. -/
private theorem holds_eq_own [ClassLoader] {policy : RangerPolicy} {serviceDef : RangerServiceDef}
    {policyItem : RangerPolicyItem} (member : policyItem ∈ policy.policyItems)
    {condition : RangerPolicyItemCondition} (listed : condition ∈ policyItem.conditions)
    (first : (newEvaluatorFor serviceDef condition).isSome →
      isBlank condition.type = false ∧ policy.firstCondition condition.type = some condition)
    (request : RangerAccessRequest) :
    (isBlank condition.type ||
      match (policy.firstCondition condition.type).bind (newEvaluatorFor serviceDef) with
      | none => true
      | some conditionEvaluator => conditionEvaluator request) =
    match newEvaluatorFor serviceDef condition with
    | none => true
    | some freshEvaluator => freshEvaluator request := by
  cases created : newEvaluatorFor serviceDef condition with
  | none =>
      obtain ⟨other, chosen, typed⟩ := firstCondition_of_mem member listed
      rw [chosen, Option.bind_some, newEvaluatorFor_eq_none typed created, Bool.or_true]
  | some freshEvaluator =>
      obtain ⟨named, own⟩ := first (Option.isSome_iff_exists.mpr ⟨freshEvaluator, created⟩)
      rw [own, Option.bind_some, created, named, Bool.false_or]

/-- **Whose values are used.** The custom-condition test of an item is the test
by its own conditions, for all evaluator classes and requests, exactly when each
condition that can be resolved is the first of its type in the policy. -/
theorem matchCustomConditions_eq_own_iff (loadable : String → Bool) (policy : RangerPolicy)
    (serviceDef : RangerServiceDef) (policyItem : RangerPolicyItem)
    (member : policyItem ∈ policy.policyItems) :
    (∀ loader : ClassLoader,
      (∀ className, (loader.newConditionEvaluator className).isSome = loadable className) →
      ∀ request, matchCustomConditions policyItem request
        (initializeConditionEvaluators policy serviceDef) =
          ownConditionsHold serviceDef policyItem request) ↔
      UsesOwnConditions loadable policy serviceDef policyItem := by
  constructor
  · intro same condition listed resolvable
    by_contra foreign
    -- classes that reject this condition only, and accept whatever else they are given
    let loader : ClassLoader := rejecting loadable condition
    have found := rejecting_isSome loadable condition
    obtain ⟨ownEvaluator, own⟩ := Option.isSome_iff_exists.mp
      ((isSome_newEvaluatorFor_iff found condition).mpr resolvable)
    let request : RangerAccessRequest := { resource := {}, accessType := ANY_ACCESS, user := none }
    have rejected : ownConditionsHold serviceDef policyItem request = false := by
      apply Bool.eq_false_iff.mpr
      intro holds
      have answered := List.all_eq_true.mp holds condition listed
      simp only [own, rejecting_newEvaluatorFor own request] at answered
      simp at answered
    have agree := same loader found request
    rw [matchCustomConditions_rejecting loadable member foreign, rejected] at agree
    cases agree
  · intro uses loader found request
    rw [matchCustomConditions_eq_all]
    unfold ownConditionsHold
    apply Bool.eq_iff_iff.mpr
    simp only [List.all_eq_true]
    refine forall₂_congr fun condition listed => ?_
    rw [holds_eq_own member listed fun created =>
      uses condition listed ((isSome_newEvaluatorFor_iff found condition).mp created)]

section SharedType

attribute [local instance] Platform.ascii ClassLoader.addresses

/-- A service type with an address condition. -/
def addressServiceDef : RangerServiceDef where
  name := "knox"
  resources := [{ name := "topology" }]
  accessTypes := [{ name := "allow" }]
  policyConditions :=
    [{ name := "ip-range"
       evaluator := "org.apache.ranger.plugin.conditionevaluator.RangerIpMatcher" }]

/-- Access for a user from an address. -/
def addressItem (user address : String) : RangerPolicyItem where
  accesses := [{ type := "allow" }]
  users := [user]
  conditions := [{ type := "ip-range", values := [address] }]

/-- Two users with an address each. -/
def addressPolicy : RangerPolicy where
  resources := ⟨[("topology", { values := ["admin"] })], by decide⟩
  policyItems := [addressItem "alice" "10.0.0.1", addressItem "bob" "10.0.0.2"]

def requestFromBob : RangerAccessRequest where
  resource := { elements := some ⟨[("topology", some "admin")], by decide⟩ }
  accessType := "allow"
  user := some "bob"
  clientIPAddress := some "10.0.0.2"

/-- Bob is turned away at the address his own item names: the evaluator holds Alice's. -/
theorem second_address_ignored :
    addressItem "bob" "10.0.0.2" ∈ addressPolicy.policyItems ∧
      matchCustomConditions (addressItem "bob" "10.0.0.2") requestFromBob
        (initializeConditionEvaluators addressPolicy addressServiceDef) = false ∧
      ownConditionsHold addressServiceDef (addressItem "bob" "10.0.0.2") requestFromBob = true := by
  decide

/-- Bob's item does not use its own condition, Alice's does. -/
theorem own_conditions_of_first_address :
    (∀ loader : ClassLoader,
      (∀ className, (loader.newConditionEvaluator className).isSome = true) →
      ∀ request, matchCustomConditions (addressItem "alice" "10.0.0.1") request
        (@initializeConditionEvaluators loader addressPolicy addressServiceDef) =
          @ownConditionsHold loader addressServiceDef (addressItem "alice" "10.0.0.1") request) ↔
      UsesOwnConditions (fun _ => true) addressPolicy addressServiceDef
        (addressItem "alice" "10.0.0.1") :=
  matchCustomConditions_eq_own_iff (fun _ => true) addressPolicy addressServiceDef _ (by decide)

end SharedType

end RangerDefaultPolicyEvaluator

end Ranger

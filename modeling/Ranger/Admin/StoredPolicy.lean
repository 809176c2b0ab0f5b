import Ranger.Admin.ServiceStore
import Ranger.Foundation.Outcome
import Ranger.PolicyEvaluator.Conditions
import Ranger.PolicyEvaluator.ImpliedGrants

/-! # What a policy allows once it is stored

The store takes a policy apart into rows and reads it back from them. What the
service type does not define is left out, and the conditions of one type are read
back as one. The policy that is read back is compared with the one that was given
by the requests the default evaluator allows.
-/

namespace Ranger

open Foundation

namespace RangerDefaultPolicyEvaluator

section Grants

variable [Platform] [ClassLoader]

/-- The test of an item that was prepared, by what it is prepared from. -/
theorem grants_preprocessPolicyItem (evaluator : RangerDefaultPolicyEvaluator)
    (serviceDef : RangerServiceDef) (policyItem : RangerPolicyItem)
    (request : RangerAccessRequest) :
    evaluator.grants request (preprocessPolicyItem serviceDef policyItem) =
      (matchUserGroup policyItem request.user request.userGroups &&
        if request.isAccessTypeDelegatedAdmin then policyItem.delegateAdmin
        else
          (if request.isAccessTypeAny then
            (preprocessPolicyItem serviceDef policyItem).accesses.any (·.isAllowed)
          else
            allowedAt (preprocessPolicyItem serviceDef policyItem).accesses request.accessType) &&
          matchCustomConditions policyItem request evaluator.getConditionEvaluators) := by
  rw [preprocessPolicyItem_eq]
  unfold grants getAccess allowedAt
  cases ((getImpliedAccessGrants serviceDef).foldl impliedAccesses policyItem.accesses).find?
    fun access => equalsIgnoreCase request.accessType access.type <;> rfl

omit [Platform] [ClassLoader] in
/-- Without evaluators no condition is tested. -/
theorem matchCustomConditions_empty (policyItem : RangerPolicyItem)
    (request : RangerAccessRequest) : matchCustomConditions policyItem request ∅ = true := by
  unfold matchCustomConditions
  refine List.all_eq_true.mpr fun condition _ => ?_
  rw [AssocMap.get?_empty]
  exact ite_self true

theorem getConditionEvaluators_init (policy : RangerPolicy) (serviceDef : RangerServiceDef)
    (options : RangerPolicyEngineOptions) :
    (init policy serviceDef options).getConditionEvaluators =
      if options.disableCustomConditions then ∅
      else initializeConditionEvaluators (preprocessPolicy policy serviceDef) serviceDef := rfl

/-- A policy alone allows what is within its reach and granted by an item. -/
theorem isAllowed_evaluate (evaluator : RangerDefaultPolicyEvaluator)
    (request : RangerAccessRequest) :
    (evaluator.evaluate request {}).isAllowed =
      (evaluator.covers (evaluator.isMatch request.resource) request &&
        evaluator.policy.policyItems.any (evaluator.grants request)) := by
  rw [evaluate_eq]
  unfold evaluateCovered evaluatePolicyItemsForAccess
  cases evaluator.covers (evaluator.isMatch request.resource) request <;>
    cases evaluator.policy.policyItems.any (evaluator.grants request) <;>
      cases evaluator.policy.isAuditEnabled <;> rfl

end Grants

end RangerDefaultPolicyEvaluator

namespace ServiceDBStore

open RangerDefaultPolicyEvaluator

/-- A policy as it is read back, whatever id and version it was stored with. -/
structure ReadBack (store : ServiceDBStore) (serviceDef : RangerServiceDef)
    (policy readBack : RangerPolicy) : Prop where
  resources : readBack.resources = storedResources serviceDef policy.resources
  policyItems : readBack.policyItems = policy.policyItems.map (store.storedItem serviceDef)

section Conditions

/-- The values of all conditions of a type. -/
def valuesOf (conditions : List RangerPolicyItemCondition) (type : String) : List String :=
  (conditions.filter (·.type == type)).flatMap (·.values)

/-- The values a type is read back with. -/
def mergedValues (conditions : List RangerPolicyItemCondition) (type : String) : List String :=
  (((conditions.filter (·.type == type)).flatMap (·.values.zipIdx)).insertionSort
    fun first second => first.2 ≤ second.2).map (·.1)

theorem storedConditions_eq (serviceDef : RangerServiceDef)
    (conditions : List RangerPolicyItemCondition) :
    storedConditions serviceDef conditions =
      serviceDef.policyConditions.flatMap fun conditionDef =>
        (mergedValues conditions conditionDef.name).map fun _ =>
          ⟨conditionDef.name, mergedValues conditions conditionDef.name⟩ := rfl

/-- Values are read back in another order, none lost. -/
theorem mergedValues_perm (conditions : List RangerPolicyItemCondition) (type : String) :
    (mergedValues conditions type).Perm (valuesOf conditions type) := by
  unfold mergedValues valuesOf
  refine ((List.perm_insertionSort _ _).map _).trans (List.Perm.of_eq ?_)
  rw [List.map_flatMap]
  exact List.flatMap_congr fun condition _ => List.zipIdx_map_fst 0 condition.values

/-- The values of a condition without another one of its type come back as they were. -/
theorem mergedValues_of_first {conditions : List RangerPolicyItemCondition} {type : String}
    {first : RangerPolicyItemCondition}
    (found : conditions.find? (·.type == type) = some first)
    (alone : valuesOf conditions type = first.values) :
    mergedValues conditions type = first.values := by
  have split : ∃ others, conditions.filter (·.type == type) = first :: others := by
    cases kept : conditions.filter (·.type == type) with
    | nil =>
        have none := List.filter_eq_nil_iff.mp kept first (List.mem_of_find?_eq_some found)
        exact absurd (List.find?_some found) none
    | cons head others =>
        have same := List.head?_filter (p := (·.type == type)) (l := conditions)
        rw [kept, found, List.head?_cons, Option.some.injEq] at same
        exact ⟨others, by rw [same]⟩
  obtain ⟨others, split⟩ := split
  unfold valuesOf at alone
  rw [split, List.flatMap_cons, List.append_right_eq_self] at alone
  have bare : others.flatMap (·.values.zipIdx) = [] := by
    rw [List.flatMap_eq_nil_iff] at alone ⊢
    intro other member
    rw [alone other member]
    rfl
  have sorted : (first.values.zipIdx).Pairwise fun one two => one.2 ≤ two.2 := by
    have places : (first.values.zipIdx.map (·.2)).Pairwise (· ≤ ·) := by
      rw [List.zipIdx_map_snd]
      exact List.pairwise_le_range'
    exact List.pairwise_map.mp places
  unfold mergedValues
  rw [split, List.flatMap_cons, bare, List.append_nil, sorted.insertionSort_eq,
    List.zipIdx_map_fst]

theorem mem_storedConditions {serviceDef : RangerServiceDef}
    {conditions : List RangerPolicyItemCondition} {condition : RangerPolicyItemCondition} :
    condition ∈ storedConditions serviceDef conditions ↔
      (∃ conditionDef ∈ serviceDef.policyConditions, conditionDef.name = condition.type) ∧
        valuesOf conditions condition.type ≠ [] ∧
          condition.values = mergedValues conditions condition.type := by
  have bare : ∀ type, mergedValues conditions type ≠ [] ↔ valuesOf conditions type ≠ [] := by
    intro type
    rw [← List.length_pos_iff, ← List.length_pos_iff, (mergedValues_perm conditions type).length_eq]
  rw [storedConditions_eq, List.mem_flatMap]
  constructor
  · rintro ⟨conditionDef, defined, listed⟩
    obtain ⟨value, present, rfl⟩ := List.mem_map.mp listed
    exact ⟨⟨conditionDef, defined, rfl⟩, (bare _).mp (List.ne_nil_of_mem present), rfl⟩
  · rintro ⟨⟨conditionDef, defined, named⟩, filled, values⟩
    obtain ⟨value, present⟩ := List.exists_mem_of_ne_nil _ ((bare _).mpr filled)
    refine ⟨conditionDef, defined, List.mem_map.mpr ⟨value, named ▸ present, ?_⟩⟩
    rw [named, ← values]

/-- What is read back of a type. -/
theorem find?_storedConditions {serviceDef : RangerServiceDef} {type : String}
    (defined : ∃ conditionDef ∈ serviceDef.policyConditions, conditionDef.name = type)
    (conditions : List RangerPolicyItemCondition) :
    (storedConditions serviceDef conditions).find? (·.type == type) =
      if valuesOf conditions type = [] then none
      else some ⟨type, mergedValues conditions type⟩ := by
  split
  · next bare =>
      refine List.find?_eq_none.mpr fun condition listed same => ?_
      rw [beq_iff_eq] at same
      exact (mem_storedConditions.mp listed).2.1 (same ▸ bare)
  · next filled =>
      have listed : ⟨type, mergedValues conditions type⟩ ∈
          storedConditions serviceDef conditions :=
        mem_storedConditions.mpr ⟨defined, filled, rfl⟩
      have present : ((storedConditions serviceDef conditions).find? (·.type == type)).isSome :=
        List.find?_isSome.mpr ⟨_, listed, beq_self_eq_true type⟩
      obtain ⟨condition, found⟩ := Option.isSome_iff_exists.mp present
      have same : condition.type = type := by simpa using List.find?_some found
      have values := (mem_storedConditions.mp (List.mem_of_find?_eq_some found)).2.2
      rw [found, ← same, ← values]

variable [ClassLoader]

/-- A condition type the engine tests: its class is named and found. -/
def Enforced (serviceDef : RangerServiceDef) (type : String) : Prop :=
  isBlank type = false ∧ (newEvaluatorFor serviceDef ⟨type, []⟩).isSome = true

theorem isSome_newEvaluatorFor_type (serviceDef : RangerServiceDef)
    (condition : RangerPolicyItemCondition) :
    (newEvaluatorFor serviceDef condition).isSome =
      (newEvaluatorFor serviceDef ⟨condition.type, []⟩).isSome := by
  unfold newEvaluatorFor
  dsimp only
  cases getConditionDef serviceDef condition.type with
  | none => rfl
  | some conditionDef =>
      dsimp only
      split
      · rfl
      · rw [Option.isSome_map, Option.isSome_map]

theorem Enforced.defined {serviceDef : RangerServiceDef} {type : String}
    (enforced : Enforced serviceDef type) :
    ∃ conditionDef ∈ serviceDef.policyConditions, conditionDef.name = type := by
  obtain ⟨_, found⟩ := enforced
  unfold newEvaluatorFor getConditionDef at found
  split at found
  · cases found
  · next conditionDef located =>
      split at located
      · cases located
      · exact ⟨conditionDef, List.mem_of_find?_eq_some located,
          by simpa using List.find?_some located⟩

/-- The conditions of a policy that the engine tests keep their values: no item loses
one, and the first condition of a type is the only one of its item. -/
structure KeepsConditions (serviceDef : RangerServiceDef) (policy : RangerPolicy) : Prop where
  values : ∀ policyItem ∈ policy.policyItems, ∀ condition ∈ policyItem.conditions,
    Enforced serviceDef condition.type → valuesOf policyItem.conditions condition.type ≠ []
  first : ∀ type policyItem first, Enforced serviceDef type →
    policy.policyItems.find? (fun policyItem =>
      policyItem.conditions.any (·.type == type)) = some policyItem →
    policyItem.conditions.find? (·.type == type) = some first →
      valuesOf policyItem.conditions type = first.values

omit [ClassLoader] in
/-- Searches that agree where the first one of them succeeds find the same. -/
theorem findSome?_of_first {α β : Type} {items : List α} {given read : α → Option β}
    (missing : ∀ item ∈ items, given item = none → read item = none)
    (first : ∀ item, items.find? (fun item => (given item).isSome) = some item →
      read item = given item) :
    items.findSome? read = items.findSome? given := by
  induction items with
  | nil => rfl
  | cons item rest ih =>
      cases found : given item with
      | none =>
          rw [List.findSome?_cons, List.findSome?_cons, found,
            missing item List.mem_cons_self found]
          refine ih (fun other member => missing other (List.mem_cons_of_mem _ member)) ?_
          intro other later
          refine first other ?_
          rw [List.find?_cons_of_neg (by rw [found]; exact Bool.false_ne_true)]
          exact later
      | some result =>
          have same := first item (List.find?_cons_of_pos (by rw [found]; rfl))
          rw [List.findSome?_cons, List.findSome?_cons, same, found]

/-- The first condition of a type the engine tests is read back as it was. -/
theorem KeepsConditions.firstCondition {serviceDef : RangerServiceDef} {policy : RangerPolicy}
    (keeps : KeepsConditions serviceDef policy) {store : ServiceDBStore}
    {readBack : RangerPolicy} (read : ReadBack store serviceDef policy readBack) {type : String}
    (enforced : Enforced serviceDef type) :
    readBack.firstCondition type = policy.firstCondition type := by
  unfold RangerPolicy.firstCondition RangerPolicy.conditions
  rw [read.policyItems, List.flatMap_map, List.find?_flatMap, List.find?_flatMap]
  refine findSome?_of_first ?_ ?_
  · intro policyItem _ absent
    dsimp only [storedItem]
    rw [find?_storedConditions enforced.defined, if_pos]
    unfold valuesOf
    rw [List.filter_eq_nil_iff.mpr (List.find?_eq_none.mp absent), List.flatMap_nil]
  · intro policyItem located
    have holds := List.find?_some located
    obtain ⟨first, found⟩ := Option.isSome_iff_exists.mp holds
    have member := List.mem_of_find?_eq_some located
    have named : first.type = type := by simpa using List.find?_some found
    have filled := keeps.values policyItem member first (List.mem_of_find?_eq_some found)
      (named ▸ enforced)
    have alone := keeps.first type policyItem first enforced
      (by simpa only [List.isSome_find?] using located) found
    dsimp only [storedItem]
    rw [find?_storedConditions enforced.defined, if_neg (named ▸ filled),
      mergedValues_of_first found alone, found, ← named]

end Conditions

section Resources

variable [Platform]

/-- The levels a policy names are all defined by the service type, or none is. -/
def KeepsLevels (serviceDef : RangerServiceDef) (policy : RangerPolicy) : Prop :=
  (∀ name ∈ policy.resources.keys, serviceDef.resources.any (·.name == name) = true) ∨
    ∀ name ∈ policy.resources.keys, serviceDef.resources.any (·.name == name) = false

/-- The head loop reads the matchers of the evaluator only. -/
theorem matchHeadLoop_of_matchers {evaluator other : RangerDefaultPolicyEvaluator}
    (same : evaluator.matchers = other.matchers) (resource : RangerAccessResource)
    (resourceDefs : List RangerResourceDef) (skipped : Bool) :
    evaluator.matchHeadLoop resource skipped resourceDefs =
      other.matchHeadLoop resource skipped resourceDefs := by
  induction resourceDefs generalizing skipped with
  | nil => rfl
  | cons resourceDef rest ih =>
      unfold matchHeadLoop
      rw [same]
      simp only [ih]

variable {store : ServiceDBStore} {serviceDef : RangerServiceDef} {policy readBack : RangerPolicy}

/-- Without a defined level there is nothing a key could match. -/
theorem keysMatch_of_bare (options : RangerPolicyEngineOptions)
    (bare : ∀ name ∈ policy.resources.keys, serviceDef.resources.any (·.name == name) = false)
    {keys : List String} (some : keys.isEmpty = false) :
    (init policy serviceDef options).keysMatch keys = false := by
  have none : (init policy serviceDef options).matchers = ∅ := by
    unfold matchers
    rw [List.filterMap_eq_nil_iff.mpr]
    · rfl
    · intro resourceDef member
      have undefined : resourceDef.name ∉ policy.resources.keys := by
        intro listed
        have missing := List.any_eq_false.mp (bare _ listed) resourceDef member
        exact missing (beq_self_eq_true _)
      have absent := AssocMap.get?_eq_none_iff.mpr undefined
      dsimp only [init, preprocessPolicy]
      rw [absent, Option.map_none]
  unfold keysMatch
  cases keys with
  | nil => cases some
  | cons key rest =>
      rw [none, List.all_cons]
      rfl

section Read

variable (read : ReadBack store serviceDef policy readBack) (options : RangerPolicyEngineOptions)

include read

/-- The levels that are compared are the defined ones, and these are stored. -/
theorem ReadBack.matchers :
    (init readBack serviceDef options).matchers = (init policy serviceDef options).matchers := by
  unfold RangerDefaultPolicyEvaluator.matchers
  congr 1
  refine List.filterMap_congr fun resourceDef member => ?_
  have defined : serviceDef.resources.any (·.name == resourceDef.name) = true :=
    List.any_eq_true.mpr ⟨resourceDef, member, beq_self_eq_true _⟩
  dsimp only [init, preprocessPolicy]
  rw [read.resources, storedResources, AssocMap.get?_filterKeys, if_pos defined]

theorem ReadBack.isMatch (resource : RangerAccessResource) :
    (init readBack serviceDef options).isMatch resource =
      (init policy serviceDef options).isMatch resource := by
  have same := read.matchers options
  unfold RangerDefaultPolicyEvaluator.isMatch keysMatch matchesLevel
  rw [same]
  rfl

/-- The head of a resource is matched within the levels that were given. -/
theorem ReadBack.matchResourceHead (keeps : KeepsLevels serviceDef policy)
    {resource : RangerAccessResource}
    (within : (init readBack serviceDef options).matchResourceHead resource = true) :
    (init policy serviceDef options).matchResourceHead resource = true := by
  have same := read.matchers options
  by_cases whole : resource.getKeys.isEmpty = true
  · unfold RangerDefaultPolicyEvaluator.matchResourceHead
    rw [if_pos whole]
  · obtain all | bare := keeps
    · have kept : storedResources serviceDef policy.resources = policy.resources := by
        have every : policy.resources.entries.filter (fun entry =>
            serviceDef.resources.any (·.name == entry.1)) = policy.resources.entries :=
          List.filter_eq_self.mpr fun entry member => all _ (List.mem_map_of_mem member)
        unfold storedResources AssocMap.filterKeys
        congr 1
      have resources : (init readBack serviceDef options).policy.resources =
          (init policy serviceDef options).policy.resources := read.resources.trans kept
      unfold RangerDefaultPolicyEvaluator.matchResourceHead keysMatch at within ⊢
      rw [resources, matchHeadLoop_of_matchers same, same] at within
      exact within
    · have bareKeys := keysMatch_of_bare options bare (Bool.eq_false_iff.mpr whole)
      have unmatched : (init readBack serviceDef options).keysMatch resource.getKeys = false := by
        unfold keysMatch at bareKeys ⊢
        rw [same]
        exact bareKeys
      unfold RangerDefaultPolicyEvaluator.matchResourceHead at within
      rw [if_neg whole, unmatched] at within
      simp only [Bool.not_false, ↓reduceIte, ite_self, Bool.false_eq_true] at within

/-- A stored policy covers no more requests. -/
theorem ReadBack.covers (keeps : KeepsLevels serviceDef policy) {request : RangerAccessRequest}
    (covered : (init readBack serviceDef options).covers
      ((init readBack serviceDef options).isMatch request.resource) request = true) :
    (init policy serviceDef options).covers
      ((init policy serviceDef options).isMatch request.resource) request = true := by
  unfold RangerDefaultPolicyEvaluator.covers at covered ⊢
  rw [read.isMatch] at covered
  simp only [Bool.or_eq_true, Bool.and_eq_true] at covered ⊢
  exact Or.imp_right (And.imp_right (read.matchResourceHead options keeps)) covered

end Read

end Resources

section Items

/-- Unknown users and groups match nobody. -/
theorem matchUserGroup_of_stored {store : ServiceDBStore} {serviceDef : RangerServiceDef}
    {policyItem : RangerPolicyItem} {user : Option String} {groups : List String}
    (named : matchUserGroup (store.storedItem serviceDef policyItem) user groups = true) :
    matchUserGroup policyItem user groups = true := by
  unfold matchUserGroup at named ⊢
  dsimp only [storedItem] at named
  rw [Bool.or_eq_true, Bool.or_eq_true] at named ⊢
  refine Or.imp ?_ (Or.imp ?_ ?_) named
  · cases user with
    | none => exact id
    | some user =>
        exact fun known => List.contains_iff_mem.mpr
          (List.mem_of_mem_filter (List.contains_iff_mem.mp known))
  · exact fun known => List.contains_iff_mem.mpr
      (List.mem_of_mem_filter (List.contains_iff_mem.mp known))
  · intro known
    obtain ⟨group, kept, shared⟩ := List.any_eq_true.mp known
    exact List.any_eq_true.mpr ⟨group, List.mem_of_mem_filter kept, shared⟩

variable [Platform]

/-- No access that is left out stood in the way of an access that is kept. -/
def KeepsAccesses (serviceDef : RangerServiceDef) (policy : RangerPolicy) : Prop :=
  ∀ policyItem ∈ policy.policyItems, ∀ accessType,
    allowedAt (policyItem.accesses.filter fun access =>
      serviceDef.accessTypes.any (·.name == access.type)) accessType = true →
    allowedAt policyItem.accesses accessType = true

theorem KeepsAccesses.allowsNoMore {serviceDef : RangerServiceDef} {policy : RangerPolicy}
    (keeps : KeepsAccesses serviceDef policy) (store : ServiceDBStore)
    {policyItem : RangerPolicyItem} (member : policyItem ∈ policy.policyItems) :
    AllowsNoMore (preprocessPolicyItem serviceDef (store.storedItem serviceDef policyItem)).accesses
      (preprocessPolicyItem serviceDef policyItem).accesses := by
  refine AllowsNoMore.preprocess ⟨keeps policyItem member, fun allowed => ?_⟩ serviceDef
  obtain ⟨access, kept, granted⟩ := List.any_eq_true.mp allowed
  exact List.any_eq_true.mpr ⟨access, List.mem_of_mem_filter kept, granted⟩

/-- Preparing a policy leaves its conditions as they are. -/
theorem firstCondition_preprocessPolicy (serviceDef : RangerServiceDef) (policy : RangerPolicy)
    (type : String) :
    (preprocessPolicy policy serviceDef).firstCondition type = policy.firstCondition type := by
  unfold RangerPolicy.firstCondition RangerPolicy.conditions preprocessPolicy
  dsimp only
  rw [List.flatMap_map]
  simp only [preprocessPolicyItem_eq]

variable [ClassLoader]

/-- The conditions of an item that are tested are all read back. -/
theorem KeepsConditions.matchCustomConditions {serviceDef : RangerServiceDef}
    {policy readBack : RangerPolicy} (keeps : KeepsConditions serviceDef policy)
    {store : ServiceDBStore} (read : ReadBack store serviceDef policy readBack)
    {policyItem : RangerPolicyItem} (member : policyItem ∈ policy.policyItems)
    {request : RangerAccessRequest}
    (passed : RangerDefaultPolicyEvaluator.matchCustomConditions
      (store.storedItem serviceDef policyItem) request
      (initializeConditionEvaluators (preprocessPolicy readBack serviceDef) serviceDef) = true) :
    RangerDefaultPolicyEvaluator.matchCustomConditions policyItem request
      (initializeConditionEvaluators (preprocessPolicy policy serviceDef) serviceDef) = true := by
  rw [matchCustomConditions_eq_all, List.all_eq_true] at passed ⊢
  intro condition listed
  rw [firstCondition_preprocessPolicy]
  by_cases blank : isBlank condition.type = true
  · rw [blank, Bool.true_or]
  rw [Bool.eq_false_iff.mpr blank, Bool.false_or]
  cases created : (policy.firstCondition condition.type).bind (newEvaluatorFor serviceDef) with
  | none => rfl
  | some conditionEvaluator =>
      obtain ⟨first, located, evaluated⟩ := Option.bind_eq_some_iff.mp created
      have typed : first.type = condition.type := by simpa using List.find?_some located
      have enforced : Enforced serviceDef condition.type := by
        refine ⟨Bool.eq_false_iff.mpr blank, ?_⟩
        rw [← typed, ← isSome_newEvaluatorFor_type, evaluated]
        rfl
      have stored : ⟨condition.type, mergedValues policyItem.conditions condition.type⟩ ∈
          storedConditions serviceDef policyItem.conditions :=
        mem_storedConditions.mpr ⟨enforced.defined,
          keeps.values policyItem member condition listed enforced, rfl⟩
      have tested := passed _ stored
      rw [firstCondition_preprocessPolicy] at tested
      dsimp only at tested
      rw [keeps.firstCondition read enforced, created, Bool.eq_false_iff.mpr blank,
        Bool.false_or] at tested
      exact tested

/-- What a policy is made of keeps its restrictions where it is stored. -/
structure KeepsRestrictions (serviceDef : RangerServiceDef) (policy : RangerPolicy) : Prop where
  levels : KeepsLevels serviceDef policy
  accesses : KeepsAccesses serviceDef policy
  conditions : KeepsConditions serviceDef policy

/-- An item as it is read back grants no more than it did. -/
theorem KeepsRestrictions.grants {serviceDef : RangerServiceDef} {policy readBack : RangerPolicy}
    (keeps : KeepsRestrictions serviceDef policy) {store : ServiceDBStore}
    (read : ReadBack store serviceDef policy readBack) (options : RangerPolicyEngineOptions)
    {policyItem : RangerPolicyItem} (member : policyItem ∈ policy.policyItems)
    {request : RangerAccessRequest}
    (granted : (init readBack serviceDef options).grants request
      (preprocessPolicyItem serviceDef (store.storedItem serviceDef policyItem)) = true) :
    (init policy serviceDef options).grants request
      (preprocessPolicyItem serviceDef policyItem) = true := by
  have accesses := keeps.accesses.allowsNoMore store member
  rw [grants_preprocessPolicyItem, Bool.and_eq_true] at granted ⊢
  refine granted.imp matchUserGroup_of_stored fun passed => ?_
  by_cases delegated : request.isAccessTypeDelegatedAdmin = true
  · rw [if_pos delegated] at passed ⊢
    exact passed
  · rw [if_neg delegated, Bool.and_eq_true] at passed ⊢
    refine passed.imp ?_ fun tested => ?_
    · split
      · exact accesses.any
      · exact accesses.at_type request.accessType
    · rw [getConditionEvaluators_init] at tested ⊢
      by_cases disabled : options.disableCustomConditions = true
      · rw [if_pos disabled]
        exact matchCustomConditions_empty policyItem request
      · rw [if_neg disabled] at tested ⊢
        exact keeps.conditions.matchCustomConditions read member tested

/-- **A policy read back.** Where the restrictions are kept, the policy as it is read
back from the store allows no more requests than the one that was given. -/
theorem KeepsRestrictions.isAllowed {serviceDef : RangerServiceDef} {policy readBack : RangerPolicy}
    (keeps : KeepsRestrictions serviceDef policy) {store : ServiceDBStore}
    (read : ReadBack store serviceDef policy readBack) (options : RangerPolicyEngineOptions)
    (request : RangerAccessRequest)
    (allowed : ((init readBack serviceDef options).evaluate request {}).isAllowed = true) :
    ((init policy serviceDef options).evaluate request {}).isAllowed = true := by
  rw [isAllowed_evaluate, Bool.and_eq_true] at allowed ⊢
  refine allowed.imp (read.covers options keeps.levels) fun granted => ?_
  obtain ⟨prepared, listed, granted⟩ := List.any_eq_true.mp granted
  obtain ⟨item, stored, rfl⟩ := List.mem_map.mp listed
  rw [read.policyItems] at stored
  obtain ⟨policyItem, member, rfl⟩ := List.mem_map.mp stored
  exact List.any_eq_true.mpr
    ⟨_, List.mem_map_of_mem member, keeps.grants read options member granted⟩

omit [Platform] [ClassLoader] in
/-- Conditions of different types are read back one by one. -/
theorem valuesOf_of_nodup {conditions : List RangerPolicyItemCondition} {type : String}
    (different : (conditions.map (·.type)).Nodup) {first : RangerPolicyItemCondition}
    (found : conditions.find? (·.type == type) = some first) :
    valuesOf conditions type = first.values := by
  unfold valuesOf
  induction conditions with
  | nil => cases found
  | cons condition rest ih =>
      obtain ⟨fresh, different⟩ := List.nodup_cons.mp different
      rw [List.find?_cons] at found
      rw [List.filter_cons]
      cases same : condition.type == type with
      | true =>
          rw [same, Option.some.injEq] at found
          have others : rest.filter (·.type == type) = [] := by
            refine List.filter_eq_nil_iff.mpr fun other member typed => fresh ?_
            exact List.mem_map.mpr
              ⟨other, member, (beq_iff_eq.mp typed).trans (beq_iff_eq.mp same).symm⟩
          rw [if_pos rfl, others, List.flatMap_singleton, found]
      | false =>
          rw [same] at found
          exact ih different found

/-- Restrictions are kept where the service type defines all that the policy names and
no item has a condition twice, or without values. -/
theorem KeepsRestrictions.of_defined {serviceDef : RangerServiceDef} {policy : RangerPolicy}
    (levels : ∀ name ∈ policy.resources.keys, serviceDef.resources.any (·.name == name) = true)
    (accesses : ∀ policyItem ∈ policy.policyItems, ∀ access ∈ policyItem.accesses,
      serviceDef.accessTypes.any (·.name == access.type) = true)
    (different : ∀ policyItem ∈ policy.policyItems, (policyItem.conditions.map (·.type)).Nodup)
    (filled : ∀ policyItem ∈ policy.policyItems, ∀ condition ∈ policyItem.conditions,
      condition.values ≠ []) : KeepsRestrictions serviceDef policy where
  levels := .inl levels
  accesses policyItem member accessType := by
    rw [List.filter_eq_self.mpr (accesses policyItem member)]
    exact id
  conditions :=
    { values := by
        intro policyItem member condition listed _ bare
        have kept : condition ∈ policyItem.conditions.filter (·.type == condition.type) :=
          List.mem_filter.mpr ⟨listed, beq_self_eq_true _⟩
        exact filled policyItem member condition listed (List.flatMap_eq_nil_iff.mp bare _ kept)
      first := by
        intro type policyItem first _ located found
        exact valuesOf_of_nodup (different policyItem (List.mem_of_find?_eq_some located)) found }

section Calls

variable {store after : ServiceDBStore} {policy readBack : RangerPolicy} {service : RangerService}
  {serviceDef : RangerServiceDef} (typed : store.serviceOf policy = .ok (service, serviceDef))

include typed

omit [Platform] [ClassLoader] in
theorem readBack_of_createPolicy (created : store.createPolicy policy = .ok (readBack, after)) :
    ReadBack store serviceDef policy readBack := by
  unfold createPolicy at created
  rw [typed] at created
  obtain ⟨_, same, created⟩ := Outcome.bind_eq_ok.mp created
  cases same
  dsimp only at created
  split at created
  · cases created
  · cases created
    exact ⟨rfl, rfl⟩

omit [ClassLoader] in
theorem readBack_of_updatePolicy (updated : store.updatePolicy policy = .ok (readBack, after)) :
    ReadBack store serviceDef policy readBack := by
  unfold updatePolicy at updated
  split at updated
  · cases updated
  · rw [typed] at updated
    obtain ⟨_, same, updated⟩ := Outcome.bind_eq_ok.mp updated
    cases same
    dsimp only at updated
    split at updated
    · cases updated
    · split at updated
      · cases updated
      · cases updated
        exact ⟨rfl, rfl⟩

end Calls

/-- **Storing does not widen.** Where the restrictions of a policy are kept by its
service type, what `createPolicy` or `updatePolicy` reads back allows no request that
the given policy does not. -/
theorem allows_no_more_than_given {store after : ServiceDBStore} {policy readBack : RangerPolicy}
    {service : RangerService} {serviceDef : RangerServiceDef}
    (typed : store.serviceOf policy = .ok (service, serviceDef))
    (keeps : KeepsRestrictions serviceDef policy)
    (performed : store.createPolicy policy = .ok (readBack, after) ∨
      store.updatePolicy policy = .ok (readBack, after))
    (options : RangerPolicyEngineOptions) (request : RangerAccessRequest)
    (allowed : ((init readBack serviceDef options).evaluate request {}).isAllowed = true) :
    ((init policy serviceDef options).evaluate request {}).isAllowed = true := by
  obtain created | updated := performed
  · exact keeps.isAllowed (readBack_of_createPolicy typed created) options request allowed
  · exact keeps.isAllowed (readBack_of_updatePolicy typed updated) options request allowed

end Items

section TwoAddresses

attribute [local instance] Platform.ascii ClassLoader.addresses

/-- A store with one service of the type with an address condition. -/
def addressStore : ServiceDBStore where
  serviceDefs := [addressServiceDef]
  services := [{ id := 1, name := "gateway", type := "knox" }]
  policies := []
  users := ["alice", "bob"]
  groups := []
  nextPolicyId := 1

/-- Access for Bob from the addresses a list of conditions names. -/
def bobsPolicy (conditions : List RangerPolicyItemCondition) : RangerPolicy where
  service := "gateway"
  name := "admin"
  resources := .single "topology" { values := ["admin"] }
  policyItems := [{ accesses := [{ type := "allow" }], users := ["bob"], conditions := conditions }]

/-- Bob's only address is stored as it was given. -/
theorem one_address_allows_no_more :
    ((init (bobsPolicy [⟨"ip-range", ["10.0.0.2"]⟩]) addressServiceDef {}).evaluate
      requestFromBob {}).isAllowed = true :=
  @allows_no_more_than_given _ _ addressStore _ _ _ ⟨1, "gateway", "knox", none⟩ _ rfl
    (.of_defined (by decide) (by decide) (by decide) (by decide)) (.inl rfl) {} requestFromBob
    (by decide +kernel)

/-- Bob may not come from the second address of the policy that is given. The two
conditions are read back as one, which lets him. -/
theorem second_address_allowed_once_stored :
    ∃ readBack after,
      addressStore.createPolicy
        (bobsPolicy [⟨"ip-range", ["10.0.0.1"]⟩, ⟨"ip-range", ["10.0.0.2"]⟩]) =
          .ok (readBack, after) ∧
      ((init readBack addressServiceDef {}).evaluate requestFromBob {}).isAllowed = true ∧
      ((init (bobsPolicy [⟨"ip-range", ["10.0.0.1"]⟩, ⟨"ip-range", ["10.0.0.2"]⟩])
        addressServiceDef {}).evaluate requestFromBob {}).isAllowed = false :=
  ⟨_, _, rfl, by decide +kernel, by decide +kernel⟩

end TwoAddresses

end ServiceDBStore

end Ranger

import Ranger.ConditionEvaluator
import Ranger.Foundation.FirstMatch
import Ranger.ResourceMatcher

/-! # The default policy evaluator

An evaluator compiles one policy against its service definition. It is kept as
what it was initialised with; the matchers and condition evaluators the source
builds in `init` are functions of it.
-/

namespace Ranger

open Foundation

structure RangerPolicyEngineOptions where
  evaluatorType : String := "cached"
  cacheAuditResults : Bool := true
  disableCustomConditions : Bool := false

/-- `RangerDefaultPolicyEvaluator` after `init`, holding the policy with the
implied grants added. -/
structure RangerDefaultPolicyEvaluator where
  policy : RangerPolicy
  serviceDef : RangerServiceDef
  disableCustomConditions : Bool := false

namespace RangerDefaultPolicyEvaluator

section Preprocess

variable [Platform]

/-- The first access of the type, letter case ignored. -/
def getAccess (policyItem : RangerPolicyItem) (accessType : String) :
    Option RangerPolicyItemAccess :=
  policyItem.accesses.find? fun access => equalsIgnoreCase accessType access.type

/-- The types the service definition lets a type imply, in the order in which
the hash map and its hash sets are iterated. -/
def getImpliedAccessGrants (serviceDef : RangerServiceDef) : List (String × List String) :=
  let implying := serviceDef.accessTypes.filter fun accessType => !accessType.impliedGrants.isEmpty
  (Platform.hashOrder (implying.map (·.name)).dedup).map fun accessType =>
    (accessType, Platform.hashOrder
      ((implying.filter (·.name == accessType)).flatMap (·.impliedGrants)).dedup)

/-- Add the types one access implies, or allow those that are listed already. -/
def addImpliedGrants (policyItem : RangerPolicyItem) (grants : String × List String) :
    RangerPolicyItem :=
  match getAccess policyItem grants.1 with
  | none => policyItem
  | some access =>
      { policyItem with
        accesses := FirstMatch.upsertAll
          (fun impliedGrant listed => equalsIgnoreCase impliedGrant listed.type)
          (fun listed => { listed with isAllowed := listed.isAllowed || access.isAllowed })
          (fun impliedGrant => [⟨impliedGrant, access.isAllowed⟩]) policyItem.accesses grants.2 }

/-- One round of expansion of implied grants. -/
def preprocessPolicyItem (serviceDef : RangerServiceDef) (policyItem : RangerPolicyItem) :
    RangerPolicyItem :=
  if policyItem.accesses.isEmpty then policyItem
  else (getImpliedAccessGrants serviceDef).foldl addImpliedGrants policyItem

def preprocessPolicy (policy : RangerPolicy) (serviceDef : RangerServiceDef) : RangerPolicy :=
  { policy with policyItems := policy.policyItems.map (preprocessPolicyItem serviceDef) }

def init (policy : RangerPolicy) (serviceDef : RangerServiceDef)
    (options : RangerPolicyEngineOptions) : RangerDefaultPolicyEvaluator where
  policy := preprocessPolicy policy serviceDef
  serviceDef := serviceDef
  disableCustomConditions := options.disableCustomConditions

end Preprocess

section Conditions

variable [ClassLoader]

def getConditionDef (serviceDef : RangerServiceDef) (conditionName : String) :
    Option RangerPolicyConditionDef :=
  if conditionName.isEmpty then none
  else serviceDef.policyConditions.find? fun conditionDef => conditionDef.name == conditionName

/-- A new evaluator of the class the service definition names for a condition,
initialised with the condition; none when the class cannot be resolved. -/
def newEvaluatorFor (serviceDef : RangerServiceDef) (condition : RangerPolicyItemCondition) :
    Option RangerConditionEvaluator :=
  match getConditionDef serviceDef condition.type with
  | none => none
  | some conditionDef =>
      if conditionDef.evaluator.isEmpty then none
      else
        (ClassLoader.newConditionEvaluator conditionDef.evaluator).map fun evaluatorClass =>
          evaluatorClass conditionDef condition

/-- One turn of the loop of `initializeConditionEvaluators`. -/
def addConditionEvaluator (serviceDef : RangerServiceDef)
    (result : AssocMap String RangerConditionEvaluator) (condition : RangerPolicyItemCondition) :
    AssocMap String RangerConditionEvaluator :=
  if result.containsKey condition.type then result
  else
    match newEvaluatorFor serviceDef condition with
    | none => result
    | some anEvaluator => result.put condition.type anEvaluator

/-- One evaluator for each condition type the items of the policy use. -/
def initializeConditionEvaluators (policy : RangerPolicy) (serviceDef : RangerServiceDef) :
    AssocMap String RangerConditionEvaluator :=
  (policy.policyItems.flatMap (·.conditions)).foldl (addConditionEvaluator serviceDef) ∅

/-- The evaluators registered for the types of the item's conditions all answer
yes; conditions without a name or without an evaluator are passed over. -/
def matchCustomConditions (policyItem : RangerPolicyItem) (request : RangerAccessRequest)
    (evaluatorMap : AssocMap String RangerConditionEvaluator) : Bool :=
  policyItem.conditions.all fun itemCondition =>
    if isBlank itemCondition.type then true
    else
      match evaluatorMap.get? itemCondition.type with
      | none => true
      | some conditionEvaluator => conditionEvaluator request

end Conditions

/-- Whether an item names the user, one of the groups or the public group. -/
def matchUserGroup (policyItem : RangerPolicyItem) (user : Option String)
    (groups : List String) : Bool :=
  (match user with
    | none => false
    | some user => policyItem.users.contains user) ||
  (policyItem.groups.contains GROUP_PUBLIC || policyItem.groups.any groups.contains)

/-- The policy gives delegated admin to a user with groups. -/
def Delegates (policy : RangerPolicy) (user : Option String) (groups : List String) : Prop :=
  ∃ policyItem ∈ policy.policyItems, matchUserGroup policyItem user groups = true ∧
    policyItem.delegateAdmin = true

variable (evaluator : RangerDefaultPolicyEvaluator)

/-- The matchers of the resource levels the policy constrains. A level defined
twice keeps the later definition. -/
def matchers : AssocMap String RangerResourceMatcher :=
  (∅ : AssocMap String RangerResourceMatcher).putAll
    (evaluator.serviceDef.resources.filterMap fun resourceDef =>
      (evaluator.policy.resources.get? resourceDef.name).map fun policyResource =>
        (resourceDef.name, RangerResourceMatcher.createResourceMatcher resourceDef policyResource))

def keysMatch (resourceKeys : List String) : Bool :=
  resourceKeys.all evaluator.matchers.containsKey

section Resources

variable [Platform]

/-- The match of one level of a resource. -/
def matchesLevel (resource : RangerAccessResource) (resourceDef : RangerResourceDef) : Bool :=
  let resourceValue := resource.getValue resourceDef.name
  match evaluator.matchers.get? resourceDef.name with
  | none => isEmptyValue resourceValue
  | some matcher => matcher.isMatch resourceValue

/-- `isMatch(RangerAccessResource)`: every level of the service definition
matches, and there is one. -/
def isMatch (resource : RangerAccessResource) : Bool :=
  evaluator.keysMatch resource.getKeys && !evaluator.serviceDef.resources.isEmpty &&
    evaluator.serviceDef.resources.all (evaluator.matchesLevel resource)

/-- The single and exact match of one level of a resource. -/
def isSingleAndExactMatchAtLevel (resource : RangerAccessResource)
    (resourceDef : RangerResourceDef) : Bool :=
  let resourceValue := resource.getValue resourceDef.name
  match evaluator.matchers.get? resourceDef.name with
  | none => isEmptyValue resourceValue
  | some matcher => matcher.isSingleAndExactMatch resourceValue

def isSingleAndExactMatch (resource : RangerAccessResource) : Bool :=
  match resource.elements with
  | none => false
  | some _ =>
      evaluator.keysMatch resource.getKeys &&
        evaluator.matchers.keys.all resource.getKeys.contains &&
        !evaluator.serviceDef.resources.isEmpty &&
        evaluator.serviceDef.resources.all (evaluator.isSingleAndExactMatchAtLevel resource)

/-- The loop of `isMatch(Map)`, carrying the answer of the level before: a level
with values but without a matcher leaves it as it is. -/
def isMatchMapLoop (resources : AssocMap String RangerPolicyResource) (ret : Bool) :
    List RangerResourceDef → Bool
  | [] => ret
  | resourceDef :: rest =>
      let values := ((resources.get? resourceDef.name).map (·.values)).getD []
      let ret :=
        match evaluator.matchers.get? resourceDef.name with
        | none => if values.isEmpty then true else ret
        | some matcher =>
            if values.isEmpty then matcher.isMatch none
            else values.all fun resourceValue => matcher.isMatch (some resourceValue)
      if ret then isMatchMapLoop resources ret rest else false

/-- `isMatch(Map)`: the values of every level are matched as names. -/
def isMatchMap (resources : AssocMap String RangerPolicyResource) : Bool :=
  evaluator.keysMatch resources.keys &&
    evaluator.isMatchMapLoop resources false evaluator.serviceDef.resources

/-- The loop of `matchResourceHead`: once a level of the policy is skipped, the
lower ones must be missing too. -/
def matchHeadLoop (resource : RangerAccessResource) (skipped : Bool) :
    List RangerResourceDef → Bool
  | [] => true
  | resourceDef :: rest =>
      match evaluator.matchers.get? resourceDef.name with
      | none => matchHeadLoop resource skipped rest
      | some matcher =>
          let resourceValue := resource.getValue resourceDef.name
          if isEmptyValue resourceValue then matchHeadLoop resource true rest
          else if skipped then false
          else if matcher.isMatch resourceValue then matchHeadLoop resource skipped rest
          else false

def matchResourceHead (resource : RangerAccessResource) : Bool :=
  if resource.getKeys.isEmpty then true
  else if evaluator.matchers.size ≠ evaluator.policy.resources.size then false
  else if !evaluator.keysMatch resource.getKeys then false
  else evaluator.matchHeadLoop resource false evaluator.serviceDef.resources

end Resources

section Access

variable [Platform] [ClassLoader]

def getConditionEvaluators : AssocMap String RangerConditionEvaluator :=
  if evaluator.disableCustomConditions then ∅
  else initializeConditionEvaluators evaluator.policy evaluator.serviceDef

/-- Whether an item passes every test of the loop of `evaluatePolicyItemsForAccess`. -/
def grants (request : RangerAccessRequest) (policyItem : RangerPolicyItem) : Bool :=
  matchUserGroup policyItem request.user request.userGroups &&
    if request.isAccessTypeDelegatedAdmin then policyItem.delegateAdmin
    else
      (if request.isAccessTypeAny then policyItem.accesses.any (·.isAllowed)
        else
          match getAccess policyItem request.accessType with
          | none => false
          | some access => access.isAllowed) &&
      matchCustomConditions policyItem request evaluator.getConditionEvaluators

def evaluatePolicyItemsForAccess (request : RangerAccessRequest) (result : RangerAccessResult) :
    RangerAccessResult :=
  if evaluator.policy.policyItems.any (evaluator.grants request) then
    (result.setIsAllowed true).setPolicyId evaluator.policy.id
  else result

/-- What `evaluate` has tried so far on the resource of a request. -/
structure MatchAttempts where
  isMatchAttempted : Bool := false
  matchResult : Bool := false
  isHeadMatchAttempted : Bool := false
  headMatchResult : Bool := false

section Evaluate

variable {σ : Type} (isMatch : RangerAccessResource → σ → Bool × σ)
  (evaluatePolicyItemsForAccess : RangerAccessRequest → RangerAccessResult → RangerAccessResult)

/-- The attempts made before an undetermined half of a result is worked on. The
resource is matched once; its head is tried for an any-access request only. -/
def attemptMatch (request : RangerAccessRequest) (attempts : MatchAttempts) (state : σ) :
    MatchAttempts × σ :=
  let (attempts, state) :=
    if attempts.isMatchAttempted then (attempts, state)
    else
      let (matchResult, state) := isMatch request.resource state
      ({ attempts with matchResult := matchResult, isMatchAttempted := true }, state)
  if !attempts.matchResult && request.isAccessTypeAny && !attempts.isHeadMatchAttempted then
    ({ attempts with
        headMatchResult := evaluator.matchResourceHead request.resource
        isHeadMatchAttempted := true }, state)
  else (attempts, state)

/-- The body of `evaluate`, which subclasses share: `isMatch` may read and write
a state, and the item test is the subclass's own. -/
def evaluateWith (request : RangerAccessRequest) (result : RangerAccessResult) (state : σ) :
    RangerAccessResult × σ :=
  let (attempts, result, state) :=
    if result.isAuditedDetermined then ({}, result, state)
    else
      let (attempts, state) := evaluator.attemptMatch isMatch request {} state
      if (attempts.matchResult || attempts.headMatchResult) && evaluator.policy.isAuditEnabled then
        (attempts, result.setIsAudited true, state)
      else (attempts, result, state)
  if result.isAccessDetermined then (result, state)
  else
    let (attempts, state) := evaluator.attemptMatch isMatch request attempts state
    if attempts.matchResult || attempts.headMatchResult then
      (evaluatePolicyItemsForAccess request result, state)
    else (result, state)

end Evaluate

/-- Whether a request is within reach of the policy, given how its resource matched. -/
def covers (matched : Bool) (request : RangerAccessRequest) : Bool :=
  matched || (request.isAccessTypeAny && evaluator.matchResourceHead request.resource)

/-- What `evaluate` makes of a result once it is known whether the request is
within reach of the policy. -/
def evaluateCovered
    (evaluatePolicyItemsForAccess : RangerAccessRequest → RangerAccessResult → RangerAccessResult)
    (covered : Bool) (request : RangerAccessRequest) (result : RangerAccessResult) :
    RangerAccessResult :=
  let audited :=
    if !result.isAuditedDetermined && covered && evaluator.policy.isAuditEnabled then
      result.setIsAudited true
    else result
  if !result.isAccessDetermined && covered then evaluatePolicyItemsForAccess request audited
  else audited

/-- `RangerDefaultPolicyEvaluator.evaluate`. -/
def evaluate (request : RangerAccessRequest) (result : RangerAccessResult) : RangerAccessResult :=
  (evaluator.evaluateWith (fun resource (state : Unit) => (evaluator.isMatch resource, state))
    evaluator.evaluatePolicyItemsForAccess request result ()).1

/-- Whether an item passes the tests of `isAccessAllowed(user, userGroups, accessType)`. -/
def allows (user : Option String) (userGroups : List String) (accessType : String)
    (policyItem : RangerPolicyItem) : Bool :=
  (if accessType = ADMIN_ACCESS then policyItem.delegateAdmin
    else if accessType = ANY_ACCESS then policyItem.accesses.any (·.isAllowed)
    else
      match getAccess policyItem accessType with
      | none => false
      | some access => access.isAllowed) &&
  matchUserGroup policyItem user userGroups

/-- `isAccessAllowed(user, userGroups, accessType)`. -/
def isAccessAllowed (user : Option String) (userGroups : List String) (accessType : String) :
    Bool :=
  let accessType := if accessType.isEmpty then ANY_ACCESS else accessType
  evaluator.policy.policyItems.any (allows user userGroups accessType)

omit [ClassLoader] in
theorem isAccessAllowed_admin_iff {user : Option String} {userGroups : List String} :
    evaluator.isAccessAllowed user userGroups ADMIN_ACCESS = true ↔
      Delegates evaluator.policy user userGroups := by
  have named : (if ADMIN_ACCESS.isEmpty then ANY_ACCESS else ADMIN_ACCESS) = ADMIN_ACCESS := rfl
  simp only [isAccessAllowed, named, List.any_eq_true, allows, ↓reduceIte, Bool.and_eq_true,
    Delegates]
  constructor
  · rintro ⟨policyItem, member, admin, matched⟩
    exact ⟨policyItem, member, matched, admin⟩
  · rintro ⟨policyItem, member, matched, admin⟩
    exact ⟨policyItem, member, admin, matched⟩

end Access

section EvaluateWith

variable [Platform] {σ : Type} (isMatch : RangerAccessResource → σ → Bool × σ)
  (evaluatePolicyItemsForAccess : RangerAccessRequest → RangerAccessResult → RangerAccessResult)

private theorem attemptMatch_first (request : RangerAccessRequest) (state : σ) :
    evaluator.attemptMatch isMatch request {} state =
      (let matched := (isMatch request.resource state).1
        let head := !matched && request.isAccessTypeAny
        ⟨true, matched, head, head && evaluator.matchResourceHead request.resource⟩,
        (isMatch request.resource state).2) := by
  cases matched : (isMatch request.resource state).1 <;>
    cases any : request.isAccessTypeAny <;>
      simp [attemptMatch, matched, any]

private theorem attemptMatch_again (request : RangerAccessRequest) (state other : σ) :
    evaluator.attemptMatch isMatch request (evaluator.attemptMatch isMatch request {} state).1
      other = ((evaluator.attemptMatch isMatch request {} state).1, other) := by
  rw [attemptMatch_first]
  cases matched : (isMatch request.resource state).1 <;>
    cases any : request.isAccessTypeAny <;>
      simp [attemptMatch, any]

private theorem attemptMatch_covers (request : RangerAccessRequest) (state : σ) :
    ((evaluator.attemptMatch isMatch request {} state).1.matchResult ||
      (evaluator.attemptMatch isMatch request {} state).1.headMatchResult) =
      evaluator.covers (isMatch request.resource state).1 request := by
  rw [attemptMatch_first]
  cases matched : (isMatch request.resource state).1 <;> simp [covers]

private theorem attemptMatch_state (request : RangerAccessRequest) (state : σ) :
    (evaluator.attemptMatch isMatch request {} state).2 = (isMatch request.resource state).2 := by
  rw [attemptMatch_first]

/-- The resource is matched at most once, and only for an undetermined result. -/
theorem evaluateWith_eq (request : RangerAccessRequest) (result : RangerAccessResult) (state : σ) :
    evaluator.evaluateWith isMatch evaluatePolicyItemsForAccess request result state =
      if result.isAuditedDetermined && result.isAccessDetermined then (result, state)
      else
        (evaluator.evaluateCovered evaluatePolicyItemsForAccess
          (evaluator.covers (isMatch request.resource state).1 request) request result,
          (isMatch request.resource state).2) := by
  have covered := evaluator.attemptMatch_covers isMatch request state
  have moved := evaluator.attemptMatch_state isMatch request state
  have again :=
    evaluator.attemptMatch_again isMatch request state (isMatch request.resource state).2
  cases audited : result.isAuditedDetermined <;> cases access : result.isAccessDetermined <;>
    cases within : evaluator.covers (isMatch request.resource state).1 request <;>
      cases enabled : evaluator.policy.isAuditEnabled <;>
        simp_all [evaluateWith, evaluateCovered]

end EvaluateWith

section Evaluate

variable [Platform] [ClassLoader]

theorem evaluate_eq (request : RangerAccessRequest) (result : RangerAccessResult) :
    evaluator.evaluate request result =
      evaluator.evaluateCovered evaluator.evaluatePolicyItemsForAccess
        (evaluator.covers (evaluator.isMatch request.resource) request) request result := by
  unfold evaluate
  rw [evaluateWith_eq]
  cases audited : result.isAuditedDetermined <;> cases access : result.isAccessDetermined <;>
    simp [evaluateCovered, audited, access]

end Evaluate

end RangerDefaultPolicyEvaluator

end Ranger

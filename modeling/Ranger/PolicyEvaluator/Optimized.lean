import Mathlib.Algebra.Group.Nat.Defs
import Mathlib.Data.List.Dedup
import Mathlib.Data.List.Sort
import Ranger.PolicyEvaluator.Default

/-! # The optimized policy evaluator

The default evaluator behind a test of the whole policy: the users, groups and
access types of all items are aggregated, and a request that none of them names
is turned away without a look at the items.
-/

namespace Ranger

open Foundation

namespace RangerOptimizedPolicyEvaluator

open RangerDefaultPolicyEvaluator

section Aggregates

variable (evaluator : RangerDefaultPolicyEvaluator)

/-- The types of the allowed accesses. -/
def accessPerms : List String :=
  ((evaluator.policy.policyItems.flatMap (·.accesses)).filter (·.isAllowed)).map (·.type) |>.dedup

def groups : List String := (evaluator.policy.policyItems.flatMap (·.groups)).dedup

def users : List String := (evaluator.policy.policyItems.flatMap (·.users)).dedup

def delegateAdmin : Bool := evaluator.policy.policyItems.any (·.delegateAdmin)

def hasAllPerms : Bool :=
  evaluator.serviceDef.accessTypes.all fun accessType =>
    (accessPerms evaluator).contains accessType.name

variable [Platform]

def hasPublicGroup : Bool := (groups evaluator).any (equalsIgnoreCase · GROUP_PUBLIC)

/-- The levels and values of the resources the service definition knows, in the
order of the levels. -/
def levelResources : List (Int × RangerPolicyResource) :=
  (evaluator.policy.resources.entries.filterMap fun entry =>
    (evaluator.serviceDef.resources.find? (·.name == entry.1)).map fun found =>
      (found.level, entry.2)).insertionSort fun first second => first.1 ≤ second.1

/-- One turn of the loop over the levels: the priority so far and whether a level
that matches anything was met. -/
def addLevelPriority (sofar : Int × Bool) (item : Int × RangerPolicyResource) : Int × Bool :=
  let resource := item.2
  let foundMatchAny := resource.values.any fun value => value.isEmpty || value == "*"
  let foundStarWildcard := resource.values.any fun value => value.toList.contains '*'
  let foundQuestionWildcard := resource.values.any fun value =>
    !value.toList.contains '*' && value.toList.contains '?'
  if foundMatchAny then (if sofar.2 then sofar.1 - 25 else sofar.1, true)
  else
    (sofar.1 + 1000 - (if foundStarWildcard then 10 else if foundQuestionWildcard then 10 else 0) -
      (if resource.isExcludes then 25 else 0) - (if resource.isRecursive then 25 else 0), sofar.2)

/-- The priority in 32-bit arithmetic; the lowest is evaluated first. -/
def computeEvalOrder : Int :=
  let priorityLevel := ((levelResources evaluator).foldl addLevelPriority (10000, false)).1
  Int.bmod
    (priorityLevel - (if hasPublicGroup evaluator then 25 else (groups evaluator).length) -
      (users evaluator).length -
      Platform.roundQuotient (25 * (accessPerms evaluator).length)
        evaluator.serviceDef.accessTypes.length) (2 ^ 32)

/-- The aggregated test of users and groups. -/
def admitsUser (user : Option String) (userGroups : List String) : Bool :=
  hasPublicGroup evaluator ||
    (match user with
      | none => false
      | some user => (users evaluator).contains user) ||
    (groups evaluator).any userGroups.contains

/-- The aggregated test of access types. -/
def admitsAccess (accessType : String) : Bool :=
  accessType == ANY_ACCESS || (accessType == ADMIN_ACCESS && delegateAdmin evaluator) ||
    hasAllPerms evaluator || (accessPerms evaluator).contains accessType

/-- `isAccessAllowed(user, userGroups, accessType)`. -/
def isAccessAllowed (user : Option String) (userGroups : List String) (accessType : String) :
    Bool :=
  let requested := if accessType.isEmpty then ANY_ACCESS else accessType
  if admitsUser evaluator user userGroups then
    if admitsAccess evaluator requested then
      evaluator.isAccessAllowed user userGroups requested
    else false
  else false

variable [ClassLoader]

def evaluatePolicyItemsForAccess (request : RangerAccessRequest) (result : RangerAccessResult) :
    RangerAccessResult :=
  if admitsUser evaluator request.user request.userGroups then
    if admitsAccess evaluator request.accessType then
      evaluator.evaluatePolicyItemsForAccess request result
    else result
  else result

def evaluate (request : RangerAccessRequest) (result : RangerAccessResult) : RangerAccessResult :=
  (evaluator.evaluateWith (fun resource (state : Unit) => (evaluator.isMatch resource, state))
    (evaluatePolicyItemsForAccess evaluator) request result ()).1

theorem evaluate_eq (request : RangerAccessRequest) (result : RangerAccessResult) :
    evaluate evaluator request result =
      evaluator.evaluateCovered (evaluatePolicyItemsForAccess evaluator)
        (evaluator.covers (evaluator.isMatch request.resource) request) request result := by
  unfold evaluate
  rw [evaluateWith_eq]
  cases audited : result.isAuditedDetermined <;> cases access : result.isAccessDetermined <;>
    simp [evaluateCovered, audited, access]

omit [ClassLoader] in
/-- The aggregated users and groups admit whoever one of the items names. -/
theorem admitsUser_of_matchUserGroup {policyItem : RangerPolicyItem} {user : Option String}
    {userGroups : List String} (member : policyItem ∈ evaluator.policy.policyItems)
    (named : matchUserGroup policyItem user userGroups) :
    admitsUser evaluator user userGroups := by
  have listedGroup : ∀ group ∈ policyItem.groups, group ∈ groups evaluator := by
    intro group listed
    exact List.mem_dedup.mpr (List.mem_flatMap.mpr ⟨policyItem, member, listed⟩)
  simp only [matchUserGroup, Bool.or_eq_true, List.contains_iff_mem, List.any_eq_true] at named
  simp only [admitsUser, Bool.or_eq_true, List.any_eq_true]
  rcases named with user_named | everyone | ⟨group, listed, shared⟩
  · cases user with
    | none => cases user_named
    | some user =>
        refine Or.inl (Or.inr ?_)
        rw [List.contains_iff_mem] at user_named ⊢
        exact List.mem_dedup.mpr (List.mem_flatMap.mpr ⟨policyItem, member, user_named⟩)
  · refine Or.inl (Or.inl ?_)
    exact List.any_eq_true.mpr ⟨GROUP_PUBLIC, listedGroup _ everyone, equalsIgnoreCase_refl _⟩
  · exact Or.inr ⟨group, listedGroup group listed, List.contains_iff_mem.mpr shared⟩

/-- An item that grants an any-access or delegated-admin request is not hidden by
the aggregated access types. -/
theorem admitsAccess_of_grants {policyItem : RangerPolicyItem} {request : RangerAccessRequest}
    (member : policyItem ∈ evaluator.policy.policyItems)
    (granted : evaluator.grants request policyItem)
    (general : request.isAccessTypeAny ∨ request.isAccessTypeDelegatedAdmin) :
    admitsAccess evaluator request.accessType := by
  simp only [admitsAccess, Bool.or_eq_true, Bool.and_eq_true]
  rcases general with any | admin
  · exact Or.inl (Or.inl (Or.inl any))
  · refine Or.inl (Or.inl (Or.inr ⟨admin, ?_⟩))
    simp only [grants, admin, ↓reduceIte, Bool.and_eq_true] at granted
    exact List.any_eq_true.mpr ⟨policyItem, member, granted.2⟩

/-- The test of the items behind the aggregated tests: a granting item counts when
the aggregated access types admit the request. -/
theorem evaluatePolicyItemsForAccess_eq (request : RangerAccessRequest)
    (result : RangerAccessResult) :
    evaluatePolicyItemsForAccess evaluator request result =
      if admitsAccess evaluator request.accessType then
        evaluator.evaluatePolicyItemsForAccess request result
      else result := by
  unfold evaluatePolicyItemsForAccess
  by_cases admitted : admitsUser evaluator request.user request.userGroups = true
  · simp only [admitted, ↓reduceIte]
  · have denied : evaluator.policy.policyItems.any (evaluator.grants request) = false := by
      apply Bool.eq_false_iff.mpr
      intro some_grants
      obtain ⟨policyItem, member, granted⟩ := List.any_eq_true.mp some_grants
      simp only [grants, Bool.and_eq_true] at granted
      exact admitted (admitsUser_of_matchUserGroup evaluator member granted.1)
    simp [admitted, RangerDefaultPolicyEvaluator.evaluatePolicyItemsForAccess, denied]

omit [Platform] [ClassLoader] in
/-- The aggregated access types admit a specific access by its spelling, or when
they are all the service has. -/
theorem admitsAccess_iff_of_specific {request : RangerAccessRequest}
    (specific : request.isAccessTypeAny = false)
    (ordinary : request.isAccessTypeDelegatedAdmin = false) :
    admitsAccess evaluator request.accessType = true ↔
      request.accessType ∈ accessPerms evaluator ∨ hasAllPerms evaluator = true := by
  simp only [RangerAccessRequest.isAccessTypeAny] at specific
  simp only [RangerAccessRequest.isAccessTypeDelegatedAdmin] at ordinary
  simp only [admitsAccess, specific, ordinary, Bool.false_and, Bool.or_false, Bool.false_or,
    Bool.or_eq_true, List.contains_iff_mem]
  exact or_comm

/-- Hiding an item that grants the request changes the outcome. -/
private theorem evaluate_ne_of_hidden {request : RangerAccessRequest} {result : RangerAccessResult}
    (undetermined : result.isAccessDetermined = false)
    (matched : evaluator.isMatch request.resource = true)
    (granted : evaluator.policy.policyItems.any (evaluator.grants request) = true)
    (hidden : admitsAccess evaluator request.accessType = false) :
    evaluate evaluator request result ≠ evaluator.evaluate request result := by
  intro same
  rw [evaluate_eq, RangerDefaultPolicyEvaluator.evaluate_eq] at same
  have differs := congrArg RangerAccessResult.isAccessDetermined same
  cases audited : result.isAuditedDetermined <;>
    cases enabled : evaluator.policy.isAuditEnabled <;>
      simp [evaluateCovered, covers, matched, undetermined, evaluatePolicyItemsForAccess_eq,
        hidden, RangerDefaultPolicyEvaluator.evaluatePolicyItemsForAccess, granted, audited,
        enabled] at differs

/-- **Agreement with the default evaluator.** The aggregated tests change nothing
exactly when a granting item for a specific access type comes with an allowed
access spelled as requested, or with all the access types of the service. -/
theorem evaluate_eq_default_iff (policy : RangerPolicy) (serviceDef : RangerServiceDef)
    (options : RangerPolicyEngineOptions) (request : RangerAccessRequest)
    (result : RangerAccessResult) :
    evaluate (init policy serviceDef options) request result =
        (init policy serviceDef options).evaluate request result ↔
      (result.isAccessDetermined = false → request.isAccessTypeAny = false →
        request.isAccessTypeDelegatedAdmin = false →
        (init policy serviceDef options).isMatch request.resource = true →
        (∃ policyItem ∈ (init policy serviceDef options).policy.policyItems,
          (init policy serviceDef options).grants request policyItem = true) →
        request.accessType ∈ accessPerms (init policy serviceDef options) ∨
          hasAllPerms (init policy serviceDef options) = true) := by
  generalize init policy serviceDef options = evaluator
  constructor
  · intro same undetermined specific ordinary matched granted
    rw [← admitsAccess_iff_of_specific evaluator specific ordinary]
    cases hidden : admitsAccess evaluator request.accessType with
    | true => rfl
    | false =>
        exact absurd same (evaluate_ne_of_hidden evaluator undetermined matched
          (List.any_eq_true.mpr granted) hidden)
  · intro spelled
    rw [evaluate_eq, RangerDefaultPolicyEvaluator.evaluate_eq]
    unfold evaluateCovered
    by_cases undetermined : result.isAccessDetermined = false
    · by_cases within : evaluator.covers (evaluator.isMatch request.resource) request = true
      · have admitted : evaluator.policy.policyItems.any (evaluator.grants request) = true →
            admitsAccess evaluator request.accessType = true := by
          intro granted
          obtain ⟨policyItem, member, grantsIt⟩ := List.any_eq_true.mp granted
          by_cases general : request.isAccessTypeAny ∨ request.isAccessTypeDelegatedAdmin
          · exact admitsAccess_of_grants evaluator member grantsIt general
          · simp only [not_or, Bool.not_eq_true] at general
            have matched : evaluator.isMatch request.resource = true := by
              simpa only [covers, general.1, Bool.false_and, Bool.or_false] using within
            rw [admitsAccess_iff_of_specific evaluator general.1 general.2]
            exact spelled undetermined general.1 general.2 matched ⟨policyItem, member, grantsIt⟩
        have sameItems : ∀ current, evaluatePolicyItemsForAccess evaluator request current =
            evaluator.evaluatePolicyItemsForAccess request current := by
          intro current
          rw [evaluatePolicyItemsForAccess_eq]
          by_cases granted : evaluator.policy.policyItems.any (evaluator.grants request) = true
          · rw [if_pos (admitted granted)]
          · simp [RangerDefaultPolicyEvaluator.evaluatePolicyItemsForAccess, granted]
        simp only [sameItems]
      · simp [within]
    · simp [undetermined]

end Aggregates

section Spelling

attribute [local instance] Platform.ascii ClassLoader.addresses

def pathServiceDef : RangerServiceDef where
  name := "hdfs"
  resources := [{ name := "path" }]
  accessTypes := [{ name := "read" }, { name := "write" }]

/-- A policy that spells the access type with a capital letter. -/
def capitalPolicy : RangerPolicy where
  resources := .single "path" { values := ["/data"] }
  policyItems := [{ accesses := [{ type := "Read" }], users := ["alice"] }]

def requestToRead : RangerAccessRequest where
  resource := { elements := some ⟨[("path", some "/data")], by decide⟩ }
  accessType := "read"
  user := some "alice"

/-- The default evaluator ignores the letter case of the access type, the
aggregated test does not. -/
theorem capital_access_hidden :
    ((init capitalPolicy pathServiceDef {}).evaluate requestToRead {}).isAllowed = true ∧
      (evaluate (init capitalPolicy pathServiceDef {}) requestToRead {}).isAllowed = false := by
  decide

end Spelling

end RangerOptimizedPolicyEvaluator

end Ranger

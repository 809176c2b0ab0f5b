import Ranger.Admin.ExactMatch
import Ranger.Admin.Grant
import Ranger.Admin.StoredPolicy
import Ranger.Foundation.Loop

/-! # Whether a grant takes effect

A grant that succeeds is meant to give every grantee the requested accesses. It does so
where the policy it edits or makes reaches the resource and the item it extends is not
held back by conditions, or by an access of the type that is denied.
-/

namespace Ranger

open Foundation RangerDefaultPolicyEvaluator

/-- An access is asked by the user, or by a member of the group. -/
def Grantee.Covers : Grantee → RangerAccessRequest → Prop
  | .user name, asked => asked.user = some name
  | .group name, asked => name = GROUP_PUBLIC ∨ name ∈ asked.userGroups

/-- A grant is to allow an access: of a requested type, to its resource, by a requested
user without groups or by any user in a requested group. -/
structure GrantRevokeRequest.Promises (request : GrantRevokeRequest) (asked : RangerAccessRequest) :
    Prop where
  resource : asked.resource = { elements := some request.resource }
  accessType : asked.accessType ∈ request.accessTypes
  asker : (∃ name ∈ request.users, asked.user = some name ∧ asked.userGroups = []) ∨
    (asked.user.isSome ∧ ∃ name ∈ request.groups, name ∈ asked.userGroups)

theorem GrantRevokeRequest.Promises.covered {request : GrantRevokeRequest}
    {asked : RangerAccessRequest} (promised : request.Promises asked) :
    ∃ grantee ∈ request.grantees, grantee.Covers asked := by
  unfold grantees
  rcases promised.asker with ⟨name, listed, asks, _⟩ | ⟨_, name, listed, joined⟩
  · exact ⟨.user name, List.mem_append_left _ (List.mem_map_of_mem listed), asks⟩
  · exact ⟨.group name, List.mem_append_right _ (List.mem_map_of_mem listed), .inr joined⟩

namespace ServiceREST

section Items

variable {request : GrantRevokeRequest} {policyItems : List RangerPolicyItem}

theorem mem_allowedAccesses {accessTypes : List String} {accessType : String}
    (requested : accessType ∈ accessTypes) (accesses : List RangerPolicyItemAccess) :
    ⟨accessType, true⟩ ∈ allowedAccesses accessTypes accesses := by
  have found := find?_allowedAccesses (accessType == ·) accessTypes accesses
  cases located : accesses.find? fun access => accessType == access.type with
  | some access =>
      have typed : accessType = access.type := by simpa using List.find?_some located
      subst typed
      simp only [located, requested, ↓reduceIte] at found
      exact List.mem_of_find?_eq_some found
  | none =>
      obtain ⟨first, isFirst⟩ := Option.isSome_iff_exists.mp
        (List.find?_isSome.mpr ⟨accessType, requested, beq_self_eq_true accessType⟩)
      have same : accessType = first := by simpa using List.find?_some isFirst
      simp only [located, isFirst, Option.map_some, ← same] at found
      exact List.mem_of_find?_eq_some found

theorem newItem_eq (request : GrantRevokeRequest) (grantee : Grantee) :
    ∃ policyItem : RangerPolicyItem, newItem request grantee = (grantToItem request policyItem).1 ∧
      policyItem.accesses = [] ∧ policyItem.conditions = [] ∧
        policyItem.delegateAdmin = false := by
  cases grantee <;> exact ⟨_, rfl, rfl, rfl, rfl⟩

theorem isPolicyItemFor_newItem_iff {grantee other : Grantee} :
    isPolicyItemFor grantee (newItem request other) = true ↔ grantee = other := by
  cases grantee <;> cases other <;>
    simp [isPolicyItemFor, newItem, grantToItem_fst]

/-- Every grantee without an item gets one. -/
theorem newItem_mem {grantee : Grantee} (member : grantee ∈ request.grantees)
    (absent : (grantBase request policyItems).findIdx? (isPolicyItemFor grantee) = none) :
    newItem request grantee ∈ (grantToPolicyItems request policyItems).1 := by
  have freshFits : ∀ grantee, [newItem request grantee].any (isPolicyItemFor grantee) = true := by
    intro grantee
    rw [List.any_cons, isPolicyItemFor_newItem_iff.mpr rfl, Bool.true_or]
  have fitting := FirstMatch.any_fits_upsertAll (isPolicyItemFor_grantToItem request) freshFits
    (grantBase request policyItems) request.grantees grantee member
  rw [← grantToPolicyItems_fst] at fitting
  obtain ⟨policyItem, listed, fits⟩ := List.any_eq_true.mp fitting
  obtain ⟨index, read⟩ := List.mem_iff_getElem?.mp listed
  have progress := progress_grant request policyItems
  have unfit := List.findIdx?_eq_none_iff.mp absent
  by_cases inside : index < (grantBase request policyItems).length
  · obtain ⟨original, origin⟩ : ∃ original,
        (grantBase request policyItems)[index]? = some original :=
      ⟨_, List.getElem?_eq_getElem inside⟩
    have never := unfit original (List.mem_of_getElem? origin)
    by_cases selected : Extended request (grantBase request policyItems) index
    · rw [progress.edited index original origin selected, Option.some.injEq] at read
      rw [← read, isPolicyItemFor_grantToItem, never] at fits
      nomatch fits
    · rw [progress.kept index original origin selected, Option.some.injEq] at read
      rw [← read, never] at fits
      nomatch fits
  · obtain ⟨other, _, _, rfl⟩ := progress.added index policyItem (Nat.le_of_not_lt inside) read
    rw [isPolicyItemFor_newItem_iff.mp fits]
    exact listed

/-- What an item passes once it is extended, an item of the policy passes after a grant,
or one that was there, or one that is added. -/
theorem exists_mem_grantToPolicyItems_iff {test : RangerPolicyItem → Prop}
    (extends_test : ∀ policyItem, test policyItem → test (grantToItem request policyItem).1) :
    (∃ policyItem ∈ (grantToPolicyItems request policyItems).1, test policyItem) ↔
      (∃ policyItem ∈ grantBase request policyItems, test policyItem) ∨
        (∃ index policyItem, Extended request (grantBase request policyItems) index ∧
          (grantBase request policyItems)[index]? = some policyItem ∧
            test (grantToItem request policyItem).1) ∨
          ∃ grantee ∈ request.grantees,
            (grantBase request policyItems).findIdx? (isPolicyItemFor grantee) = none ∧
              test (newItem request grantee) := by
  have progress := progress_grant request policyItems
  constructor
  · rintro ⟨policyItem, listed, passed⟩
    obtain ⟨index, read⟩ := List.mem_iff_getElem?.mp listed
    by_cases inside : index < (grantBase request policyItems).length
    · obtain ⟨original, origin⟩ : ∃ original,
          (grantBase request policyItems)[index]? = some original :=
        ⟨_, List.getElem?_eq_getElem inside⟩
      by_cases selected : Extended request (grantBase request policyItems) index
      · rw [progress.edited index original origin selected, Option.some.injEq] at read
        exact .inr (.inl ⟨index, original, selected, origin, read ▸ passed⟩)
      · rw [progress.kept index original origin selected, Option.some.injEq] at read
        exact .inl ⟨original, List.mem_of_getElem? origin, read ▸ passed⟩
    · obtain ⟨grantee, member, absent, rfl⟩ :=
        progress.added index policyItem (Nat.le_of_not_lt inside) read
      exact .inr (.inr ⟨grantee, member, absent, passed⟩)
  · rintro (⟨policyItem, listed, passed⟩ | ⟨index, policyItem, selected, origin, passed⟩ |
      ⟨grantee, member, absent, passed⟩)
    · obtain ⟨index, origin⟩ := List.mem_iff_getElem?.mp listed
      by_cases selected : Extended request (grantBase request policyItems) index
      · exact ⟨_, List.mem_of_getElem? (progress.edited index policyItem origin selected),
          extends_test policyItem passed⟩
      · exact ⟨_, List.mem_of_getElem? (progress.kept index policyItem origin selected), passed⟩
    · exact ⟨_, List.mem_of_getElem? (progress.edited index policyItem origin selected), passed⟩
    · exact ⟨_, newItem_mem member absent, passed⟩

/-- Every requested access type is listed as it is spelled once there is a grantee. -/
theorem exists_requested_access {accessType : String} (requested : accessType ∈ request.accessTypes)
    (grantees : request.grantees ≠ []) :
    ∃ policyItem ∈ (grantToPolicyItems request policyItems).1,
      ⟨accessType, true⟩ ∈ policyItem.accesses := by
  obtain ⟨grantee, member⟩ := List.exists_mem_of_ne_nil _ grantees
  have granted : ∀ policyItem,
      ⟨accessType, true⟩ ∈ (grantToItem request policyItem).1.accesses := by
    intro policyItem
    rw [grantToItem_fst]
    exact mem_allowedAccesses requested policyItem.accesses
  cases found : (grantBase request policyItems).findIdx? (isPolicyItemFor grantee) with
  | none =>
      obtain ⟨policyItem, made, _⟩ := newItem_eq request grantee
      exact ⟨_, newItem_mem member found, made ▸ granted policyItem⟩
  | some index =>
      obtain ⟨inside, _⟩ := List.findIdx?_eq_some_iff_getElem.mp found
      have edited := (progress_grant request policyItems).edited index _
        (List.getElem?_eq_getElem inside) ⟨grantee, member, found⟩
      exact ⟨_, List.mem_of_getElem? edited, granted _⟩

/-- A grant does not touch conditions. -/
theorem conditions_grantToPolicyItems (request : GrantRevokeRequest)
    (policyItems : List RangerPolicyItem) :
    (grantToPolicyItems request policyItems).1.flatMap (·.conditions) =
      (grantBase request policyItems).flatMap (·.conditions) := by
  rw [grantToPolicyItems_fst]
  apply FirstMatch.flatMap_upsertAll
  · intro policyItem
    rw [grantToItem_fst]
  · intro grantee
    obtain ⟨policyItem, made, _, none, _⟩ := newItem_eq request grantee
    rw [List.flatMap_singleton, made, grantToItem_fst]
    exact none

end Items

section Rights

variable [Platform]

/-- An access type is allowed after rounds in which an allowed type raises those it implies. -/
def Raised : List (String × List String) → (String → Prop) → String → Prop
  | [], allowed, accessType => allowed accessType
  | grants :: rest, allowed, accessType =>
      Raised rest (fun other => allowed other ∨
        (allowed grants.1 ∧ ∃ implied ∈ grants.2, equalsIgnoreCase other implied = true))
        accessType

theorem Raised.of_allowed {rounds : List (String × List String)} {allowed : String → Prop}
    {accessType : String} (given : allowed accessType) : Raised rounds allowed accessType := by
  induction rounds generalizing allowed with
  | nil => exact given
  | cons grants rest ih => exact ih (.inl given)

theorem Raised.mono {rounds : List (String × List String)} {allowed more : String → Prop}
    (below : ∀ other, allowed other → more other) {accessType : String}
    (raised : Raised rounds allowed accessType) : Raised rounds more accessType := by
  induction rounds generalizing allowed more with
  | nil => exact below accessType raised
  | cons grants rest ih =>
      exact ih (fun other => Or.imp (below other) (And.imp_left (below grants.1))) raised

theorem allowedAt_foldl_impliedAccesses_iff (rounds : List (String × List String))
    (accesses : List RangerPolicyItemAccess) (accessType : String) :
    allowedAt (rounds.foldl impliedAccesses accesses) accessType = true ↔
      Raised rounds (fun other => allowedAt accesses other = true) accessType := by
  induction rounds generalizing accesses with
  | nil => rfl
  | cons grants rest ih =>
      rw [List.foldl_cons, ih, Raised]
      have step : (fun other => allowedAt (impliedAccesses accesses grants) other = true) =
          fun other => allowedAt accesses other = true ∨ (allowedAt accesses grants.1 = true ∧
            ∃ implied ∈ grants.2, equalsIgnoreCase other implied = true) := by
        funext other
        rw [allowedAt_impliedAccesses, Bool.or_eq_true, Bool.and_eq_true, List.any_eq_true]
      rw [step]

theorem allowedAt_iff_carries {policyItem : RangerPolicyItem} {accessType : String} :
    allowedAt policyItem.accesses accessType = true ↔
      Carries equalsIgnoreCase policyItem accessType := by
  unfold allowedAt Carries
  rw [Option.any_eq_true]

theorem any_foldl_impliedAccesses (rounds : List (String × List String))
    (accesses : List RangerPolicyItemAccess) :
    (rounds.foldl impliedAccesses accesses).any (·.isAllowed) = accesses.any (·.isAllowed) :=
  foldl_same impliedAccesses (·.any (·.isAllowed)) any_impliedAccesses rounds accesses

/-- An access that is allowed stays, however implied ones are raised. -/
theorem mem_foldl_impliedAccesses {access : RangerPolicyItemAccess} (granted : access.isAllowed)
    (rounds : List (String × List String)) {accesses : List RangerPolicyItemAccess}
    (member : access ∈ accesses) : access ∈ rounds.foldl impliedAccesses accesses := by
  have raised : ∀ (isAllowed : Bool) (impliedGrants : List String)
      (accesses : List RangerPolicyItemAccess), access ∈ accesses →
      access ∈ impliedGrants.foldl (withGrant isAllowed) accesses := by
    intro isAllowed impliedGrants
    induction impliedGrants with
    | nil => exact fun _ member => member
    | cons impliedGrant rest ih =>
        intro accesses member
        refine ih _ (FirstMatch.mem_upsert_of_fixed member ?_ impliedGrant)
        rw [granted, Bool.true_or]
        obtain ⟨type, isAllowed⟩ := access
        cases granted
        rfl
  induction rounds generalizing accesses with
  | nil => exact member
  | cons grants rest ih =>
      apply ih
      unfold impliedAccesses
      split
      · exact member
      · exact raised _ _ _ member

/-- The item gives a requested access once a grant has extended it: what it lists for the
type, or a type that implies it, is allowed already or is spelled as requested. -/
def GivesExtended (serviceDef : RangerServiceDef) (request : GrantRevokeRequest)
    (policyItem : RangerPolicyItem) (accessType : String) : Prop :=
  Raised (getImpliedAccessGrants serviceDef)
    (fun other => Carries equalsIgnoreCase policyItem other ∨
      Adds equalsIgnoreCase request policyItem other) accessType

variable [ClassLoader]

/-- The item, once a grant has extended it, passes every test of the evaluator. -/
def Serves (serviceDef : RangerServiceDef) (request : GrantRevokeRequest)
    (evaluators : AssocMap String RangerConditionEvaluator) (asked : RangerAccessRequest)
    (policyItem : RangerPolicyItem) : Prop :=
  matchUserGroup policyItem asked.user asked.userGroups = true ∧
    if asked.isAccessTypeDelegatedAdmin then
      policyItem.delegateAdmin = true ∨ request.delegateAdmin = true
    else
      (asked.isAccessTypeAny = true ∨
          GivesExtended serviceDef request policyItem asked.accessType) ∧
        matchCustomConditions policyItem asked evaluators = true

variable {request : GrantRevokeRequest} {serviceDef : RangerServiceDef}
  {evaluator : RangerDefaultPolicyEvaluator} {asked : RangerAccessRequest}

theorem grants_grantToItem_iff (requested : asked.accessType ∈ request.accessTypes)
    (policyItem : RangerPolicyItem) :
    evaluator.grants asked
        (preprocessPolicyItem serviceDef (grantToItem request policyItem).1) = true ↔
      Serves serviceDef request evaluator.getConditionEvaluators asked policyItem := by
  have conditions : (grantToItem request policyItem).1.conditions = policyItem.conditions := by
    rw [grantToItem_fst]
  have listed : (grantToItem request policyItem).1.accesses.any (·.isAllowed) = true := by
    rw [grantToItem_fst]
    exact List.any_eq_true.mpr ⟨_, mem_allowedAccesses requested _, rfl⟩
  rw [grants_preprocessPolicyItem, Bool.and_eq_true, matchUserGroup_grantToItem]
  unfold Serves GivesExtended
  refine and_congr_right fun _ => ?_
  cases asked.isAccessTypeDelegatedAdmin with
  | true => exact delegateAdmin_grantToItem request policyItem
  | false =>
      simp only [Bool.false_eq_true, ↓reduceIte, Bool.and_eq_true]
      have sameConditions : matchCustomConditions (grantToItem request policyItem).1 asked
          evaluator.getConditionEvaluators =
            matchCustomConditions policyItem asked evaluator.getConditionEvaluators := by
        unfold matchCustomConditions
        rw [conditions]
      rw [sameConditions, preprocessPolicyItem_eq]
      refine and_congr_left fun _ => ?_
      cases asked.isAccessTypeAny with
      | true => simp only [↓reduceIte, any_foldl_impliedAccesses, listed, true_or]
      | false =>
          simp only [Bool.false_eq_true, ↓reduceIte, false_or,
            allowedAt_foldl_impliedAccesses_iff, allowedAt_iff_carries, carries_grantToItem]

/-- An item that grants a request still does once a grant has extended it. -/
theorem grants_grantToItem_of_grants (requested : asked.accessType ∈ request.accessTypes)
    (policyItem : RangerPolicyItem)
    (granted : evaluator.grants asked (preprocessPolicyItem serviceDef policyItem) = true) :
    evaluator.grants asked
      (preprocessPolicyItem serviceDef (grantToItem request policyItem).1) = true := by
  rw [grants_grantToItem_iff requested]
  rw [grants_preprocessPolicyItem, Bool.and_eq_true] at granted
  refine granted.imp id fun passed => ?_
  cases admin : asked.isAccessTypeDelegatedAdmin with
  | true =>
      rw [admin] at passed
      exact .inl passed
  | false =>
      rw [admin] at passed
      simp only [Bool.false_eq_true, ↓reduceIte, Bool.and_eq_true] at passed ⊢
      refine passed.imp (fun allowed => ?_) id
      cases any : asked.isAccessTypeAny with
      | true => exact .inl rfl
      | false =>
          rw [any, preprocessPolicyItem_eq] at allowed
          simp only [Bool.false_eq_true, ↓reduceIte, allowedAt_foldl_impliedAccesses_iff] at allowed
          exact .inr (allowed.mono fun other given => .inl (allowedAt_iff_carries.mp given))

omit [Platform] [ClassLoader] in
theorem matchUserGroup_newItem_iff (grantee : Grantee) :
    matchUserGroup (newItem request grantee) asked.user asked.userGroups = true ↔
      grantee.Covers asked := by
  cases grantee with
  | user name =>
      change matchUserGroup (grantToItem request { users := [name] }).1 _ _ = true ↔
        asked.user = some name
      rw [matchUserGroup_grantToItem]
      unfold matchUserGroup
      cases asked.user with
      | none => simp
      | some other => simp
  | group name =>
      change matchUserGroup (grantToItem request { groups := [name] }).1 _ _ = true ↔
        name = GROUP_PUBLIC ∨ name ∈ asked.userGroups
      rw [matchUserGroup_grantToItem, @eq_comm _ name]
      unfold matchUserGroup
      cases asked.user with
      | none => simp
      | some other => simp

/-- An item made for a grantee gives what is requested, unless that is delegated admin. -/
theorem grants_newItem_iff (requested : asked.accessType ∈ request.accessTypes)
    (grantee : Grantee) :
    evaluator.grants asked (preprocessPolicyItem serviceDef (newItem request grantee)) = true ↔
      grantee.Covers asked ∧
        (asked.isAccessTypeDelegatedAdmin = true → request.delegateAdmin = true) := by
  have named := @matchUserGroup_newItem_iff request asked grantee
  obtain ⟨policyItem, made, accesses, conditions, delegateAdmin⟩ := newItem_eq request grantee
  rw [made, matchUserGroup_grantToItem] at named
  rw [made, grants_grantToItem_iff requested, Serves, named]
  refine and_congr_right fun _ => ?_
  cases asked.isAccessTypeDelegatedAdmin with
  | true => simp [delegateAdmin]
  | false =>
      have adds : Adds equalsIgnoreCase request policyItem asked.accessType := by
        unfold Adds
        rw [accesses]
        exact ⟨_, requested, equalsIgnoreCase_refl _⟩
      have passed : matchCustomConditions policyItem asked evaluator.getConditionEvaluators =
          true := by
        unfold matchCustomConditions
        rw [conditions]
        rfl
      have given : GivesExtended serviceDef request policyItem asked.accessType :=
        Raised.of_allowed (.inr adds)
      simp [passed, given]

end Rights

section Policies

open RangerPolicyEngineImpl

variable [Platform]

/-- What a policy reaches depends on its resources only. -/
theorem reaches_of_resources {policy other : RangerPolicy} {serviceDef : RangerServiceDef}
    {options : RangerPolicyEngineOptions} {asked : RangerAccessRequest}
    (same : other.resources = policy.resources) :
    Reaches serviceDef options asked other ↔ Reaches serviceDef options asked policy := by
  have matchers : (init other serviceDef options).matchers =
      (init policy serviceDef options).matchers := by
    unfold matchers init preprocessPolicy
    rw [same]
  have resources : (init other serviceDef options).policy.resources =
      (init policy serviceDef options).policy.resources := same
  unfold Reaches isMatch matchResourceHead keysMatch matchesLevel
  simp only [matchers, resources, ServiceDBStore.matchHeadLoop_of_matchers matchers]
  rfl

variable [ClassLoader] {policy other : RangerPolicy} {serviceDef : RangerServiceDef}
  {options : RangerPolicyEngineOptions} {asked : RangerAccessRequest}
  {request : GrantRevokeRequest}

theorem getConditionEvaluators_of_conditions
    (same : other.policyItems.flatMap (·.conditions) = policy.policyItems.flatMap (·.conditions)) :
    (init other serviceDef options).getConditionEvaluators =
      (init policy serviceDef options).getConditionEvaluators := by
  have prepared : ∀ policyItems : List RangerPolicyItem,
      (policyItems.map (preprocessPolicyItem serviceDef)).flatMap (·.conditions) =
        policyItems.flatMap (·.conditions) := by
    intro policyItems
    rw [List.flatMap_map]
    simp only [preprocessPolicyItem_eq]
  rw [getConditionEvaluators_init, getConditionEvaluators_init]
  unfold initializeConditionEvaluators preprocessPolicy
  rw [prepared, prepared, same]

theorem grants_iff : Grants serviceDef options asked policy ↔ ∃ policyItem ∈ policy.policyItems,
    (init policy serviceDef options).grants asked
      (preprocessPolicyItem serviceDef policyItem) = true := by
  unfold Grants init preprocessPolicy
  simp only [List.mem_map, exists_exists_and_eq_and]

/-- The items a grant leaves in a policy give the access: one that does so as it is, one
that is extended, or one that is added. -/
def ServedIn (serviceDef : RangerServiceDef) (options : RangerPolicyEngineOptions)
    (request : GrantRevokeRequest) (policy : RangerPolicy) (asked : RangerAccessRequest) : Prop :=
  let left := { policy with policyItems := grantBase request policy.policyItems }
  Grants serviceDef options asked left ∨
    (∃ index policyItem, Extended request left.policyItems index ∧
      left.policyItems[index]? = some policyItem ∧
        Serves serviceDef request (init left serviceDef options).getConditionEvaluators asked
          policyItem) ∨
    ∃ grantee ∈ request.grantees,
      left.policyItems.findIdx? (isPolicyItemFor grantee) = none ∧ grantee.Covers asked ∧
        (asked.isAccessTypeDelegatedAdmin = true → request.delegateAdmin = true)

/-- **Items.** What the edited policy grants, by the items it had. -/
theorem grants_granted_iff (requested : asked.accessType ∈ request.accessTypes)
    (edited : other.policyItems = (grantToPolicyItems request policy.policyItems).1) :
    Grants serviceDef options asked other ↔ ServedIn serviceDef options request policy asked := by
  have evaluators : (init other serviceDef options).getConditionEvaluators =
      (init { policy with policyItems := grantBase request policy.policyItems } serviceDef
        options).getConditionEvaluators := by
    apply getConditionEvaluators_of_conditions
    rw [edited, conditions_grantToPolicyItems]
  have tests : ∀ policyItem, (init other serviceDef options).grants asked policyItem =
      (init { policy with policyItems := grantBase request policy.policyItems } serviceDef
        options).grants asked policyItem := by
    intro policyItem
    unfold grants
    rw [evaluators]
  rw [grants_iff, edited]
  simp only [tests]
  rw [exists_mem_grantToPolicyItems_iff (grants_grantToItem_of_grants requested)]
  unfold ServedIn
  simp only [grants_iff, grants_grantToItem_iff requested, grants_newItem_iff requested]

omit [ClassLoader] in
/-- An allowed access as it is requested admits the request. -/
theorem admitsAccess_of_mem {policyItem : RangerPolicyItem}
    (listed : policyItem ∈ policy.policyItems)
    (granted : ⟨asked.accessType, true⟩ ∈ policyItem.accesses) :
    RangerOptimizedPolicyEvaluator.admitsAccess (init policy serviceDef options)
      asked.accessType = true := by
  have prepared : ⟨asked.accessType, true⟩ ∈
      (preprocessPolicyItem serviceDef policyItem).accesses := by
    rw [preprocessPolicyItem_eq]
    exact mem_foldl_impliedAccesses rfl _ granted
  have perms : asked.accessType ∈
      RangerOptimizedPolicyEvaluator.accessPerms (init policy serviceDef options) := by
    unfold RangerOptimizedPolicyEvaluator.accessPerms
    rw [List.mem_dedup, List.mem_map]
    refine ⟨_, List.mem_filter.mpr ⟨List.mem_flatMap.mpr ⟨_, ?_, prepared⟩, rfl⟩, rfl⟩
    exact List.mem_map_of_mem listed
  unfold RangerOptimizedPolicyEvaluator.admitsAccess
  rw [List.contains_iff_mem.mpr perms, Bool.or_true]

variable {configuration : RangerConfiguration}

/-- **The edited policy.** It allows the access if it reaches it and an item gives it. -/
theorem allows_granted_iff (requested : asked.accessType ∈ request.accessTypes)
    (grantees : request.grantees ≠ []) (resources : other.resources = policy.resources)
    (edited : other.policyItems = (grantToPolicyItems request policy.policyItems).1) :
    (RangerPolicyRepository.buildPolicyEvaluator configuration other serviceDef options).allows
        asked = true ↔
      Reaches serviceDef options asked policy ∧
        ServedIn serviceDef options request policy asked := by
  obtain ⟨policyItem, listed, granted⟩ :=
    @exists_requested_access request policy.policyItems _ requested grantees
  rw [allows_iff_of_admitted (admitsAccess_of_mem (edited ▸ listed) granted),
    reaches_of_resources resources, grants_granted_iff requested edited]

theorem grants_grantedItem_iff {evaluator : RangerDefaultPolicyEvaluator}
    (requested : asked.accessType ∈ request.accessTypes) (grantee : Grantee) :
    evaluator.grants asked
        (preprocessPolicyItem serviceDef (grantedItem request grantee)) = true ↔
      grantee.Covers asked ∧
        (asked.isAccessTypeDelegatedAdmin = true → request.delegateAdmin = true) := by
  have named : matchUserGroup (grantedItem request grantee) asked.user asked.userGroups = true ↔
      grantee.Covers asked := by
    rw [← @matchUserGroup_newItem_iff request asked grantee]
    cases grantee <;> (unfold newItem; rw [matchUserGroup_grantToItem]; rfl)
  have accesses : (grantedItem request grantee).accesses =
      request.accessTypes.map fun accessType => ⟨accessType, true⟩ := by
    cases grantee <;> rfl
  have conditions : (grantedItem request grantee).conditions = [] := by cases grantee <;> rfl
  have delegateAdmin : (grantedItem request grantee).delegateAdmin = request.delegateAdmin := by
    cases grantee <;> rfl
  rw [grants_preprocessPolicyItem, Bool.and_eq_true, named, delegateAdmin]
  refine and_congr_right fun _ => ?_
  cases asked.isAccessTypeDelegatedAdmin with
  | true => simp
  | false =>
      have listed : (⟨asked.accessType, true⟩ : RangerPolicyItemAccess) ∈
          (grantedItem request grantee).accesses := by
        rw [accesses]
        exact List.mem_map_of_mem requested
      have any : (grantedItem request grantee).accesses.any (·.isAllowed) = true :=
        List.any_eq_true.mpr ⟨_, listed, rfl⟩
      have allowed : allowedAt (grantedItem request grantee).accesses asked.accessType = true := by
        have some : ((grantedItem request grantee).accesses.find? fun access =>
            equalsIgnoreCase asked.accessType access.type).isSome :=
          List.find?_isSome.mpr ⟨_, listed, equalsIgnoreCase_refl asked.accessType⟩
        obtain ⟨access, found⟩ := Option.isSome_iff_exists.mp some
        have member := List.mem_of_find?_eq_some found
        rw [accesses] at member
        obtain ⟨_, _, rfl⟩ := List.mem_map.mp member
        unfold allowedAt
        rw [found]
        rfl
      have passed : matchCustomConditions (grantedItem request grantee) asked
          evaluator.getConditionEvaluators = true := by
        unfold matchCustomConditions
        rw [conditions]
        rfl
      rw [preprocessPolicyItem_eq]
      simp only [Bool.false_eq_true, ↓reduceIte, any_foldl_impliedAccesses, any, passed,
        Bool.and_true, false_implies, iff_true]
      split
      · rfl
      · exact (allowedAt_foldl_impliedAccesses_iff ..).mpr (Raised.of_allowed allowed)

/-- A policy with the resources of a request. -/
def onResources (request : GrantRevokeRequest) : RangerPolicy where
  resources := grantedResources request
  policyItems := []

/-- **The created policy.** It allows the access if the resource matches itself. -/
theorem allows_created_iff (requested : asked.accessType ∈ request.accessTypes)
    (resources : other.resources = grantedResources request)
    (items : other.policyItems = request.grantees.map (grantedItem request))
    (covered : ∃ grantee ∈ request.grantees, grantee.Covers asked) :
    (RangerPolicyRepository.buildPolicyEvaluator configuration other serviceDef options).allows
        asked = true ↔
      Reaches serviceDef options asked (onResources request) ∧
        (asked.isAccessTypeDelegatedAdmin = true → request.delegateAdmin = true) := by
  obtain ⟨grantee, member, covers⟩ := covered
  have listed : grantedItem request grantee ∈ other.policyItems := by
    rw [items]
    exact List.mem_map_of_mem member
  have granted : ⟨asked.accessType, true⟩ ∈ (grantedItem request grantee).accesses := by
    cases grantee <;> exact List.mem_map_of_mem requested
  have same : other.resources = (onResources request).resources := resources
  rw [allows_iff_of_admitted (admitsAccess_of_mem listed granted), reaches_of_resources same]
  refine and_congr_right fun _ => ?_
  rw [grants_iff, items]
  simp only [List.mem_map, exists_exists_and_eq_and, grants_grantedItem_iff requested]
  constructor
  · rintro ⟨_, _, _, admin⟩
    exact admin
  · exact fun admin => ⟨grantee, member, covers, admin⟩

end Policies

section Stores

open RangerPolicyEngineImpl

variable [Platform] [ClassLoader] {σ : Type} [ServiceStore σ]

/-- The store returns the policies it was given: `served` reads those of a service. -/
structure ReturnsGiven (served : σ → ServicePolicies) (serviceName : String) (store : σ) :
    Prop where
  read : ∀ id policy, ServiceStore.getPolicy store id = .ok (some policy) →
    policy.id = some id ∧ ∀ row ∈ (served store).policies, row.id = some id → row = policy
  updated : ∀ policy ret after, ServiceStore.updatePolicy store policy = .ok (ret, after) →
    (served after).serviceDef = (served store).serviceDef ∧ ∃ version,
      (served after).policies = (served store).policies.map fun row =>
        if row.id = policy.id then { policy with version := version } else row
  created : ∀ policy ret after, ServiceStore.createPolicy store policy = .ok (ret, after) →
    policy.service = serviceName →
    (served after).serviceDef = (served store).serviceDef ∧ ∃ id version,
      (served after).policies =
        (served store).policies ++ [{ policy with id := id, version := version }]

/-- The policy a grant edits: what the engine of the service finds, as it is stored. -/
def policyOfGrant (rest : ServiceREST σ) (serviceName : String) (request : GrantRevokeRequest) :
    Throws (Option RangerPolicy) :=
  match (rest.getPolicyEngine serviceName).1 with
  | none => .ok none
  | some policyEngine =>
      rest.getExactMatchPolicyForResource policyEngine { elements := some request.resource }

/-- What becomes of the policies of a service by a grant that succeeds. -/
def GrantedFrom (serviceName time : String) (request : GrantRevokeRequest)
    (before after : ServicePolicies) : Option RangerPolicy → Prop
  | some policy =>
      (∀ row ∈ before.policies, row.id = policy.id → row = policy) ∧ ∃ version,
        after.policies = before.policies.map fun row =>
          if row.id = policy.id then
            { policy with
              policyItems := (grantToPolicyItems request policy.policyItems).1
              version := version }
          else row
  | none => ∃ id version, after.policies = before.policies ++
      [{ grantedPolicy serviceName time request with id := id, version := version }]

variable {rest after : ServiceREST σ} {served : σ → ServicePolicies} {serviceName time : String}
  {userGroups : List String} {request : GrantRevokeRequest}

omit [Platform] [ClassLoader] in
/-- An edited policy is stored, or is as it was. -/
theorem served_storeEdited (returns : ReturnsGiven served serviceName rest.svcStore)
    {policy : RangerPolicy}
    (rows : ∀ row ∈ (served rest.svcStore).policies, row.id = policy.id → row = policy)
    {edit : List RangerPolicyItem → List RangerPolicyItem × Bool} (reports : Update.Reports edit)
    (stored : rest.storeEdited policy edit = (.ok (), after)) :
    (served after.svcStore).serviceDef = (served rest.svcStore).serviceDef ∧ ∃ version,
      (served after.svcStore).policies = (served rest.svcStore).policies.map fun row =>
        if row.id = policy.id then
          { policy with policyItems := (edit policy.policyItems).1, version := version }
        else row := by
  unfold storeEdited at stored
  have silent := reports policy.policyItems
  generalize edit policy.policyItems = edited at stored silent ⊢
  obtain ⟨policyItems, policyUpdated⟩ := edited
  cases policyUpdated with
  | false =>
      cases stored
      refine ⟨rfl, policy.version, (List.map_id _).symm.trans (List.map_congr_left ?_)⟩
      intro row listed
      split
      · next same => rw [silent rfl, rows row listed same, id]
      · rfl
  | true =>
      simp only [↓reduceIte] at stored
      split at stored
      · nomatch stored
      · next ret svcStore performed =>
        cases stored
        exact returns.updated _ ret svcStore performed

/-- **Grants.** A grant that succeeds leaves the policy it found edited, or a new one. -/
theorem grantedFrom_of_grantAccess (returns : ReturnsGiven served serviceName rest.svcStore)
    (granted : rest.grantAccess serviceName userGroups time request = (.ok (), after)) :
    (served after.svcStore).serviceDef = (served rest.svcStore).serviceDef ∧
      ∃ found, rest.policyOfGrant serviceName request = .ok found ∧
        GrantedFrom serviceName time request (served rest.svcStore) (served after.svcStore)
          found := by
  unfold grantAccess at granted
  dsimp only at granted
  split at granted
  · nomatch granted
  · next policyEngine admitted given =>
    obtain ⟨store, asked, known, used⟩ := rest.adminEngine_eq_some given
    have sought : admitted.getExactMatchPolicyForResource policyEngine
        { elements := some request.resource } = rest.policyOfGrant serviceName request := by
      have exact : policyEngine.getExactMatchPolicy { elements := some request.resource } =
          asked.getExactMatchPolicy { elements := some request.resource } := by
        have left := asked.isAccessAllowed_bases { elements := some request.resource }
          (some request.grantor) userGroups ADMIN_ACCESS
        rw [used] at left
        rw [getExactMatchPolicy_eq, left, ← getExactMatchPolicy_eq]
      unfold policyOfGrant getExactMatchPolicyForResource
      rw [known, exact, store]
    rw [sought] at granted
    rw [← store] at returns ⊢
    split at granted
    · nomatch granted
    · next policy found =>
      obtain ⟨id, read⟩ := admitted.getPolicy_of_getExactMatchPolicyForResource
        (sought.trans found)
      obtain ⟨known, rows⟩ := returns.read id policy read
      obtain ⟨serviceDef, version, policies⟩ := served_storeEdited returns
        (known ▸ rows) (reports_grantToPolicyItems request) granted
      exact ⟨serviceDef, some policy, found, known ▸ rows, version, policies⟩
    · next found =>
      split at granted
      · nomatch granted
      · next ret svcStore performed =>
        cases granted
        obtain ⟨serviceDef, created⟩ := returns.created _ ret svcStore performed rfl
        exact ⟨serviceDef, none, found, created⟩

/-- A new engine allows every access the request asks for. -/
def TakesEffect (configuration : RangerConfiguration) (options : RangerPolicyEngineOptions)
    (servicePolicies : ServicePolicies) (request : GrantRevokeRequest) : Prop :=
  ∀ asked, request.Promises asked →
    ((create configuration servicePolicies options).isAccessAllowedNoAudit
      asked).1.isAllowed = true

/-- What a grant needs of the policies it meets for an access to be allowed: another
policy allows it, or the one it edits or makes reaches the resource and gives it. -/
def Effective (configuration : RangerConfiguration) (options : RangerPolicyEngineOptions)
    (servicePolicies : ServicePolicies) (request : GrantRevokeRequest)
    (asked : RangerAccessRequest) : Option RangerPolicy → Prop
  | some policy =>
      (∃ row ∈ servicePolicies.policies, row.id ≠ policy.id ∧ row.isEnabled = true ∧
        (RangerPolicyRepository.buildPolicyEvaluator configuration row servicePolicies.serviceDef
          options).allows asked = true) ∨
      (policy ∈ servicePolicies.policies ∧ policy.isEnabled = true ∧
        Reaches servicePolicies.serviceDef options asked policy ∧
          ServedIn servicePolicies.serviceDef options request policy asked)
  | none =>
      (∃ row ∈ servicePolicies.policies, row.isEnabled = true ∧
        (RangerPolicyRepository.buildPolicyEvaluator configuration row servicePolicies.serviceDef
          options).allows asked = true) ∨
      (Reaches servicePolicies.serviceDef options asked (onResources request) ∧
        (asked.isAccessTypeDelegatedAdmin = true → request.delegateAdmin = true))

variable {configuration : RangerConfiguration} {options : RangerPolicyEngineOptions}
  {before policies : ServicePolicies}

omit [ServiceStore σ] in
theorem exists_allows_iff_effective {found : Option RangerPolicy}
    (granted : GrantedFrom serviceName time request before policies found)
    {asked : RangerAccessRequest} (promised : request.Promises asked) :
    (∃ policy ∈ policies.policies, policy.isEnabled = true ∧
      (RangerPolicyRepository.buildPolicyEvaluator configuration policy before.serviceDef
        options).allows asked = true) ↔
      Effective configuration options before request asked found := by
  obtain ⟨grantee, member, covers⟩ := promised.covered
  have grantees : request.grantees ≠ [] := List.ne_nil_of_mem member
  cases found with
  | none =>
      obtain ⟨id, version, stored⟩ := granted
      have made := @allows_created_iff _ _
        { grantedPolicy serviceName time request with id := id, version := version }
        before.serviceDef options asked request configuration promised.accessType rfl rfl
        ⟨grantee, member, covers⟩
      simp only [Effective]
      rw [stored, ← made]
      simp only [List.mem_append, List.mem_singleton, or_and_right, exists_or, exists_eq_left]
      exact or_congr_right (and_iff_right rfl)
  | some policy =>
      obtain ⟨rows, version, stored⟩ := granted
      have edited := @allows_granted_iff _ _ policy
        { policy with
          policyItems := (grantToPolicyItems request policy.policyItems).1
          version := version } before.serviceDef options asked request configuration
        promised.accessType grantees rfl rfl
      simp only [Effective]
      rw [stored, ← edited]
      constructor
      · rintro ⟨_, listed, enabled, allowed⟩
        obtain ⟨row, old, rfl⟩ := List.mem_map.mp listed
        by_cases same : row.id = policy.id
        · rw [if_pos same] at enabled allowed
          exact .inr ⟨rows row old same ▸ old, enabled, allowed⟩
        · rw [if_neg same] at enabled allowed
          exact .inl ⟨row, old, same, enabled, allowed⟩
      · rintro (⟨row, old, other, enabled, allowed⟩ | ⟨old, enabled, allowed⟩)
        · exact ⟨row, List.mem_map.mpr ⟨row, old, if_neg other⟩, enabled, allowed⟩
        · exact ⟨_, List.mem_map.mpr ⟨policy, old, if_pos rfl⟩, enabled, allowed⟩

/-- **Grant takes effect.** With a store that returns the policies it was given, a grant
that succeeds makes a new engine allow what was asked for exactly if what it meets lets
it: no other conditions, denials or exclusions stand in the way of an access. -/
theorem grantAccess_takesEffect_iff (returns : ReturnsGiven served serviceName rest.svcStore)
    (granted : rest.grantAccess serviceName userGroups time request = (.ok (), after))
    (configuration : RangerConfiguration) (options : RangerPolicyEngineOptions) :
    TakesEffect configuration options (served after.svcStore) request ↔
      ∃ found, rest.policyOfGrant serviceName request = .ok found ∧
        ∀ asked, request.Promises asked →
          Effective configuration options (served rest.svcStore) request asked found := by
  obtain ⟨serviceDef, found, sought, stored⟩ := grantedFrom_of_grantAccess returns granted
  have verdicts : ∀ asked, request.Promises asked →
      (((create configuration (served after.svcStore) options).isAccessAllowedNoAudit
        asked).1.isAllowed = true ↔
          Effective configuration options (served rest.svcStore) request asked found) := by
    intro asked promised
    rw [isAllowed_create_iff, serviceDef]
    exact exists_allows_iff_effective stored promised
  constructor
  · intro effect
    exact ⟨found, sought, fun asked promised =>
      (verdicts asked promised).mp (effect asked promised)⟩
  · rintro ⟨other, same, effective⟩ asked promised
    cases sought.symm.trans same
    exact (verdicts asked promised).mpr (effective asked promised)

end Stores

end ServiceREST

/-- A store that keeps the policies of one service as they are given. -/
structure PolicyShelf where
  servicePolicies : ServicePolicies
  nextPolicyId : Int

namespace PolicyShelf

instance : ServiceStore PolicyShelf where
  getServiceDefByName shelf _ := .ok (some shelf.servicePolicies.serviceDef)
  getServiceByName shelf name :=
    .ok (some { id := 1, name := name, type := shelf.servicePolicies.serviceDef.name })
  getPolicy shelf id :=
    match shelf.servicePolicies.policies.find? (·.id == some id) with
    | none => .error none
    | some policy => .ok (some policy)
  getPolicies shelf _ := .ok shelf.servicePolicies.policies
  getServicePoliciesIfUpdated shelf _ _ := .ok (some shelf.servicePolicies)
  createPolicy shelf policy :=
    let created := { policy with id := some shelf.nextPolicyId, version := some 1 }
    .ok (created,
      { servicePolicies :=
          { shelf.servicePolicies with policies := shelf.servicePolicies.policies ++ [created] }
        nextPolicyId := shelf.nextPolicyId + 1 })
  updatePolicy shelf policy :=
    .ok (policy,
      { shelf with
        servicePolicies :=
          { shelf.servicePolicies with
            policies := shelf.servicePolicies.policies.map fun row =>
              if row.id = policy.id then policy else row } })
  deletePolicy shelf id :=
    .ok
      { shelf with
        servicePolicies :=
          { shelf.servicePolicies with
            policies := shelf.servicePolicies.policies.filter (·.id != some id) } }

theorem returnsGiven {shelf : PolicyShelf}
    (keyed : (shelf.servicePolicies.policies.map (·.id)).Nodup) (serviceName : String) :
    ServiceREST.ReturnsGiven servicePolicies serviceName shelf where
  read id policy read := by
    change (match shelf.servicePolicies.policies.find? (·.id == some id) with
      | none => .error none
      | some policy => .ok (some policy)) = Except.ok (some policy) at read
    split at read
    · nomatch read
    · next found =>
      cases read
      have known : policy.id = some id := by simpa using List.find?_some found
      refine ⟨known, fun row listed same => ?_⟩
      exact List.inj_on_of_nodup_map keyed listed (List.mem_of_find?_eq_some found)
        (same.trans known.symm)
  updated policy ret after performed := by
    cases performed
    exact ⟨rfl, policy.version, rfl⟩
  created policy ret after performed _ := by
    cases performed
    exact ⟨rfl, some shelf.nextPolicyId, some 1, rfl⟩

end PolicyShelf

namespace ServiceREST

section Excluded

attribute [local instance] Platform.ascii ClassLoader.addresses

/-- The analysts may read the tables that are not temporary. -/
def analystsPolicy : RangerPolicy where
  id := some 2
  resources := ⟨[("table", { values := ["tmp*"], isExcludes := true })], List.nodup_singleton _⟩
  policyItems := [{ groups := ["analysts"], accesses := [⟨"select", true⟩] }]

/-- Bob administers all tables. -/
def tableShelf : PolicyShelf where
  servicePolicies :=
    { serviceName := "warehouse"
      serviceDef :=
        { name := "hive"
          resources := [{ name := "table", excludesSupported := true }]
          accessTypes := [{ name := "select" }, { name := "update" }] }
      policies :=
        [{ id := some 1
           resources := ⟨[("table", { values := ["*"] })], List.nodup_singleton _⟩
           policyItems := [{ users := ["bob"], delegateAdmin := true }] },
         analystsPolicy] }
  nextPolicyId := 3

def tableREST : ServiceREST PolicyShelf where
  svcStore := tableShelf
  configuration := ∅
  engineCache := ⟨adminPolicyEngineOptions, ∅⟩

/-- Alice is to read a table. -/
def readTable (table : String) : GrantRevokeRequest where
  grantor := "bob"
  resource := ⟨[("table", some table)], List.nodup_singleton _⟩
  users := ["alice"]
  accessTypes := ["select"]

/-- The grant for a table that is not temporary edits the policy of the analysts. -/
theorem orders_granted :
    TakesEffect ∅ {} (tableREST.grantAccess "warehouse" [] "noon"
      (readTable "orders")).2.svcStore.servicePolicies (readTable "orders") := by
  have ok : (tableREST.grantAccess "warehouse" [] "noon" (readTable "orders")).1.isOk = true := by
    decide +kernel
  cases performed : tableREST.grantAccess "warehouse" [] "noon" (readTable "orders") with
  | mk outcome after =>
      rw [performed] at ok
      cases outcome with
      | error failure => exact absurd ok Bool.false_ne_true
      | ok granted =>
          refine (grantAccess_takesEffect_iff (PolicyShelf.returnsGiven (by decide) "warehouse")
            performed ∅ {}).mpr ⟨some analystsPolicy, rfl, fun asked promised => .inr ?_⟩
          obtain ⟨grantee, member, covers⟩ := promised.covered
          have typed : asked.accessType = "select" := List.mem_singleton.mp promised.accessType
          refine ⟨List.mem_cons_of_mem _ (List.mem_singleton.mpr rfl), rfl, .inl ?_,
            .inr (.inr ⟨grantee, member, ?_, covers, fun admin => ?_⟩)⟩
          · rw [promised.resource]
            decide +kernel
          · rw [List.mem_singleton.mp member]
            decide +kernel
          · rw [RangerAccessRequest.isAccessTypeDelegatedAdmin, typed] at admin
            cases admin

/-- **An excluded table.** The policy of the analysts passes for an exact match of any
table but one of its pattern's name, so that the grant for a temporary table edits a
policy that does not reach it. -/
theorem excluded_table_not_granted :
    (tableREST.grantAccess "warehouse" [] "noon" (readTable "tmp1")).1.isOk = true ∧
      ¬TakesEffect ∅ {} (tableREST.grantAccess "warehouse" [] "noon"
        (readTable "tmp1")).2.svcStore.servicePolicies (readTable "tmp1") := by
  refine ⟨by decide +kernel, fun effect => ?_⟩
  have allowed := effect
    { resource := { elements := some (readTable "tmp1").resource }
      accessType := "select"
      user := some "alice" } ⟨rfl, by decide, .inl ⟨"alice", by decide, rfl, rfl⟩⟩
  have denied : ((RangerPolicyEngineImpl.create ∅ (tableREST.grantAccess "warehouse" [] "noon"
        (readTable "tmp1")).2.svcStore.servicePolicies {}).isAccessAllowedNoAudit
    { resource := { elements := some (readTable "tmp1").resource }
      accessType := "select"
      user := some "alice" }).1.isAllowed = false := by decide +kernel
  rw [denied] at allowed
  nomatch allowed

end Excluded

end ServiceREST

end Ranger

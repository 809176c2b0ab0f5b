import Ranger.Admin.GrantRevoke
import Ranger.PolicyEvaluator.Default

/-! # Whom a grant on an existing policy reaches

A grant extends the first item with a single user (or a single group) that is
the grantee. Such an item may name groups (or users) besides, and these share
what it is given.
-/

namespace Ranger

open Foundation RangerDefaultPolicyEvaluator

namespace ServiceREST

/-- Accesses with the given types allowed, in place or appended. -/
def allowedAccesses (accessTypes : List String) (accesses : List RangerPolicyItemAccess) :
    List RangerPolicyItemAccess :=
  FirstMatch.upsertAll (fun accessType access => access.type == accessType)
    (fun access => { access with isAllowed := true }) (fun accessType => [⟨accessType, true⟩])
    accesses accessTypes

section Accesses

theorem addAccesses_fst (accessTypes : List String) (policyItem : RangerPolicyItem) :
    (addAccesses accessTypes policyItem).1 =
      { policyItem with accesses := allowedAccesses accessTypes policyItem.accesses } := by
  have allow : (fun access => (allowAccess access).1) =
      fun access => { access with isAllowed := true } := by
    funext access
    obtain ⟨type, isAllowed⟩ := access
    cases isAllowed <;> rfl
  unfold addAccesses
  rw [Update.each_fst]
  induction accessTypes generalizing policyItem with
  | nil => rfl
  | cons accessType rest ih =>
      rw [List.foldl_cons, ih]
      simp only [addAccess, Update.upsert_fst, allow]
      rfl

theorem grantToItem_fst (request : GrantRevokeRequest) (policyItem : RangerPolicyItem) :
    (grantToItem request policyItem).1 =
      { policyItem with
        accesses := allowedAccesses request.accessTypes policyItem.accesses
        delegateAdmin := policyItem.delegateAdmin || request.delegateAdmin } := by
  simp only [grantToItem, Update.both, addAccesses_fst, Update.onlyIf]
  cases request.delegateAdmin <;> simp [setDelegateAdmin]

theorem allowedAccesses_idempotent (accessTypes : List String)
    (accesses : List RangerPolicyItemAccess) :
    allowedAccesses accessTypes (allowedAccesses accessTypes accesses) =
      allowedAccesses accessTypes accesses := by
  apply FirstMatch.upsertAll_idempotent
  · exact fun _ _ => rfl
  · intro accessType other first second isFirst isSecond
    rw [beq_iff_eq.mp isFirst, beq_iff_eq.mp isSecond]
  · intro accessType access member
    rw [List.mem_singleton.mp member]
    exact beq_self_eq_true accessType
  · exact fun _ => rfl
  · intro accessType
    exact ⟨⟨accessType, true⟩, List.find?_cons_of_pos (beq_self_eq_true accessType), rfl⟩

theorem grantToItem_idempotent (request : GrantRevokeRequest) (policyItem : RangerPolicyItem) :
    (grantToItem request (grantToItem request policyItem).1).1 =
      (grantToItem request policyItem).1 := by
  simp only [grantToItem_fst, allowedAccesses_idempotent, Bool.or_assoc, Bool.or_self]

/-- What an allowed access list answers for a type, however types are compared. -/
theorem find?_allowedAccesses (same : String → Bool) (accessTypes : List String)
    (accesses : List RangerPolicyItemAccess) :
    (allowedAccesses accessTypes accesses).find? (fun access => same access.type) =
      match accesses.find? (fun access => same access.type) with
      | some access =>
          some (if access.type ∈ accessTypes then { access with isAllowed := true } else access)
      | none => (accessTypes.find? same).map fun accessType => ⟨accessType, true⟩ := by
  induction accessTypes generalizing accesses with
  | nil =>
      have unfolded : allowedAccesses [] accesses = accesses := rfl
      rw [unfolded]
      cases accesses.find? (fun access => same access.type) with
      | none => rfl
      | some access => simp
  | cons accessType rest ih =>
      have unfolded : allowedAccesses (accessType :: rest) accesses =
          allowedAccesses rest (FirstMatch.upsert
            (fun accessType access => access.type == accessType)
            (fun access => { access with isAllowed := true })
            (fun accessType => [⟨accessType, true⟩]) accesses accessType) := rfl
      rw [unfolded, ih, FirstMatch.find?_upsert]
      · cases found : accesses.find? fun access => same access.type with
        | some access =>
            by_cases now : access.type = accessType
            · simp [now]
            · simp [now]
        | none =>
            by_cases now : same accessType = true
            · simp [now]
            · simp [now]
      · exact fun _ => rfl
      · intro first second isFirst isSecond
        rw [beq_iff_eq.mp isFirst, beq_iff_eq.mp isSecond]
      · intro access member
        rw [List.mem_singleton.mp member]
        exact beq_self_eq_true accessType

end Accesses

section Rights

/-- The item allows an access type, types being compared by `same`. -/
def Carries (same : String → String → Bool) (policyItem : RangerPolicyItem) (accessType : String) :
    Prop :=
  ∃ access, policyItem.accesses.find? (fun access => same accessType access.type) = some access ∧
    access.isAllowed = true

/-- The item allows an access type once the types of a request are added to it:
the access it has for the type is of a requested type, or it has none and a
requested type is the same. -/
def Adds (same : String → String → Bool) (request : GrantRevokeRequest)
    (policyItem : RangerPolicyItem) (accessType : String) : Prop :=
  match policyItem.accesses.find? (fun access => same accessType access.type) with
  | some access => access.type ∈ request.accessTypes
  | none => ∃ requested ∈ request.accessTypes, same accessType requested = true

/-- The access types a policy gives to a user with groups. -/
def Gives (same : String → String → Bool) (policy : RangerPolicy) (user : Option String)
    (groups : List String) (accessType : String) : Prop :=
  ∃ policyItem ∈ policy.policyItems, matchUserGroup policyItem user groups = true ∧
    Carries same policyItem accessType

/-- A user with groups whom a request does not name. Everyone is in the public group. -/
structure Outsider (request : GrantRevokeRequest) (user : Option String) (groups : List String) :
    Prop where
  user : ∀ name, user = some name → name ∉ request.users
  everyone : GROUP_PUBLIC ∉ request.groups
  groups : ∀ group ∈ groups, group ∉ request.groups

theorem carries_grantToItem (same : String → String → Bool) (request : GrantRevokeRequest)
    (policyItem : RangerPolicyItem) (accessType : String) :
    Carries same (grantToItem request policyItem).1 accessType ↔
      Carries same policyItem accessType ∨ Adds same request policyItem accessType := by
  unfold Carries Adds
  rw [grantToItem_fst, find?_allowedAccesses]
  cases found : policyItem.accesses.find? fun access => same accessType access.type with
  | some access =>
      by_cases requested : access.type ∈ request.accessTypes
      · simp [requested]
      · simp [requested]
  | none =>
      simp only [Option.map_eq_some_iff, reduceCtorEq, false_and, exists_false, false_or]
      constructor
      · rintro ⟨access, ⟨requested, first, rfl⟩, _⟩
        exact ⟨requested, List.mem_of_find?_eq_some first, List.find?_some first⟩
      · rintro ⟨requested, listed, equal⟩
        obtain ⟨first, located⟩ := Option.isSome_iff_exists.mp
          (List.find?_isSome.mpr ⟨requested, listed, equal⟩)
        exact ⟨⟨first, true⟩, ⟨first, located, rfl⟩, rfl⟩

theorem delegateAdmin_grantToItem (request : GrantRevokeRequest) (policyItem : RangerPolicyItem) :
    (grantToItem request policyItem).1.delegateAdmin = true ↔
      policyItem.delegateAdmin = true ∨ request.delegateAdmin = true := by
  rw [grantToItem_fst, Bool.or_eq_true]

theorem matchUserGroup_grantToItem (request : GrantRevokeRequest) (policyItem : RangerPolicyItem)
    (user : Option String) (groups : List String) :
    matchUserGroup (grantToItem request policyItem).1 user groups =
      matchUserGroup policyItem user groups := by
  rw [grantToItem_fst]
  rfl

/-- An item for grantees only does not match an outsider. -/
theorem Outsider.not_matchUserGroup {request : GrantRevokeRequest} {user : Option String}
    {groups : List String} (outsider : Outsider request user groups)
    {policyItem : RangerPolicyItem} (users : policyItem.users ⊆ request.users)
    (itemGroups : policyItem.groups ⊆ request.groups) :
    matchUserGroup policyItem user groups = false := by
  apply Bool.eq_false_iff.mpr
  intro named
  simp only [matchUserGroup, Bool.or_eq_true, List.contains_iff_mem, List.any_eq_true] at named
  rcases named with userNamed | everyone | ⟨group, listed, shared⟩
  · cases user with
    | none => cases userNamed
    | some name => exact outsider.user name rfl (users (List.contains_iff_mem.mp userNamed))
  · exact outsider.everyone (itemGroups everyone)
  · exact outsider.groups group shared (itemGroups listed)

/-- The items a grant loop starts from. -/
def grantBase (request : GrantRevokeRequest) (policyItems : List RangerPolicyItem) :
    List RangerPolicyItem :=
  if request.replaceExistingPermissions then
    (removeUsersAndGroupsFromPolicy request policyItems).1
  else policyItems

/-- The items a grant extends: for some grantee, the first item that has a single
user (or a single group) and that is the grantee. -/
def Extended (request : GrantRevokeRequest) (policyItems : List RangerPolicyItem) (index : Nat) :
    Prop :=
  FirstMatch.Selected isPolicyItemFor policyItems request.grantees index

/-- An item a grant adds: that of a grantee for whom there was none to extend. -/
def Added (request : GrantRevokeRequest) (policyItems : List RangerPolicyItem)
    (policyItem : RangerPolicyItem) : Prop :=
  ∃ grantee ∈ request.grantees, policyItems.findIdx? (isPolicyItemFor grantee) = none ∧
    policyItem = newItem request grantee

theorem Added.onlyFor {request : GrantRevokeRequest} {policyItems : List RangerPolicyItem}
    {policyItem : RangerPolicyItem} (added : Added request policyItems policyItem) :
    policyItem.users ⊆ request.users ∧ policyItem.groups ⊆ request.groups := by
  obtain ⟨grantee, member, _, rfl⟩ := added
  simp only [GrantRevokeRequest.grantees, List.mem_append, List.mem_map] at member
  cases grantee with
  | user name =>
      have requested : name ∈ request.users := by simpa using member
      simpa [newItem, grantToItem_fst] using requested
  | group name =>
      have requested : name ∈ request.groups := by simpa using member
      simpa [newItem, grantToItem_fst] using requested

theorem grantToPolicyItems_fst (request : GrantRevokeRequest)
    (policyItems : List RangerPolicyItem) :
    (grantToPolicyItems request policyItems).1 =
      FirstMatch.upsertAll isPolicyItemFor (fun policyItem => (grantToItem request policyItem).1)
        (fun grantee => [newItem request grantee]) (grantBase request policyItems)
        request.grantees := by
  have start : (Update.onlyIf request.replaceExistingPermissions
      (removeUsersAndGroupsFromPolicy request) policyItems).1 = grantBase request policyItems := by
    unfold Update.onlyIf grantBase
    split <;> rfl
  simp only [grantToPolicyItems, Update.both, Update.each_fst, Update.upsert_fst, start,
    FirstMatch.upsertAll]

theorem isPolicyItemFor_grantToItem (request : GrantRevokeRequest) (grantee : Grantee)
    (policyItem : RangerPolicyItem) :
    isPolicyItemFor grantee (grantToItem request policyItem).1 =
      isPolicyItemFor grantee policyItem := by
  rw [grantToItem_fst]
  cases grantee <;> rfl

/-- A grant extends the selected items, keeps the others, and adds items for
grantees only. -/
theorem progress_grant (request : GrantRevokeRequest) (policyItems : List RangerPolicyItem) :
    FirstMatch.Progress isPolicyItemFor (fun policyItem => (grantToItem request policyItem).1)
      (Added request (grantBase request policyItems)) (grantBase request policyItems)
      request.grantees (grantToPolicyItems request policyItems).1 := by
  rw [grantToPolicyItems_fst]
  apply FirstMatch.progress_upsertAll
  · exact isPolicyItemFor_grantToItem request
  · exact grantToItem_idempotent request
  · rintro policyItem ⟨grantee, member, absent, rfl⟩
    -- a second grantee of the kind leaves a new item as it is
    refine ⟨grantee, member, absent, ?_⟩
    cases grantee <;> exact grantToItem_idempotent request _
  · intro grantee member absent policyItem added
    exact ⟨grantee, member, absent, List.mem_singleton.mp added⟩

/-- A right an outsider has after a grant is one of an item that was there, which
had it or was extended by it. -/
theorem outsider_after_grant_iff {request : GrantRevokeRequest}
    {policyItems : List RangerPolicyItem}
    {user : Option String} {groups : List String} (outsider : Outsider request user groups)
    {right added : RangerPolicyItem → Prop}
    (extends_right : ∀ policyItem, right (grantToItem request policyItem).1 ↔
      right policyItem ∨ added policyItem) :
    (∃ policyItem ∈ (grantToPolicyItems request policyItems).1,
        matchUserGroup policyItem user groups = true ∧ right policyItem) ↔
      ∃ index policyItem, (grantBase request policyItems)[index]? = some policyItem ∧
        matchUserGroup policyItem user groups = true ∧
        (right policyItem ∨
          (Extended request (grantBase request policyItems) index ∧ added policyItem)) := by
  have progress := progress_grant request policyItems
  constructor
  · rintro ⟨policyItem, member, named, rightful⟩
    obtain ⟨index, read⟩ := List.mem_iff_getElem?.mp member
    by_cases inside : index < (grantBase request policyItems).length
    · obtain ⟨original, origin⟩ : ∃ original,
          (grantBase request policyItems)[index]? = some original :=
        ⟨_, List.getElem?_eq_getElem inside⟩
      by_cases selected : Extended request (grantBase request policyItems) index
      · rw [progress.edited index original origin selected, Option.some.injEq] at read
        subst read
        rw [matchUserGroup_grantToItem] at named
        rcases (extends_right original).mp rightful with before | extended
        · exact ⟨index, original, origin, named, Or.inl before⟩
        · exact ⟨index, original, origin, named, Or.inr ⟨selected, extended⟩⟩
      · rw [progress.kept index original origin selected, Option.some.injEq] at read
        subst read
        exact ⟨index, original, origin, named, Or.inl rightful⟩
    · obtain ⟨users, itemGroups⟩ :=
        (progress.added index policyItem (Nat.le_of_not_lt inside) read).onlyFor
      rw [outsider.not_matchUserGroup users itemGroups] at named
      cases named
  · rintro ⟨index, original, origin, named, rightful⟩
    by_cases selected : Extended request (grantBase request policyItems) index
    · refine ⟨_, List.mem_of_getElem? (progress.edited index original origin selected), ?_, ?_⟩
      · rwa [matchUserGroup_grantToItem]
      · exact (extends_right original).mpr (rightful.imp_right And.right)
    · refine ⟨original, List.mem_of_getElem? (progress.kept index original origin selected),
        named, ?_⟩
      rcases rightful with before | ⟨extended, _⟩
      · exact before
      · exact absurd extended selected

theorem gives_afterGrant_iff {same : String → String → Bool} {request : GrantRevokeRequest}
    {policy : RangerPolicy} {user : Option String} {groups : List String}
    (outsider : Outsider request user groups) (accessType : String) :
    Gives same (afterGrant request policy) user groups accessType ↔
      ∃ index policyItem, (grantBase request policy.policyItems)[index]? = some policyItem ∧
        matchUserGroup policyItem user groups = true ∧
        (Carries same policyItem accessType ∨
          (Extended request (grantBase request policy.policyItems) index ∧
            Adds same request policyItem accessType)) := by
  unfold Gives afterGrant
  rw [storedAfter_policyItems (reports_grantToPolicyItems request)]
  exact outsider_after_grant_iff outsider fun policyItem =>
    carries_grantToItem same request policyItem accessType

theorem delegates_afterGrant_iff {request : GrantRevokeRequest} {policy : RangerPolicy}
    {user : Option String} {groups : List String} (outsider : Outsider request user groups) :
    Delegates (afterGrant request policy) user groups ↔
      ∃ index policyItem, (grantBase request policy.policyItems)[index]? = some policyItem ∧
        matchUserGroup policyItem user groups = true ∧
        (policyItem.delegateAdmin = true ∨
          (Extended request (grantBase request policy.policyItems) index ∧
            request.delegateAdmin = true)) := by
  unfold Delegates afterGrant
  rw [storedAfter_policyItems (reports_grantToPolicyItems request)]
  exact outsider_after_grant_iff outsider fun policyItem =>
    delegateAdmin_grantToItem request policyItem

/-- With the grantees taken out first, no item is left to extend. -/
theorem not_extended_of_replace {request : GrantRevokeRequest}
    (replace : request.replaceExistingPermissions = true) (policyItems : List RangerPolicyItem)
    (index : Nat) : ¬ Extended request (grantBase request policyItems) index := by
  rintro ⟨grantee, requested, located⟩
  obtain ⟨inside, fitting, _⟩ := List.findIdx?_eq_some_iff_getElem.mp located
  have member : (grantBase request policyItems)[index] ∈ grantBase request policyItems :=
    List.getElem_mem inside
  generalize (grantBase request policyItems)[index] = policyItem at fitting member
  rw [grantBase, if_pos replace] at member
  simp only [removeUsersAndGroupsFromPolicy, List.mem_filter, List.mem_map] at member
  obtain ⟨⟨original, _, rfl⟩, _⟩ := member
  simp only [GrantRevokeRequest.grantees, List.mem_append, List.mem_map] at requested
  rcases requested with ⟨name, listed, rfl⟩ | ⟨name, listed, rfl⟩
  · simp [isPolicyItemFor, removeUsersAndGroupsFromItem, listed] at fitting
  · simp [isPolicyItemFor, removeUsersAndGroupsFromItem, listed] at fitting

/-- What the loop starts from names nobody that the policy did not name. -/
theorem exists_of_mem_grantBase {request : GrantRevokeRequest}
    {policyItems : List RangerPolicyItem} {policyItem : RangerPolicyItem}
    (member : policyItem ∈ grantBase request policyItems) :
    ∃ original ∈ policyItems, policyItem.accesses = original.accesses ∧
      policyItem.delegateAdmin = original.delegateAdmin ∧
      ∀ user groups, matchUserGroup policyItem user groups = true →
        matchUserGroup original user groups = true := by
  unfold grantBase at member
  split at member
  · simp only [removeUsersAndGroupsFromPolicy, List.mem_filter, List.mem_map] at member
    obtain ⟨⟨original, stored, rfl⟩, _⟩ := member
    refine ⟨original, stored, rfl, rfl, ?_⟩
    intro user groups named
    simp only [matchUserGroup, removeUsersAndGroupsFromItem, Bool.or_eq_true,
      List.contains_iff_mem, List.any_eq_true, List.mem_filter] at named ⊢
    rcases named with userNamed | everyone | ⟨group, listed, shared⟩
    · refine Or.inl ?_
      cases user with
      | none => cases userNamed
      | some name =>
          exact List.contains_iff_mem.mpr
            (List.mem_filter.mp (List.contains_iff_mem.mp userNamed)).1
    · exact Or.inr (Or.inl everyone.1)
    · exact Or.inr (Or.inr ⟨group, listed.1, shared⟩)
  · exact ⟨policyItem, member, rfl, rfl, fun _ _ named => named⟩

end Rights

section Confinement

/-- Nobody but the grantees has more rights by the policy after the grant. -/
def GrantConfined (same : String → String → Bool) (request : GrantRevokeRequest)
    (policy : RangerPolicy) : Prop :=
  ∀ user groups, Outsider request user groups →
    (∀ accessType, Gives same (afterGrant request policy) user groups accessType →
      Gives same policy user groups accessType) ∧
    (Delegates (afterGrant request policy) user groups → Delegates policy user groups)

/-- Whoever shares an item that the grant extends has what it adds already. -/
def SharersServed (same : String → String → Bool) (request : GrantRevokeRequest)
    (policy : RangerPolicy) : Prop :=
  ∀ index policyItem, policy.policyItems[index]? = some policyItem →
    Extended request policy.policyItems index →
    ∀ user groups, Outsider request user groups → matchUserGroup policyItem user groups = true →
      (∀ accessType, Adds same request policyItem accessType →
        Gives same policy user groups accessType) ∧
      (request.delegateAdmin = true → Delegates policy user groups)

/-- **When a grant is confined to its grantees.** It is if it replaces existing
permissions, and otherwise exactly if it adds nothing new to items that are shared
with others; for every way of comparing access types. -/
theorem grantConfined_iff (same : String → String → Bool) (request : GrantRevokeRequest)
    (policy : RangerPolicy) :
    GrantConfined same request policy ↔
      request.replaceExistingPermissions = true ∨ SharersServed same request policy := by
  by_cases replace : request.replaceExistingPermissions = true
  · refine ⟨fun _ => Or.inl replace, fun _ user groups outsider => ⟨?_, ?_⟩⟩
    · intro accessType given
      obtain ⟨index, policyItem, read, named, carried | ⟨extended, _⟩⟩ :=
        (gives_afterGrant_iff outsider accessType).mp given
      · obtain ⟨original, stored, accesses, _, fewer⟩ :=
          exists_of_mem_grantBase (List.mem_of_getElem? read)
        refine ⟨original, stored, fewer user groups named, ?_⟩
        rwa [Carries, ← accesses]
      · exact absurd extended (not_extended_of_replace replace _ index)
    · intro delegated
      obtain ⟨index, policyItem, read, named, carried | ⟨extended, _⟩⟩ :=
        (delegates_afterGrant_iff outsider).mp delegated
      · obtain ⟨original, stored, _, delegateAdmin, fewer⟩ :=
          exists_of_mem_grantBase (List.mem_of_getElem? read)
        exact ⟨original, stored, fewer user groups named, delegateAdmin ▸ carried⟩
      · exact absurd extended (not_extended_of_replace replace _ index)
  · have base : grantBase request policy.policyItems = policy.policyItems := if_neg replace
    rw [or_iff_right replace]
    constructor
    · intro confined index policyItem read extended user groups outsider named
      refine ⟨fun accessType added => ?_, fun requested => ?_⟩
      · apply (confined user groups outsider).1
        rw [gives_afterGrant_iff outsider, base]
        exact ⟨index, policyItem, read, named, Or.inr ⟨extended, added⟩⟩
      · apply (confined user groups outsider).2
        rw [delegates_afterGrant_iff outsider, base]
        exact ⟨index, policyItem, read, named, Or.inr ⟨extended, requested⟩⟩
    · intro served user groups outsider
      refine ⟨fun accessType given => ?_, fun delegated => ?_⟩
      · rw [gives_afterGrant_iff outsider, base] at given
        obtain ⟨index, policyItem, read, named, carried | ⟨extended, added⟩⟩ := given
        · exact ⟨policyItem, List.mem_of_getElem? read, named, carried⟩
        · exact (served index policyItem read extended user groups outsider named).1 accessType
            added
      · rw [delegates_afterGrant_iff outsider, base] at delegated
        obtain ⟨index, policyItem, read, named, held | ⟨extended, requested⟩⟩ := delegated
        · exact ⟨policyItem, List.mem_of_getElem? read, named, held⟩
        · exact (served index policyItem read extended user groups outsider named).2 requested

end Confinement

section SharedItem

/-- Alice and the analysts share the only item. -/
def sharedPolicy : RangerPolicy where
  resources := .single "path" { values := ["/data"] }
  policyItems := [{ users := ["alice"], groups := ["analysts"], accesses := [⟨"read", true⟩] }]

def writeForAlice : GrantRevokeRequest where
  users := ["alice"]
  accessTypes := ["write"]

/-- A grant to alice alone reaches the analysts. -/
theorem grant_reaches_analysts : ¬ GrantConfined (· == ·) writeForAlice sharedPolicy := by
  intro confined
  have outsider : Outsider writeForAlice (some "bob") ["analysts"] :=
    ⟨by rintro name ⟨⟩; decide, by decide, by decide⟩
  have edited : (afterGrant writeForAlice sharedPolicy).policyItems =
      [{ users := ["alice"], groups := ["analysts"],
         accesses := [⟨"read", true⟩, ⟨"write", true⟩] }] := by
    decide
  have given : Gives (· == ·) (afterGrant writeForAlice sharedPolicy) (some "bob") ["analysts"]
      "write" := by
    unfold Gives
    rw [edited]
    exact ⟨_, List.mem_singleton.mpr rfl, by decide, ⟨"write", true⟩, by decide, rfl⟩
  obtain ⟨policyItem, member, _, access, found, _⟩ := (confined _ _ outsider).1 "write" given
  rw [List.mem_singleton.mp member] at found
  simp at found

end SharedItem

end ServiceREST

end Ranger

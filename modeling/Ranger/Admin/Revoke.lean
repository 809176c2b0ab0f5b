import Ranger.Admin.GrantRevoke

/-! # What a revoke on an existing policy leaves

A revoke takes access types from the first item with a single user (or a single
group) that is a requested one. Other items that name a requested user or group
keep what they allow, and so does an access spelled in another letter case.
-/

namespace Ranger

open Foundation

namespace ServiceREST

theorem removeAccesses_fst (accessTypes : List String) (policyItem : RangerPolicyItem) :
    (removeAccesses accessTypes policyItem).1 =
      { policyItem with
        accesses := policyItem.accesses.filter (!accessTypes.contains ·.type) } := by
  unfold removeAccesses
  rw [Update.each_fst]
  induction accessTypes generalizing policyItem with
  | nil => simp
  | cons accessType rest ih =>
      rw [List.foldl_cons, ih]
      simp only [removeAccess, List.filter_filter]
      congr 2
      funext access
      rw [List.contains_cons, Bool.not_or, Bool.and_comm]
      rfl

theorem revokeFromItem_fst (request : GrantRevokeRequest) (policyItem : RangerPolicyItem) :
    (revokeFromItem request policyItem).1 =
      { policyItem with
        accesses := policyItem.accesses.filter (!request.accessTypes.contains ·.type)
        delegateAdmin := policyItem.delegateAdmin && !request.delegateAdmin } := by
  simp only [revokeFromItem, Update.both, removeAccesses_fst, Update.onlyIf]
  cases request.delegateAdmin <;> simp [setDelegateAdmin]

theorem revokeFromItem_idempotent (request : GrantRevokeRequest) (policyItem : RangerPolicyItem) :
    (revokeFromItem request (revokeFromItem request policyItem).1).1 =
      (revokeFromItem request policyItem).1 := by
  simp only [revokeFromItem_fst, List.filter_filter, Bool.and_self, Bool.and_assoc]

/-- The item names one of the request's users or groups. -/
def Names (request : GrantRevokeRequest) (policyItem : RangerPolicyItem) : Prop :=
  (∃ user ∈ request.users, user ∈ policyItem.users) ∨
    ∃ group ∈ request.groups, group ∈ policyItem.groups

/-- The access is allowed, for an access type of the request. -/
def AllowsRequested (same : String → String → Bool) (request : GrantRevokeRequest)
    (access : RangerPolicyItemAccess) : Prop :=
  access.isAllowed = true ∧ ∃ requested ∈ request.accessTypes, same requested access.type = true

/-- Nothing the request revokes is left in the item. -/
structure Revoked (same : String → String → Bool) (request : GrantRevokeRequest)
    (policyItem : RangerPolicyItem) : Prop where
  accesses : ∀ access ∈ policyItem.accesses, ¬ AllowsRequested same request access
  delegateAdmin : request.delegateAdmin = true → policyItem.delegateAdmin = false

/-- The items a revoke takes access types from: for some requested user or group,
the first item that has a single user (or a single group) and that is the one. -/
def Reduced (request : GrantRevokeRequest) (policyItems : List RangerPolicyItem) (index : Nat) :
    Prop :=
  FirstMatch.Selected isPolicyItemFor policyItems request.grantees index

/-- The items after the two loops of a revoke, before `compactPolicy`. -/
def reduceItems (request : GrantRevokeRequest) (policyItems : List RangerPolicyItem) :
    List RangerPolicyItem :=
  FirstMatch.upsertAll isPolicyItemFor (fun policyItem => (revokeFromItem request policyItem).1)
    (fun _ => []) policyItems request.grantees

theorem progress_reduceItems (request : GrantRevokeRequest) (policyItems : List RangerPolicyItem) :
    FirstMatch.Progress isPolicyItemFor (fun policyItem => (revokeFromItem request policyItem).1)
      (fun _ => False) policyItems request.grantees (reduceItems request policyItems) := by
  apply FirstMatch.progress_upsertAll
  · intro grantee policyItem
    rw [revokeFromItem_fst]
    cases grantee <;> rfl
  · exact revokeFromItem_idempotent request
  · exact fun _ impossible => impossible
  · intro grantee _ _ policyItem added
    cases added

theorem afterRevoke_policyItems {request : GrantRevokeRequest}
    (keep : request.replaceExistingPermissions = false) (policy : RangerPolicy) :
    (afterRevoke request policy).policyItems =
      (reduceItems request policy.policyItems).filter (!isVoid ·) := by
  unfold afterRevoke
  rw [storedAfter_policyItems (reports_revokeFromPolicyItems request)]
  simp only [revokeFromPolicyItems, keep, Bool.false_eq_true, ↓reduceIte, Update.both,
    Update.each_fst, Update.upsert_fst, compactPolicy, reduceItems, FirstMatch.upsertAll]

/-- An item that `compactPolicy` removes names nobody or has nothing to revoke. -/
theorem revoked_of_isVoid {same : String → String → Bool} {request : GrantRevokeRequest}
    {policyItem : RangerPolicyItem} (void : isVoid policyItem = true)
    (named : Names request policyItem) : Revoked same request policyItem := by
  simp only [isVoid, Bool.or_eq_true, Bool.and_eq_true, List.isEmpty_iff, Bool.not_eq_true'] at void
  rcases void with ⟨users, groups⟩ | ⟨accesses, delegateAdmin⟩
  · rcases named with ⟨user, _, member⟩ | ⟨group, _, member⟩
    · rw [users] at member
      cases member
    · rw [groups] at member
      cases member
  · refine ⟨fun access member => ?_, fun _ => delegateAdmin⟩
    rw [accesses] at member
    cases member

theorem names_revokeFromItem (request : GrantRevokeRequest) (policyItem : RangerPolicyItem) :
    Names request (revokeFromItem request policyItem).1 ↔ Names request policyItem := by
  rw [revokeFromItem_fst]
  rfl

/-- What is left in a reduced item: requested types in another spelling. -/
theorem revoked_revokeFromItem_iff (same : String → String → Bool) (request : GrantRevokeRequest)
    (policyItem : RangerPolicyItem) :
    Revoked same request (revokeFromItem request policyItem).1 ↔
      ∀ access ∈ policyItem.accesses, AllowsRequested same request access →
        access.type ∈ request.accessTypes := by
  rw [revokeFromItem_fst]
  constructor
  · intro revoked access member requested
    by_contra missed
    exact revoked.accesses access (List.mem_filter.mpr ⟨member, by simpa using missed⟩) requested
  · intro spelled
    refine ⟨fun access left requested => ?_, fun requested => ?_⟩
    · obtain ⟨member, missed⟩ := List.mem_filter.mp left
      have listed : access.type ∈ request.accessTypes := spelled access member requested
      simp [listed] at missed
    · simp [requested]

section Effect

/-- No item that names a requested user or group keeps what is revoked. -/
def RevokeTakesEffect (same : String → String → Bool) (request : GrantRevokeRequest)
    (policy : RangerPolicy) : Prop :=
  ∀ policyItem ∈ (afterRevoke request policy).policyItems, Names request policyItem →
    Revoked same request policyItem

/-- Every item that names a requested user or group and has something to revoke is
one the revoke reduces, and spells the access types as the request does. -/
def ReductionSuffices (same : String → String → Bool) (request : GrantRevokeRequest)
    (policy : RangerPolicy) : Prop :=
  ∀ index policyItem, policy.policyItems[index]? = some policyItem → Names request policyItem →
    (∀ access ∈ policyItem.accesses, AllowsRequested same request access →
      Reduced request policy.policyItems index ∧ access.type ∈ request.accessTypes) ∧
    (request.delegateAdmin = true → policyItem.delegateAdmin = true →
      Reduced request policy.policyItems index)

/-- **When a revoke takes effect.** It does exactly if every item with something to
revoke is the first one for a requested user or group on its own, and spells the
access types as the request does; for every way of comparing access types. -/
theorem revokeTakesEffect_iff (same : String → String → Bool) (request : GrantRevokeRequest)
    (keep : request.replaceExistingPermissions = false) (policy : RangerPolicy) :
    RevokeTakesEffect same request policy ↔ ReductionSuffices same request policy := by
  have progress := progress_reduceItems request policy.policyItems
  unfold RevokeTakesEffect
  rw [afterRevoke_policyItems keep]
  constructor
  · intro effective index policyItem read named
    have revoked : ∀ left, (reduceItems request policy.policyItems)[index]? = some left →
        Names request left → Revoked same request left := by
      intro left present leftNamed
      by_cases void : isVoid left = true
      · exact revoked_of_isVoid void leftNamed
      · apply effective left _ leftNamed
        exact List.mem_filter.mpr ⟨List.mem_of_getElem? present, by simpa using void⟩
    by_cases reduced : Reduced request policy.policyItems index
    · have left := revoked _ (progress.edited index policyItem read reduced)
        ((names_revokeFromItem request policyItem).mpr named)
      rw [revoked_revokeFromItem_iff] at left
      exact ⟨fun access member requested => ⟨reduced, left access member requested⟩,
        fun _ _ => reduced⟩
    · have left := revoked _ (progress.kept index policyItem read reduced) named
      refine ⟨fun access member requested => ?_, fun requested held => ?_⟩
      · exact absurd requested (left.accesses access member)
      · rw [left.delegateAdmin requested] at held
        cases held
  · intro enough policyItem member named
    obtain ⟨index, read⟩ := List.mem_iff_getElem?.mp (List.mem_filter.mp member).1
    by_cases inside : index < policy.policyItems.length
    · obtain ⟨original, origin⟩ : ∃ original, policy.policyItems[index]? = some original :=
        ⟨_, List.getElem?_eq_getElem inside⟩
      by_cases reduced : Reduced request policy.policyItems index
      · rw [progress.edited index original origin reduced, Option.some.injEq] at read
        subst read
        rw [names_revokeFromItem] at named
        rw [revoked_revokeFromItem_iff]
        intro access listed requested
        exact ((enough index original origin named).1 access listed requested).2
      · rw [progress.kept index original origin reduced, Option.some.injEq] at read
        subst read
        obtain ⟨accesses, delegateAdmin⟩ := enough index original origin named
        refine ⟨fun access listed requested => ?_, fun requested => ?_⟩
        · exact reduced (accesses access listed requested).1
        · exact Bool.eq_false_iff.mpr fun held => reduced (delegateAdmin requested held)
    · exact (progress.added index policyItem (Nat.le_of_not_lt inside) read).elim

end Effect

section TwoItems

/-- Two items are for alice alone. -/
def twiceForAlice : RangerPolicy where
  resources := ⟨[("path", { values := ["/data"] })], by decide⟩
  policyItems :=
    [{ users := ["alice"], accesses := [⟨"read", true⟩] },
     { users := ["alice"], accesses := [⟨"read", true⟩, ⟨"write", true⟩] }]

def readFromAlice : GrantRevokeRequest where
  users := ["alice"]
  accessTypes := ["read"]

/-- Only the first item is reduced, and alice can read by the second. -/
theorem revoke_stops_at_first_item :
    ¬ RevokeTakesEffect (· == ·) readFromAlice twiceForAlice := by
  intro effective
  have second : { users := ["alice"], accesses := [⟨"read", true⟩, ⟨"write", true⟩] } ∈
      (afterRevoke readFromAlice twiceForAlice).policyItems := by
    decide
  have revoked := effective _ second (Or.inl ⟨"alice", by decide, by decide⟩)
  exact revoked.accesses ⟨"read", true⟩ (by decide) ⟨rfl, "read", by decide, by decide⟩

theorem revokeTakesEffect_twice_iff :
    RevokeTakesEffect (· == ·) readFromAlice twiceForAlice ↔
      ReductionSuffices (· == ·) readFromAlice twiceForAlice :=
  revokeTakesEffect_iff (· == ·) readFromAlice rfl twiceForAlice

end TwoItems

end ServiceREST

end Ranger

import Ranger.Foundation.Update
import Ranger.Model

/-! # Editing a stored policy for a grant or revoke request

The parts of `ServiceREST` that edit the items of an existing policy. Every edit
reports whether it changed the policy; an unchanged policy is not stored again.
-/

namespace Ranger

open Foundation

structure GrantRevokeRequest where
  grantor : String := ""
  resource : AssocMap String (Option String) := ∅
  users : List String := []
  groups : List String := []
  accessTypes : List String := []
  delegateAdmin : Bool := false
  enableAudit : Bool := true
  replaceExistingPermissions : Bool := false
  isRecursive : Bool := false

/-- A user or a group of a request. -/
inductive Grantee where
  | user (name : String)
  | group (name : String)

/-- The users, then the groups: the order of the two loops. -/
def GrantRevokeRequest.grantees (request : GrantRevokeRequest) : List Grantee :=
  request.users.map .user ++ request.groups.map .group

namespace ServiceREST

/-- The test of `getPolicyItemForUser` and `getPolicyItemForGroup`. -/
def isPolicyItemFor : Grantee → RangerPolicyItem → Bool
  | .user name, policyItem => policyItem.users.length == 1 && policyItem.users.contains name
  | .group name, policyItem => policyItem.groups.length == 1 && policyItem.groups.contains name

def allowAccess (access : RangerPolicyItemAccess) : RangerPolicyItemAccess × Bool :=
  if access.isAllowed then (access, false) else ({ access with isAllowed := true }, true)

/-- One turn of the loop of `addAccesses`: access types are compared letter by letter. -/
def addAccess (accessType : String) (policyItem : RangerPolicyItem) : RangerPolicyItem × Bool :=
  let (accesses, ret) := Update.upsert (fun accessType access => access.type == accessType)
    allowAccess (fun accessType => [⟨accessType, true⟩]) accessType policyItem.accesses
  ({ policyItem with accesses := accesses }, ret)

def addAccesses (accessTypes : List String) (policyItem : RangerPolicyItem) :
    RangerPolicyItem × Bool :=
  Update.each addAccess accessTypes policyItem

def removeAccess (accessType : String) (policyItem : RangerPolicyItem) :
    RangerPolicyItem × Bool :=
  ({ policyItem with accesses := policyItem.accesses.filter (·.type != accessType) },
    policyItem.accesses.any (·.type == accessType))

def removeAccesses (accessTypes : List String) (policyItem : RangerPolicyItem) :
    RangerPolicyItem × Bool :=
  Update.each removeAccess accessTypes policyItem

def setDelegateAdmin (value : Bool) (policyItem : RangerPolicyItem) : RangerPolicyItem × Bool :=
  ({ policyItem with delegateAdmin := value }, policyItem.delegateAdmin != value)

/-- What a grant does to the item of a user or group. -/
def grantToItem (request : GrantRevokeRequest) : RangerPolicyItem → RangerPolicyItem × Bool :=
  Update.both (addAccesses request.accessTypes)
    (Update.onlyIf request.delegateAdmin (setDelegateAdmin true))

/-- What a revoke does to the item of a user or group. -/
def revokeFromItem (request : GrantRevokeRequest) : RangerPolicyItem → RangerPolicyItem × Bool :=
  Update.both (removeAccesses request.accessTypes)
    (Update.onlyIf request.delegateAdmin (setDelegateAdmin false))

/-- The item a grant adds for a user or group that has none. -/
def newItem (request : GrantRevokeRequest) : Grantee → RangerPolicyItem
  | .user name => (grantToItem request { users := [name] }).1
  | .group name => (grantToItem request { groups := [name] }).1

/-- `removeUsersAndGroupsFromPolicy`, for one item. -/
def removeUsersAndGroupsFromItem (request : GrantRevokeRequest) (policyItem : RangerPolicyItem) :
    RangerPolicyItem :=
  { policyItem with
    users := policyItem.users.filter (!request.users.contains ·)
    groups := policyItem.groups.filter (!request.groups.contains ·) }

/-- `removeUsersAndGroupsFromPolicy`: items left without users and groups go. -/
def removeUsersAndGroupsFromPolicy (request : GrantRevokeRequest)
    (policyItems : List RangerPolicyItem) : List RangerPolicyItem × Bool :=
  let emptied := fun policyItem : RangerPolicyItem =>
    policyItem.users.isEmpty && policyItem.groups.isEmpty
  ((policyItems.map (removeUsersAndGroupsFromItem request)).filter (!emptied ·),
    policyItems.any fun policyItem => policyItem.users.any request.users.contains ||
      policyItem.groups.any request.groups.contains ||
      emptied (removeUsersAndGroupsFromItem request policyItem))

/-- Items `compactPolicy` removes: for nobody, or without accesses and delegated admin. -/
def isVoid (policyItem : RangerPolicyItem) : Bool :=
  (policyItem.users.isEmpty && policyItem.groups.isEmpty) ||
    (policyItem.accesses.isEmpty && !policyItem.delegateAdmin)

def compactPolicy (policyItems : List RangerPolicyItem) : List RangerPolicyItem × Bool :=
  (policyItems.filter (!isVoid ·), policyItems.any isVoid)

/-- The edits of `grantAccess` on the items of an existing policy. -/
def grantToPolicyItems (request : GrantRevokeRequest) :
    List RangerPolicyItem → List RangerPolicyItem × Bool :=
  Update.both
    (Update.onlyIf request.replaceExistingPermissions (removeUsersAndGroupsFromPolicy request))
    (Update.each (Update.upsert isPolicyItemFor (grantToItem request)
      fun grantee => [newItem request grantee]) request.grantees)

/-- The edits of `revokeAccess` on the items of an existing policy. -/
def revokeFromPolicyItems (request : GrantRevokeRequest) :
    List RangerPolicyItem → List RangerPolicyItem × Bool :=
  if request.replaceExistingPermissions then removeUsersAndGroupsFromPolicy request
  else
    Update.both
      (Update.each (Update.upsert isPolicyItemFor (revokeFromItem request) fun _ => [])
        request.grantees)
      compactPolicy

/-- The policy stored after an edit of its items: the edited one if the edit
reports a change. -/
def storedAfter (edit : List RangerPolicyItem → List RangerPolicyItem × Bool)
    (policy : RangerPolicy) : RangerPolicy :=
  let (policyItems, policyUpdated) := edit policy.policyItems
  if policyUpdated then { policy with policyItems := policyItems } else policy

/-- The stored policy after the existing-policy path of `grantAccess`. -/
def afterGrant (request : GrantRevokeRequest) : RangerPolicy → RangerPolicy :=
  storedAfter (grantToPolicyItems request)

/-- The stored policy after the existing-policy path of `revokeAccess`. -/
def afterRevoke (request : GrantRevokeRequest) : RangerPolicy → RangerPolicy :=
  storedAfter (revokeFromPolicyItems request)

section Reports

theorem reports_addAccess (accessType : String) : Update.Reports (addAccess accessType) := by
  intro policyItem silent
  have allow : Update.Reports allowAccess := by
    intro access unchanged
    unfold allowAccess at unchanged ⊢
    split
    · rfl
    · next denied => simp [denied] at unchanged
  have kept := allow.upsert
    (fun (accessType : String) (access : RangerPolicyItemAccess) => access.type == accessType)
    (fun accessType => [⟨accessType, true⟩]) accessType policyItem.accesses silent
  simp only [addAccess, kept]

theorem reports_removeAccess (accessType : String) : Update.Reports (removeAccess accessType) := by
  intro policyItem silent
  have kept : policyItem.accesses.filter (·.type != accessType) = policyItem.accesses := by
    apply List.filter_eq_self.mpr
    intro access member
    have different := List.any_eq_false.mp silent access member
    simpa using different
  simp only [removeAccess, kept]

theorem reports_setDelegateAdmin (value : Bool) : Update.Reports (setDelegateAdmin value) := by
  intro policyItem silent
  have same : policyItem.delegateAdmin = value := by simpa [setDelegateAdmin] using silent
  simp only [setDelegateAdmin, ← same]

theorem reports_removeUsersAndGroupsFromPolicy (request : GrantRevokeRequest) :
    Update.Reports (removeUsersAndGroupsFromPolicy request) := by
  intro policyItems silent
  have untouched : ∀ policyItem ∈ policyItems,
      removeUsersAndGroupsFromItem request policyItem = policyItem ∧
        (policyItem.users.isEmpty && policyItem.groups.isEmpty) = false := by
    intro policyItem member
    have kept := List.any_eq_false.mp silent policyItem member
    simp only [Bool.or_eq_true, not_or, Bool.not_eq_true] at kept
    obtain ⟨⟨noUser, noGroup⟩, populated⟩ := kept
    have users : policyItem.users.filter (!request.users.contains ·) = policyItem.users :=
      List.filter_eq_self.mpr fun user listed => by
        simpa using List.any_eq_false.mp noUser user listed
    have groups : policyItem.groups.filter (!request.groups.contains ·) = policyItem.groups :=
      List.filter_eq_self.mpr fun group listed => by
        simpa using List.any_eq_false.mp noGroup group listed
    have same : removeUsersAndGroupsFromItem request policyItem = policyItem := by
      simp only [removeUsersAndGroupsFromItem, users, groups]
    exact ⟨same, by rwa [same] at populated⟩
  have mapped : policyItems.map (removeUsersAndGroupsFromItem request) = policyItems := by
    conv_rhs => rw [← List.map_id policyItems]
    exact List.map_congr_left fun policyItem member => (untouched policyItem member).1
  simp only [removeUsersAndGroupsFromPolicy, mapped]
  apply List.filter_eq_self.mpr
  intro policyItem member
  simp only [(untouched policyItem member).2, Bool.not_false]

theorem reports_compactPolicy : Update.Reports compactPolicy := by
  intro policyItems silent
  apply List.filter_eq_self.mpr
  intro policyItem member
  simpa using List.any_eq_false.mp silent policyItem member

theorem reports_grantToPolicyItems (request : GrantRevokeRequest) :
    Update.Reports (grantToPolicyItems request) := by
  apply Update.Reports.both
  · exact (reports_removeUsersAndGroupsFromPolicy request).onlyIf _
  · refine Update.Reports.each (fun grantee => Update.Reports.upsert _ _ ?_ grantee) _
    exact (Update.Reports.each reports_addAccess _).both ((reports_setDelegateAdmin true).onlyIf _)

theorem reports_revokeFromPolicyItems (request : GrantRevokeRequest) :
    Update.Reports (revokeFromPolicyItems request) := by
  unfold revokeFromPolicyItems
  split
  · exact reports_removeUsersAndGroupsFromPolicy request
  · apply Update.Reports.both _ reports_compactPolicy
    refine Update.Reports.each (fun grantee => Update.Reports.upsert _ _ ?_ grantee) _
    exact (Update.Reports.each reports_removeAccess _).both
      ((reports_setDelegateAdmin false).onlyIf _)

/-- With an edit whose report can be trusted, the stored items are the edited
ones, whether or not the policy was stored again. -/
theorem storedAfter_policyItems {edit : List RangerPolicyItem → List RangerPolicyItem × Bool}
    (reports : Update.Reports edit) (policy : RangerPolicy) :
    (storedAfter edit policy).policyItems = (edit policy.policyItems).1 := by
  unfold storedAfter
  cases changed : (edit policy.policyItems).2 with
  | true => simp [changed]
  | false => simp [changed, reports _ changed]

end Reports

end ServiceREST

end Ranger

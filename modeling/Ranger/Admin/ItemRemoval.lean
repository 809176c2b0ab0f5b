import Ranger.Admin.GrantRevoke
import Ranger.Foundation.Sweep

/-! # Removing names from a policy, and empty items

The loops of `removeUsersAndGroupsFromPolicy` and `compactPolicy` as they are written, which
delete items while they count through them. They do what the edits of a grant and a revoke
are taken to do, and nothing else.
-/

namespace Ranger.ServiceREST

open Foundation

/-- `CollectionUtils.containsAny`, which goes through the shorter collection. -/
def containsAny (names given : List String) : Bool :=
  if names.length < given.length then names.any given.contains else given.any names.contains

theorem containsAny_eq (names given : List String) :
    containsAny names given = names.any given.contains := by
  unfold containsAny
  split
  · rfl
  · rw [Bool.eq_iff_iff, List.any_eq_true, List.any_eq_true]
    simp only [List.contains_iff_mem, and_comm]

namespace Loops

def removeUsers (users : List String) (policyItem : RangerPolicyItem) : RangerPolicyItem × Bool :=
  if containsAny policyItem.users users then
    ({ policyItem with users := policyItem.users.filter (!users.contains ·) }, true)
  else (policyItem, false)

def removeGroups (groups : List String) (policyItem : RangerPolicyItem) :
    RangerPolicyItem × Bool :=
  if containsAny policyItem.groups groups then
    ({ policyItem with groups := policyItem.groups.filter (!groups.contains ·) }, true)
  else (policyItem, false)

def isForNobody (policyItem : RangerPolicyItem) : Bool :=
  policyItem.users.isEmpty && policyItem.groups.isEmpty

/-- A loop over the items of a policy; none when an index is out of bounds. -/
def overItems (edit : RangerPolicyItem → RangerPolicyItem × Bool)
    (void : RangerPolicyItem → Bool) (policy : RangerPolicy) : Option (RangerPolicy × Bool) :=
  (Sweep.sweep edit void policy.policyItems).map fun (policyItems, updated) =>
    ({ policy with policyItems }, updated)

def removeUsersAndGroupsFromPolicy (users groups : List String) :
    RangerPolicy → Option (RangerPolicy × Bool) :=
  overItems (Update.both (removeUsers users) (removeGroups groups)) isForNobody

def compactPolicy : RangerPolicy → Option (RangerPolicy × Bool) :=
  overItems (fun policyItem => (policyItem, false)) isVoid

end Loops

section Items

theorem filter_of_not_containsAny {names given : List String}
    (apart : containsAny names given = false) :
    names.filter (!given.contains ·) = names := by
  rw [containsAny_eq] at apart
  exact List.filter_eq_self.mpr fun name listed => by
    simpa using List.any_eq_false.mp apart name listed

theorem filter_ne_self {names given : List String} (shared : containsAny names given = true) :
    names.filter (!given.contains ·) ≠ names := by
  intro same
  rw [containsAny_eq] at shared
  obtain ⟨name, listed, isGiven⟩ := List.any_eq_true.mp shared
  have kept := List.filter_eq_self.mp same name listed
  rw [isGiven] at kept
  cases kept

/-- An item without the names that are removed. -/
def withoutNames (users groups : List String) (policyItem : RangerPolicyItem) :
    RangerPolicyItem :=
  { policyItem with
    users := policyItem.users.filter (!users.contains ·)
    groups := policyItem.groups.filter (!groups.contains ·) }

/-- The names go from both lists, and a change is reported if there were any. -/
theorem removeNames_eq (users groups : List String) (policyItem : RangerPolicyItem) :
    Update.both (Loops.removeUsers users) (Loops.removeGroups groups) policyItem =
      (withoutNames users groups policyItem,
        containsAny policyItem.users users || containsAny policyItem.groups groups) := by
  unfold Update.both Loops.removeUsers Loops.removeGroups withoutNames
  cases someUser : containsAny policyItem.users users with
  | true =>
      cases someGroup : containsAny policyItem.groups groups with
      | true => simp only [↓reduceIte, someGroup, Bool.or_self]
      | false =>
          simp only [↓reduceIte, someGroup, Bool.false_eq_true, Bool.or_false,
            filter_of_not_containsAny someGroup]
  | false =>
      cases someGroup : containsAny policyItem.groups groups with
      | true =>
          simp only [↓reduceIte, someGroup, Bool.false_eq_true, Bool.or_true,
            filter_of_not_containsAny someUser]
      | false =>
          simp only [↓reduceIte, someGroup, Bool.false_eq_true, Bool.or_self,
            filter_of_not_containsAny someUser, filter_of_not_containsAny someGroup]

/-- An item is edited exactly if one of its names goes. -/
theorem withoutNames_eq_self_iff {users groups : List String} {policyItem : RangerPolicyItem} :
    withoutNames users groups policyItem = policyItem ↔
      (containsAny policyItem.users users || containsAny policyItem.groups groups) = false := by
  rw [Bool.or_eq_false_iff]
  constructor
  · intro same
    have sameUsers := congrArg RangerPolicyItem.users same
    have sameGroups := congrArg RangerPolicyItem.groups same
    exact ⟨Bool.eq_false_iff.mpr fun shared => filter_ne_self shared sameUsers,
      Bool.eq_false_iff.mpr fun shared => filter_ne_self shared sameGroups⟩
  · intro ⟨noUser, noGroup⟩
    unfold withoutNames
    rw [filter_of_not_containsAny noUser, filter_of_not_containsAny noGroup]

end Items

section Policies

/-- The items that stay are changed in place, and nothing else of the policy is. -/
def KeepsOthers (change : RangerPolicyItem → RangerPolicyItem) (gone : RangerPolicyItem → Bool)
    (before after : RangerPolicy) : Prop :=
  after = { before with
    policyItems := (before.policyItems.filter fun policyItem => !gone (change policyItem)).map
      change }

theorem overItems_eq (edit : RangerPolicyItem → RangerPolicyItem × Bool)
    (void : RangerPolicyItem → Bool) (policy : RangerPolicy) :
    Loops.overItems edit void policy =
      some ({ policy with policyItems := Sweep.swept edit void policy.policyItems },
        policy.policyItems.any fun item => (edit item).2 || void (edit item).1) := by
  unfold Loops.overItems
  rw [Sweep.sweep_eq]
  rfl

theorem swept_eq_map_filter (edit : RangerPolicyItem → RangerPolicyItem × Bool)
    (void : RangerPolicyItem → Bool) (policyItems : List RangerPolicyItem) :
    Sweep.swept edit void policyItems =
      (policyItems.filter fun policyItem => !void (edit policyItem).1).map
        fun policyItem => (edit policyItem).1 :=
  List.filter_map

theorem compactPolicy_loop (policy : RangerPolicy) :
    Loops.compactPolicy policy =
      some ({ policy with policyItems := policy.policyItems.filter (!isVoid ·) },
        policy.policyItems.any isVoid) := by
  unfold Loops.compactPolicy
  rw [overItems_eq, swept_eq_map_filter]
  simp only [List.map_id', Bool.false_or]

/-- The loop is the edit that a grant and a revoke begin with. -/
theorem removeUsersAndGroupsFromPolicy_eq (request : GrantRevokeRequest) (policy : RangerPolicy) :
    Loops.removeUsersAndGroupsFromPolicy request.users request.groups policy =
      some ({ policy with
          policyItems := (removeUsersAndGroupsFromPolicy request policy.policyItems).1 },
        (removeUsersAndGroupsFromPolicy request policy.policyItems).2) := by
  unfold Loops.removeUsersAndGroupsFromPolicy
  rw [overItems_eq]
  unfold Sweep.swept
  simp only [removeNames_eq, containsAny_eq]
  rfl

/-- The loop is the edit that a revoke ends with. -/
theorem compactPolicy_eq (policy : RangerPolicy) :
    Loops.compactPolicy policy =
      some ({ policy with policyItems := (compactPolicy policy.policyItems).1 },
        (compactPolicy policy.policyItems).2) :=
  compactPolicy_loop policy

/-- The edited policy is another one exactly if an item was edited or deleted. -/
theorem changed_iff {edit : RangerPolicyItem → RangerPolicyItem × Bool}
    {void : RangerPolicyItem → Bool}
    (reports : ∀ policyItem, (edit policyItem).1 = policyItem ↔ (edit policyItem).2 = false)
    {policy : RangerPolicy} :
    (policy.policyItems.any fun item => (edit item).2 || void (edit item).1) = true ↔
      { policy with policyItems := Sweep.swept edit void policy.policyItems } ≠ policy := by
  have same : { policy with policyItems := Sweep.swept edit void policy.policyItems } = policy ↔
      Sweep.swept edit void policy.policyItems = policy.policyItems := by
    constructor
    · exact congrArg RangerPolicy.policyItems
    · intro items
      rw [items]
  rw [Ne, same, Sweep.swept_eq_self_iff, ← Bool.not_eq_false, not_iff_not, List.any_eq_false]
  refine forall₂_congr fun item _ => ?_
  rw [Bool.not_eq_true, Bool.or_eq_false_iff, reports]
  refine and_congr_right fun unreported => ?_
  rw [(reports item).mpr unreported]

/-- What removing names leaves: the items that still name somebody, without the names. -/
theorem mem_swept_iff {users groups : List String} {policyItems : List RangerPolicyItem}
    {policyItem : RangerPolicyItem} :
    policyItem ∈ Sweep.swept (Update.both (Loops.removeUsers users) (Loops.removeGroups groups))
        Loops.isForNobody policyItems ↔
      (∃ original ∈ policyItems, withoutNames users groups original = policyItem) ∧
        Loops.isForNobody policyItem = false := by
  simp only [Sweep.swept, removeNames_eq, List.mem_filter, List.mem_map, Bool.not_eq_true']

theorem isForNobody_eq_false_iff {policyItem : RangerPolicyItem} :
    Loops.isForNobody policyItem = false ↔ ¬(policyItem.users = [] ∧ policyItem.groups = []) := by
  simp only [Loops.isForNobody, Bool.and_eq_false_iff, List.isEmpty_eq_false_iff, not_and_or]

theorem isVoid_eq_false_iff {policyItem : RangerPolicyItem} :
    isVoid policyItem = false ↔ ¬(policyItem.users = [] ∧ policyItem.groups = []) ∧
      ¬(policyItem.accesses = [] ∧ policyItem.delegateAdmin = false) := by
  simp only [isVoid, Bool.or_eq_false_iff, Bool.and_eq_false_iff, List.isEmpty_eq_false_iff,
    not_and_or, Bool.not_eq_false', Bool.not_eq_false]

/-- Removing names and compacting end, leave no empty items, and edit nothing else. -/
theorem removal_edits_nothing_else (policy : RangerPolicy) (users groups : List String) :
    (∃ after updated, Loops.removeUsersAndGroupsFromPolicy users groups policy =
        some (after, updated) ∧
      (∀ policyItem ∈ after.policyItems, (∀ user ∈ users, user ∉ policyItem.users) ∧
        (∀ group ∈ groups, group ∉ policyItem.groups) ∧
        ¬(policyItem.users = [] ∧ policyItem.groups = [])) ∧
      KeepsOthers (withoutNames users groups) Loops.isForNobody policy after ∧
      (updated = true ↔ after ≠ policy)) ∧
    ∃ after updated, Loops.compactPolicy policy = some (after, updated) ∧
      (∀ policyItem ∈ after.policyItems, ¬(policyItem.users = [] ∧ policyItem.groups = []) ∧
        ¬(policyItem.accesses = [] ∧ policyItem.delegateAdmin = false)) ∧
      KeepsOthers id isVoid policy after := by
  constructor
  · refine ⟨_, _, overItems_eq .., ?_, ?_, changed_iff ?_⟩
    · intro policyItem member
      obtain ⟨⟨original, _, rfl⟩, someone⟩ := mem_swept_iff.mp member
      refine ⟨?_, ?_, isForNobody_eq_false_iff.mp someone⟩
      · intro user given listed
        simp [withoutNames, given] at listed
      · intro group given listed
        simp [withoutNames, given] at listed
    · unfold KeepsOthers
      rw [swept_eq_map_filter]
      simp only [removeNames_eq]
    · intro policyItem
      rw [removeNames_eq]
      exact withoutNames_eq_self_iff
  · refine ⟨_, _, compactPolicy_loop policy, ?_, ?_⟩
    · intro policyItem member
      exact isVoid_eq_false_iff.mp (by simpa using (List.mem_filter.mp member).2)
    · unfold KeepsOthers
      simp only [List.map_id, id]

end Policies

end Ranger.ServiceREST

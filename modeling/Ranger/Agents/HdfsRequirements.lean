import Ranger.Agents.HdfsEnforcer

/-! # What a permission check requires

A call lets a user through when the plugin allows every access type of every action on the
inode the action is for. The enforcer decides by this up to three things: a type that is
not answered, an action without types, and the action it asks about below the inode.
-/

namespace Ranger

open Foundation

namespace RangerAccessControlEnforcer

section Types

/-- The loop over the access types lets through what is allowed once and denied never. -/
theorem allowTypes_eq_true_iff (answer : String → Option RangerAccessResult) (ret : Bool)
    (accessTypes : List String) :
    allowTypes answer ret accessTypes = true ↔
      (ret = true ∨ ∃ accessType ∈ accessTypes, ∃ result, answer accessType = some result ∧
        result.isAllowed = true) ∧
      ∀ accessType ∈ accessTypes, ∀ result, answer accessType = some result →
        result.isAllowed = true := by
  induction accessTypes generalizing ret with
  | nil => simp [allowTypes]
  | cons accessType rest ih =>
      rw [allowTypes]
      cases answered : answer accessType with
      | none => simp [ih, answered]
      | some result =>
          cases allowed : result.isAllowed with
          | true => simp [ih, answered, allowed]
          | false => simp [answered, allowed]

end Types

variable (enforcer : RangerAccessControlEnforcer) (plugin : Authorizer) (check : PermissionCheck)

/-- What the plugin says about an access type on the path of an inode, if it answers. -/
def answer (inode : INode) (accessType : String) : Option Bool :=
  (request plugin enforcer.remoteIp (userOf check) (groupsOf check) (pathOf inode) none none
    accessType).map (·.isAllowed)

/-- The deepest inode that exists, from the index of the ancestor upwards. -/
def DeepestAncestor (inode : INode) : Prop :=
  ∃ index : Nat, (index : Int) ≤ check.ancestorIndex ∧
    check.inodes[index]? = some (some inode) ∧
    ∀ deeper : Nat, index < deeper → (deeper : Int) ≤ check.ancestorIndex →
      (check.inodes[deeper]?).join = none

/-- The actions required of an ancestor, the parent and the inode. -/
inductive Requires : INode → FsAction → Prop where
  | ancestor {inode : INode} {action : FsAction} (required : check.ancestorAccess = some action)
      (ancestor : DeepestAncestor check inode) : Requires inode action
  | parent {inode : INode} {action : FsAction} (required : check.parentAccess = some action)
      (parent : parentOf check = some inode) : Requires inode action
  | inode {inode : INode} {action : FsAction} (required : check.access = some action)
      (last : inodeOf check = some inode) : Requires inode action

/-- The directories from the inode downwards that an action is required of. -/
structure RequiresBelow (dir : INode) (action : FsAction) : Prop where
  required : check.subAccess = some action
  below : ∃ inode, inodeOf check = some inode ∧ inode.isDirectory = true ∧
    INode.descent.Below inode dir
  filled : dir.getChildrenList = [] → check.ignoreEmptyDir = false

/-- Who writes to a sticky parent owns it or the inode. -/
def StickyBit : Prop :=
  ∀ parentAccess parent inode permission, check.parentAccess = some parentAccess →
    parentAccess.implies .write = true → parentOf check = some parent →
    inodeOf check = some inode → parent.attributes.fsPermission = some permission →
    permission.stickyBit = true →
    parent.attributes.userName = userOf check ∨ inode.attributes.userName = userOf check

def Owner : Prop :=
  check.doCheckOwner = true → userOf check = (inodeAttribsOf check).bind (·.userName)

/-- Every access type of an action is answered, and allowed. -/
def Allowed (inode : INode) (action : FsAction) : Prop :=
  ∀ accessType ∈ access2ActionListMapper action,
    enforcer.answer plugin check inode accessType = some true

/-- What a call requires. -/
structure Permitted : Prop where
  stickyBit : StickyBit check
  owner : Owner check
  actions : ∀ inode action, Requires check inode action →
    enforcer.Allowed plugin check inode action
  subtree : ∀ dir action, RequiresBelow check dir action →
    enforcer.Allowed plugin check dir action

/-- An access type of an action is denied. -/
def Denied (inode : INode) (action : FsAction) : Prop :=
  ∃ accessType ∈ access2ActionListMapper action,
    enforcer.answer plugin check inode accessType = some false

/-- No access type of an action is answered, or it has none. -/
def Silent (inode : INode) (action : FsAction) : Prop :=
  ∀ accessType ∈ access2ActionListMapper action,
    enforcer.answer plugin check inode accessType = none

/-- Some access type of an action is not answered. -/
def Incomplete (inode : INode) (action : FsAction) : Prop :=
  ∃ accessType ∈ access2ActionListMapper action,
    enforcer.answer plugin check inode accessType = none

/-- The action the enforcer asks about below the inode. -/
def actionBelow : FsAction := check.access.getD .none

section Inodes

variable {enforcer plugin check} {inode : INode}

theorem isAllowed_iff (inodeAttribs : Option INodeAttributes) (access : Option FsAction) :
    enforcer.isAllowed plugin check inode inodeAttribs access = true ↔
      ¬ enforcer.Silent plugin check inode (access.getD .none) ∧
        ¬ enforcer.Denied plugin check inode (access.getD .none) := by
  -- the owner and the action in a request do not matter to the plugin
  have asked : ∀ accessType, enforcer.answer plugin check inode accessType =
      (request plugin enforcer.remoteIp (userOf check) (groupsOf check) (pathOf inode)
        ((inodeAttribs.bind (·.userName)).or inode.attributes.userName) access accessType).map
          (·.isAllowed) := fun _ => rfl
  unfold isAllowed isAccessAllowed Silent Denied
  rw [allowTypes_eq_true_iff]
  simp only [Bool.false_eq_true, false_or, asked]
  generalize request plugin enforcer.remoteIp (userOf check) (groupsOf check) (pathOf inode)
    ((inodeAttribs.bind (·.userName)).or inode.attributes.userName) access = answered
  constructor
  · rintro ⟨⟨accessType, listed, result, found, allowed⟩, never⟩
    constructor
    · intro silent
      have unanswered := silent accessType listed
      rw [found] at unanswered
      nomatch unanswered
    · rintro ⟨accessType, listed, denied⟩
      obtain ⟨result, found, refused⟩ := Option.map_eq_some_iff.mp denied
      rw [never accessType listed result found] at refused
      nomatch refused
  · rintro ⟨heard, never⟩
    have allowed : ∀ accessType ∈ access2ActionListMapper (access.getD .none), ∀ result,
        answered accessType = some result → result.isAllowed = true := by
      intro accessType listed result found
      cases refused : result.isAllowed with
      | true => rfl
      | false =>
          exact absurd ⟨accessType, listed, by rw [found, Option.map_some, refused]⟩ never
    refine ⟨?_, allowed⟩
    push Not at heard
    obtain ⟨accessType, listed, some⟩ := heard
    obtain ⟨result, found⟩ := Option.ne_none_iff_exists'.mp some
    obtain ⟨result, found, _⟩ := Option.map_eq_some_iff.mp found
    exact ⟨accessType, listed, result, found, allowed accessType listed result found⟩

/-- Unless a type is denied, an action is allowed when all its types are answered. -/
theorem allowed_iff_of_not_denied {action : FsAction}
    (never : ¬ enforcer.Denied plugin check inode action) :
    enforcer.Allowed plugin check inode action ↔
      ¬ enforcer.Incomplete plugin check inode action := by
  constructor
  · rintro allowed ⟨accessType, listed, unanswered⟩
    rw [allowed accessType listed] at unanswered
    nomatch unanswered
  · intro complete accessType listed
    cases answered : enforcer.answer plugin check inode accessType with
    | none => exact absurd ⟨accessType, listed, answered⟩ complete
    | some verdict =>
        cases verdict with
        | true => rfl
        | false => exact absurd ⟨accessType, listed, answered⟩ never

theorem not_allowed_of_denied {action : FsAction}
    (denied : enforcer.Denied plugin check inode action) :
    ¬ enforcer.Allowed plugin check inode action := by
  obtain ⟨accessType, listed, refused⟩ := denied
  intro allowed
  rw [allowed accessType listed] at refused
  nomatch refused

end Inodes

section Ancestor

variable {check}

/-- The loop towards the root stops at the last inode that exists. -/
theorem lastExisting_spec (inodes : List (Option INode)) (count : Nat) :
    (lastExisting inodes count = -1 ∧ ∀ index < count, (inodes[index]?).join = none) ∨
      ∃ index inode, index < count ∧ lastExisting inodes count = (index : Nat) ∧
        inodes[index]? = some (some inode) ∧
        ∀ deeper, index < deeper → deeper < count → (inodes[deeper]?).join = none := by
  induction count with
  | zero => exact .inl ⟨rfl, fun _ impossible => absurd impossible (Nat.not_lt_zero _)⟩
  | succ count ih =>
      rw [lastExisting]
      cases present : (inodes[count]?).join with
      | some inode =>
          refine .inr ⟨count, inode, Nat.lt_succ_self _, rfl,
            Option.join_eq_some_iff.mp present, ?_⟩
          intro deeper below within
          omega
      | none =>
          rcases ih with ⟨nowhere, absent⟩ | ⟨index, inode, within, last, found, absent⟩
          · refine .inl ⟨nowhere, fun index below => ?_⟩
            rcases Nat.lt_succ_iff_lt_or_eq.mp below with earlier | same
            · exact absent index earlier
            · rw [same]
              exact present
          · refine .inr ⟨index, inode, Nat.lt_succ_of_lt within, last, found, ?_⟩
            intro deeper later below
            rcases Nat.lt_succ_iff_lt_or_eq.mp below with earlier | same
            · exact absent deeper later earlier
            · rw [same]
              exact present

/-- **The ancestor.** The ancestor that is checked is the deepest one that exists. -/
theorem ancestorOf_eq_some_iff (inode : INode) :
    ancestorOf check = some inode ↔ DeepestAncestor check inode := by
  have unique : ∀ {first second : Nat} {other : INode},
      check.inodes[first]? = some (some inode) → (first : Int) ≤ check.ancestorIndex →
      (∀ deeper : Nat, first < deeper → (deeper : Int) ≤ check.ancestorIndex →
        (check.inodes[deeper]?).join = none) →
      check.inodes[second]? = some (some other) → (second : Int) ≤ check.ancestorIndex →
      (∀ deeper : Nat, second < deeper → (deeper : Int) ≤ check.ancestorIndex →
        (check.inodes[deeper]?).join = none) → inode = other := by
    intro first second other foundFirst withinFirst absentFirst foundSecond withinSecond
      absentSecond
    rcases Nat.lt_trichotomy first second with before | same | after
    · have absent := absentFirst second before withinSecond
      rw [foundSecond] at absent
      nomatch absent
    · rw [same, foundSecond] at foundFirst
      exact (Option.some.inj (Option.some.inj foundFirst)).symm
    · have absent := absentSecond first after withinFirst
      rw [foundFirst] at absent
      nomatch absent
  generalize clipped : (if check.ancestorIndex ≥ check.inodes.length then
    (check.inodes.length : Int) - 1 else check.ancestorIndex) = ancestorIndex
  have unclipped : ∀ index : Nat, (index : Int) ≤ check.ancestorIndex →
      (index : Int) ≤ ancestorIndex ∨ check.inodes[index]? = none := by
    intro index within
    rw [List.getElem?_eq_none_iff]
    split at clipped <;> omega
  have below : ancestorIndex ≤ check.ancestorIndex := by split at clipped <;> omega
  have short : ancestorIndex < check.inodes.length := by split at clipped <;> omega
  by_cases negative : ancestorIndex < 0
  · have index : ancestorIndexOf check = ancestorIndex := by
      unfold ancestorIndexOf
      rw [clipped]
      exact if_pos negative
    unfold ancestorOf
    rw [index, if_neg (by omega)]
    refine iff_of_false (fun impossible => nomatch impossible) ?_
    rintro ⟨index, within, found, _⟩
    rcases unclipped index within with inside | outside
    · omega
    · rw [found] at outside
      nomatch outside
  · have index : ancestorIndexOf check =
        lastExisting check.inodes (ancestorIndex + 1).toNat := by
      unfold ancestorIndexOf
      rw [clipped]
      exact if_neg negative
    rcases lastExisting_spec check.inodes (ancestorIndex + 1).toNat with
      ⟨nowhere, absent⟩ | ⟨last, found, within, place, present, absent⟩
    · unfold ancestorOf
      rw [index, nowhere, if_neg (by omega)]
      refine iff_of_false (fun impossible => nomatch impossible) ?_
      rintro ⟨index, within, found, _⟩
      rcases unclipped index within with inside | outside
      · have missing := absent index (by omega)
        rw [found] at missing
        nomatch missing
      · rw [found] at outside
        nomatch outside
    · have deepest : DeepestAncestor check found := by
        refine ⟨last, by omega, present, fun deeper later within => ?_⟩
        rcases unclipped deeper within with inside | outside
        · exact absent deeper later (by omega)
        · rw [outside]
          rfl
      have chosen : ancestorOf check = some found := by
        unfold ancestorOf
        rw [index, place, if_pos (by omega), Int.toNat_natCast, present]
        rfl
      rw [chosen]
      constructor
      · intro same
        rw [← Option.some.inj same]
        exact deepest
      · rintro ⟨index, within, found, missing⟩
        obtain ⟨other, inside, known, without⟩ := deepest
        rw [unique found within missing known inside without]

end Ancestor

section Checks

variable {enforcer plugin check}

theorem checkStickyBit_iff : checkStickyBit check = true ↔ StickyBit check := by
  unfold checkStickyBit StickyBit
  cases check.parentAccess with
  | none => simp
  | some parentAccess =>
      cases parentOf check with
      | none => simp
      | some parent =>
          cases inodeOf check with
          | none => simp
          | some inode =>
              constructor
              · rintro passed _ _ _ permission ⟨⟩ writes ⟨⟩ ⟨⟩ held sticky
                simpa [writes, held, sticky] using passed
              · intro owned
                dsimp only
                cases writes : parentAccess.implies .write with
                | false => rfl
                | true =>
                    cases held : parent.attributes.fsPermission with
                    | none => rfl
                    | some permission =>
                        cases sticky : permission.stickyBit with
                        | false => simp [sticky]
                        | true =>
                            simpa [sticky] using
                              owned _ _ _ permission rfl writes rfl rfl held sticky

theorem checkOwnerAccess_iff : checkOwnerAccess check = true ↔ Owner check := by
  unfold checkOwnerAccess Owner
  cases check.doCheckOwner <;> simp

/-- The enforcer hears of an action and does not hear that it is denied. -/
def Heard (enforcer : RangerAccessControlEnforcer) (plugin : Authorizer) (check : PermissionCheck)
    (inode : INode) (action : FsAction) : Prop :=
  ¬ enforcer.Silent plugin check inode action ∧ ¬ enforcer.Denied plugin check inode action

theorem checkActions_iff :
    (enforcer.checkAncestorAccess plugin check = true ∧
      enforcer.checkParentAccess plugin check = true ∧
      enforcer.checkINodeAccess plugin check = true) ↔
      ∀ inode action, Requires check inode action → Heard enforcer plugin check inode action := by
  constructor
  · rintro ⟨ancestorHeard, parentHeard, inodeHeard⟩ inode action required
    cases required with
    | ancestor required deepest =>
        unfold checkAncestorAccess at ancestorHeard
        rw [required, (ancestorOf_eq_some_iff inode).mpr deepest] at ancestorHeard
        exact (isAllowed_iff _ _).mp ancestorHeard
    | parent required parent =>
        unfold checkParentAccess at parentHeard
        rw [required, parent] at parentHeard
        exact (isAllowed_iff _ _).mp parentHeard
    | inode required last =>
        unfold checkINodeAccess at inodeHeard
        rw [required, last] at inodeHeard
        exact (isAllowed_iff _ _).mp inodeHeard
  · intro heard
    refine ⟨?_, ?_, ?_⟩
    · unfold checkAncestorAccess
      cases required : check.ancestorAccess with
      | none => rfl
      | some action =>
          cases ancestor : ancestorOf check with
          | none => rfl
          | some inode =>
              apply (isAllowed_iff _ _).mpr
              exact heard inode action (.ancestor required ((ancestorOf_eq_some_iff _).mp ancestor))
    · unfold checkParentAccess
      cases required : check.parentAccess with
      | none => rfl
      | some action =>
          cases parent : parentOf check with
          | none => rfl
          | some inode =>
              exact (isAllowed_iff _ _).mpr (heard inode action (.parent required parent))
    · unfold checkINodeAccess
      cases required : check.access with
      | none => rfl
      | some action =>
          cases last : inodeOf check with
          | none => rfl
          | some inode => exact (isAllowed_iff _ _).mpr (heard inode action (.inode required last))

theorem checkDirectory_iff (dir : INode) :
    enforcer.checkDirectory plugin check dir = true ↔
      ((dir.getChildrenList = [] → check.ignoreEmptyDir = false) →
        Heard enforcer plugin check dir (actionBelow check)) := by
  unfold checkDirectory
  cases empty : dir.getChildrenList.isEmpty with
  | true =>
      rw [List.isEmpty_iff] at empty
      cases ignored : check.ignoreEmptyDir with
      | true => simp [empty]
      | false => simp [isAllowed_iff, Heard, actionBelow]
  | false =>
      rw [List.isEmpty_eq_false_iff] at empty
      simp [isAllowed_iff, Heard, actionBelow, empty]

theorem checkSubAccess_iff :
    enforcer.checkSubAccess plugin check = true ↔
      ∀ dir action, RequiresBelow check dir action →
        Heard enforcer plugin check dir (actionBelow check) := by
  unfold checkSubAccess
  cases required : check.subAccess with
  | none =>
      refine iff_of_true rfl ?_
      rintro dir action ⟨impossible, _, _⟩
      rw [required] at impossible
      nomatch impossible
  | some action =>
      cases last : inodeOf check with
      | none =>
          refine iff_of_true rfl ?_
          rintro dir action ⟨_, ⟨inode, impossible, _⟩, _⟩
          rw [last] at impossible
          nomatch impossible
      | some inode =>
          dsimp only
          cases directory : inode.isDirectory with
          | false =>
              refine iff_of_true (if_neg Bool.false_ne_true) ?_
              rintro dir action ⟨_, ⟨other, same, impossible, _⟩, _⟩
              rw [last] at same
              cases same
              rw [directory] at impossible
              nomatch impossible
          | true =>
              rw [if_pos rfl, Descent.walk_eq_true_iff]
              simp only [List.mem_singleton, forall_eq, checkDirectory_iff]
              constructor
              · rintro walked dir action ⟨_, ⟨other, same, _, below⟩, filled⟩
                rw [last] at same
                cases same
                exact walked dir below filled
              · intro heard dir below filled
                exact heard dir action ⟨required, ⟨inode, last, directory, below⟩, filled⟩

/-- **What the enforcer checks.** -/
theorem accessGranted_iff (loaded : enforcer.plugin = some plugin) (asked : applies check = true) :
    enforcer.accessGranted check = true ↔
      StickyBit check ∧ Owner check ∧
        (∀ inode action, Requires check inode action → Heard enforcer plugin check inode action) ∧
        ∀ dir action, RequiresBelow check dir action →
          Heard enforcer plugin check dir (actionBelow check) := by
  unfold accessGranted
  rw [loaded]
  dsimp only
  rw [asked, Bool.true_and]
  simp only [Bool.and_eq_true, checkStickyBit_iff, checkOwnerAccess_iff, checkSubAccess_iff]
  rw [← checkActions_iff]
  tauto

theorem checkPermission_eq_ok_iff (disabled : enforcer.hadoopAuthEnabled = false) :
    enforcer.checkPermission check = .ok () ↔ enforcer.accessGranted check = true := by
  unfold checkPermission
  rw [disabled]
  cases enforcer.accessGranted check with
  | true => exact iff_of_true rfl rfl
  | false => exact iff_of_false (fun impossible => nomatch impossible) Bool.false_ne_true

end Checks

section Decisions

/-- What keeps the enforcer from letting a call through though nothing that is required is
denied: an action nothing is heard of, or the one it asks about below the inode. -/
def Hindered : Prop :=
  (∃ inode action, Requires check inode action ∧ enforcer.Silent plugin check inode action) ∨
    ∃ dir action, RequiresBelow check dir action ∧
      (enforcer.Silent plugin check dir (actionBelow check) ∨
        enforcer.Denied plugin check dir (actionBelow check))

/-- What a call that requires nothing that is denied still misses. -/
def Missing : Prop :=
  (∃ inode action, Requires check inode action ∧ enforcer.Incomplete plugin check inode action) ∨
    ∃ dir action, RequiresBelow check dir action ∧ ¬ enforcer.Allowed plugin check dir action

/-- The sticky bit, the owner or a denied type settles the call, or the enforcer is hindered
just when something is missing. -/
def Settled : Prop :=
  ¬ StickyBit check ∨ ¬ Owner check ∨
    (∃ inode action, Requires check inode action ∧ enforcer.Denied plugin check inode action) ∨
    (enforcer.Hindered plugin check ↔ enforcer.Missing plugin check)

variable {enforcer plugin check}

/-- **Permission checks.** A call is let through when all it requires is permitted, and only
then, if it is settled; else the enforcer errs. -/
theorem checkPermission_follows_iff (loaded : enforcer.plugin = some plugin)
    (disabled : enforcer.hadoopAuthEnabled = false) (asked : applies check = true) :
    (enforcer.checkPermission check = .ok () ↔ enforcer.Permitted plugin check) ↔
      enforcer.Settled plugin check := by
  rw [checkPermission_eq_ok_iff disabled, accessGranted_iff loaded asked]
  unfold Settled
  by_cases sticky : StickyBit check
  · by_cases owner : Owner check
    · by_cases denied : ∃ inode action, Requires check inode action ∧
          enforcer.Denied plugin check inode action
      · refine iff_of_true (iff_of_false ?_ ?_) (.inr (.inr (.inl denied)))
        · rintro ⟨_, _, heard, _⟩
          obtain ⟨inode, action, required, denied⟩ := denied
          exact (heard inode action required).2 denied
        · intro permitted
          obtain ⟨inode, action, required, denied⟩ := denied
          exact not_allowed_of_denied denied (permitted.actions inode action required)
      · have never : ∀ inode action, Requires check inode action →
            ¬ enforcer.Denied plugin check inode action :=
          fun inode action required refused => denied ⟨inode, action, required, refused⟩
        have granted : (StickyBit check ∧ Owner check ∧
            (∀ inode action, Requires check inode action →
              Heard enforcer plugin check inode action) ∧
            ∀ dir action, RequiresBelow check dir action →
              Heard enforcer plugin check dir (actionBelow check)) ↔
              ¬ enforcer.Hindered plugin check := by
          unfold Hindered Heard
          push Not
          constructor
          · rintro ⟨_, _, heard, heardBelow⟩
            exact ⟨fun inode action required => (heard inode action required).1, heardBelow⟩
          · rintro ⟨heard, heardBelow⟩
            exact ⟨sticky, owner,
              fun inode action required =>
                ⟨heard inode action required, never inode action required⟩,
              heardBelow⟩
        have permitted : enforcer.Permitted plugin check ↔ ¬ enforcer.Missing plugin check := by
          unfold Missing
          push Not
          constructor
          · intro permitted
            exact ⟨fun inode action required =>
              (allowed_iff_of_not_denied (never inode action required)).mp
                (permitted.actions inode action required), permitted.subtree⟩
          · rintro ⟨complete, below⟩
            exact ⟨sticky, owner, fun inode action required =>
              (allowed_iff_of_not_denied (never inode action required)).mpr
                (complete inode action required), below⟩
        rw [granted, permitted, not_iff_not]
        refine ⟨fun same => .inr (.inr (.inr same)), ?_⟩
        rintro (unowned | foreign | refused | same)
        · exact absurd sticky unowned
        · exact absurd owner foreign
        · exact absurd refused denied
        · exact same
    · refine iff_of_true (iff_of_false ?_ ?_) (.inr (.inl owner))
      · exact fun granted => owner granted.2.1
      · exact fun permitted => owner permitted.owner
  · refine iff_of_true (iff_of_false ?_ ?_) (.inl sticky)
    · exact fun granted => sticky granted.1
    · exact fun permitted => sticky permitted.stickyBit

/-- Every action has a type, unless it is the empty one. -/
theorem access2ActionListMapper_ne_nil {action : FsAction} (given : action ≠ .none) :
    access2ActionListMapper action ≠ [] := by
  cases action with
  | none => exact absurd rfl given
  | _ => exact List.cons_ne_nil _ _

/-- Calls are settled when the plugin always answers, no action is empty, and the same action
is required of the inode and of what is below it. -/
theorem settled_of_answered
    (answers : ∀ inode accessType, enforcer.answer plugin check inode accessType ≠ none)
    (given : ∀ inode action, Requires check inode action → action ≠ .none)
    (same : ∀ dir action, RequiresBelow check dir action →
      check.access = some action ∧ action ≠ .none) :
    enforcer.Settled plugin check := by
  have heard : ∀ inode action, action ≠ .none → ¬ enforcer.Silent plugin check inode action := by
    intro inode action given silent
    obtain ⟨accessType, listed⟩ :=
      List.exists_mem_of_ne_nil _ (access2ActionListMapper_ne_nil given)
    exact answers inode accessType (silent accessType listed)
  have complete : ∀ inode action, ¬ enforcer.Incomplete plugin check inode action := by
    rintro inode action ⟨accessType, _, unanswered⟩
    exact answers inode accessType unanswered
  refine .inr (.inr (.inr ⟨?_, ?_⟩))
  · rintro (⟨inode, action, required, silent⟩ | ⟨dir, action, required, hindered⟩)
    · exact absurd silent (heard inode action (given inode action required))
    · obtain ⟨own, nonempty⟩ := same dir action required
      have asked : actionBelow check = action := by
        unfold actionBelow
        rw [own]
        rfl
      rw [asked] at hindered
      rcases hindered with silent | denied
      · exact absurd silent (heard dir action nonempty)
      · exact .inr ⟨dir, action, required, not_allowed_of_denied denied⟩
  · rintro (⟨inode, action, _, incomplete⟩ | ⟨dir, action, required, refused⟩)
    · exact absurd incomplete (complete inode action)
    · obtain ⟨own, nonempty⟩ := same dir action required
      refine .inr ⟨dir, action, required, .inr ?_⟩
      have asked : actionBelow check = action := by
        unfold actionBelow
        rw [own]
        rfl
      rw [asked]
      by_contra never
      exact refused ((allowed_iff_of_not_denied never).mpr (complete dir action))

end Decisions

section Deletion

/-- A plugin that allows everything, and no fallback. -/
def permissive : RangerAccessControlEnforcer where
  plugin := some fun _ => some { isAllowed := true }

/-- A directory with one file. -/
def filledDirectory : INode :=
  .directory "/a" { userName := some "u" } none [.file "/a/f" { userName := some "u" }]

/-- A directory is deleted: writing to its parent, and everything on what is below. -/
def deletion : PermissionCheck where
  ugi := some { shortUserName := "u", groupNames := [] }
  inodeAttrs := [none, none]
  inodes := [some (.directory "" { userName := none } none [filledDirectory]), some filledDirectory]
  path := "/a"
  ancestorIndex := 0
  parentAccess := some .write
  subAccess := some .all
  ignoreEmptyDir := true

/-- A check of the access to an inode alone. -/
def reading : PermissionCheck where
  ugi := some { shortUserName := "u", groupNames := [] }
  inodeAttrs := [none]
  inodes := [some filledDirectory]
  path := "/a"
  ancestorIndex := 0
  access := some .readExecute

theorem reading_follows_iff :
    (permissive.checkPermission reading = .ok () ↔
      permissive.Permitted (fun _ => some { isAllowed := true }) reading) ↔
      permissive.Settled (fun _ => some { isAllowed := true }) reading :=
  checkPermission_follows_iff rfl rfl rfl

/-- **Below the inode.** Everything is allowed, and the deletion is refused. -/
theorem deletion_is_refused :
    permissive.checkPermission deletion ≠ .ok () ∧
      permissive.Permitted (fun _ => some { isAllowed := true }) deletion := by
  constructor
  · rw [Ne, checkPermission_eq_ok_iff rfl, accessGranted_iff rfl rfl]
    rintro ⟨_, _, _, below⟩
    have required : RequiresBelow deletion filledDirectory .all :=
      ⟨rfl, ⟨filledDirectory, rfl, rfl, .refl⟩, fun impossible => nomatch impossible⟩
    exact (below filledDirectory .all required).1 fun _ impossible => nomatch impossible
  · refine ⟨?_, ?_, fun _ _ _ _ _ => rfl, fun _ _ _ _ _ => rfl⟩
    · rintro _ _ _ _ _ _ ⟨⟩ _ ⟨⟩ _
    · exact fun impossible => nomatch impossible

end Deletion

end RangerAccessControlEnforcer

end Ranger

import Ranger.Agents.HdfsAudit
import Ranger.PolicyEngine.OneElement

/-! # What an HDFS audit event says

The handler knows what the plugin has answered so far. At the end of a call the event tells
what became of it, unless the call was refused without an answer.
-/

namespace Ranger

open Foundation RangerAccessControlEnforcer RangerHadoopConstants

abbrev HdfsHistory := Program.History HdfsQuestion.Answer

abbrev HdfsEvent := (question : HdfsQuestion) × question.Answer

namespace HdfsHistory

/-- The request of a question that the plugin answered, with its answer. -/
def toldBy : HdfsEvent → Option (RangerHdfsAccessRequest × RangerServiceAccessResult)
  | ⟨.isAccessAllowed request, answer⟩ => answer.map fun result => (request, result)
  | ⟨.checkPermission _, _⟩ => none

variable (past : HdfsHistory)

/-- What the plugin has answered, in its order. -/
def told : List (RangerHdfsAccessRequest × RangerServiceAccessResult) := past.filterMap toldBy

variable {past} in
theorem mem_of_mem_told {answer : RangerHdfsAccessRequest × RangerServiceAccessResult}
    (listed : answer ∈ past.told) :
    (⟨.isAccessAllowed answer.1, some answer.2⟩ : HdfsEvent) ∈ past := by
  obtain ⟨⟨question, reply⟩, member, same⟩ := List.mem_filterMap.mp listed
  cases question with
  | checkPermission check => cases same
  | isAccessAllowed request =>
      obtain ⟨result, rfl, rfl⟩ := Option.map_eq_some_iff.mp same
      exact member

/-- The handler that has heard what was answered. -/
def heard (settings : RangerHdfsAuditSettings) (path : String) : RangerHdfsAuditHandler :=
  past.told.foldl (fun handler answer => handler.processResult settings answer.1 answer.2)
    (RangerHdfsAuditHandler.create path)

/-- A question to the plugin went without an answer. -/
def Unanswered : Prop :=
  ∃ request, (⟨.isAccessAllowed request, none⟩ : HdfsEvent) ∈ past

/-- Hadoop was asked, and decided. -/
def Decided (outcome : Except AccessControlException Unit) : Prop :=
  ∃ check, (⟨.checkPermission check, outcome⟩ : HdfsEvent) ∈ past

end HdfsHistory

open HdfsHistory

namespace RangerHdfsAuthorizer

/-- The questions of an enforcer: the plugin is asked about files. -/
def AboutFiles : HdfsQuestion → Prop
  | .isAccessAllowed request => request.toRangerAccessRequest.OneElement "path"
  | .checkPermission _ => True

/-- Some action that is asked for has no access types: none at all, or none given for the
directories below the inode. -/
def Typeless (check : PermissionCheck) : Prop :=
  check.ancestorAccess = some .none ∨ check.parentAccess = some .none ∨
    check.access = some .none ∨ (check.subAccess.isSome ∧ check.access = none)

/-- Why a check may fail though everything that was answered is allowed. -/
def Misses (check : PermissionCheck) (past : HdfsHistory) : Prop :=
  (past.told = [] ∧ ¬StickyBit check) ∨ ¬Owner check ∨ past.Unanswered ∨ Typeless check

/-- A call needs an action on a node of its path, or on a directory below the last one. -/
inductive Needs (check : PermissionCheck) (inode : INode) : FsAction → Prop where
  | onPath {action : FsAction} (required : Requires check inode action) : Needs check inode action
  | below {action : FsAction} (required : RequiresBelow check inode action) :
      Needs check inode (actionBelow check)

/-- What the plugin is asked about an access type on the path of an inode. -/
def requestOf (authorizer : RangerHdfsAuthorizer) (check : PermissionCheck) (inode : INode)
    (accessType : String) : RangerAccessRequest :=
  (RangerHdfsAccessRequest.create (pathOf inode) none none accessType (userOf check)
    (groupsOf check) authorizer.remoteIp).toRangerAccessRequest

/-- A request that a call makes: of its user, about an access type of an action it needs. -/
structure MadeBy (authorizer : RangerHdfsAuthorizer) (check : PermissionCheck)
    (request : RangerHdfsAccessRequest) : Prop where
  user : request.user = userOf check
  action : isEmptyValue request.action = false
  file : request.toRangerAccessRequest.OneElement "path"
  needed : ∃ inode action, Needs check inode action ∧ ∃ accessType ∈ access2ActionListMapper action,
    request.toRangerAccessRequest = authorizer.requestOf check inode accessType

/-- What the checks have heard once they have passed, or one has failed. -/
structure Trail (authorizer : RangerHdfsAuthorizer) (check : PermissionCheck)
    (past : HdfsHistory) (granted : Bool) : Prop where
  asked : ∀ answer ∈ past.told, authorizer.MadeBy check answer.1
  only : ∀ outcome, ¬past.Decided outcome
  passed : granted = true → ∀ answer ∈ past.told, answer.2.isAllowed = true
  failed : granted = false →
    (∃ answer ∈ past.told.getLast?, answer.2.isAllowed = false) ∨
      ((∀ answer ∈ past.told, answer.2.isAllowed = true) ∧ Misses check past)

section Trail

variable {authorizer : RangerHdfsAuthorizer} {check : PermissionCheck} {past : HdfsHistory}
  {request : RangerHdfsAccessRequest}

theorem told_none : told (past ++ [⟨.isAccessAllowed request, none⟩]) = past.told := by
  rw [told, List.filterMap_append]
  exact List.append_nil _

theorem told_some (result : RangerServiceAccessResult) :
    told (past ++ [⟨.isAccessAllowed request, some result⟩]) = past.told ++ [(request, result)] :=
  List.filterMap_append

theorem not_decided_snoc {answer : Option RangerServiceAccessResult}
    (only : ∀ outcome, ¬past.Decided outcome) (outcome : Except AccessControlException Unit) :
    ¬Decided (past ++ [⟨.isAccessAllowed request, answer⟩]) outcome := by
  rintro ⟨other, listed⟩
  rcases List.mem_append.mp listed with before | last
  · exact only outcome ⟨other, before⟩
  · cases List.mem_singleton.mp last

theorem Trail.unanswered (trail : authorizer.Trail check past true) :
    authorizer.Trail check (past ++ [⟨.isAccessAllowed request, none⟩]) true where
  asked := by
    rw [told_none]
    exact trail.asked
  only := not_decided_snoc trail.only
  passed := by
    rw [told_none]
    exact trail.passed
  failed := fun impossible => by cases impossible

theorem Trail.answered (trail : authorizer.Trail check past true)
    (result : RangerServiceAccessResult) (made : authorizer.MadeBy check request) :
    authorizer.Trail check (past ++ [⟨.isAccessAllowed request, some result⟩])
      result.isAllowed where
  asked := by
    intro answer listed
    rw [told_some] at listed
    rcases List.mem_append.mp listed with before | last
    · exact trail.asked answer before
    · obtain rfl := List.mem_singleton.mp last
      exact made
  only := not_decided_snoc trail.only
  passed := by
    intro allowed answer listed
    rw [told_some] at listed
    rcases List.mem_append.mp listed with before | last
    · exact trail.passed rfl answer before
    · obtain rfl := List.mem_singleton.mp last
      exact allowed
  failed := by
    intro denied
    refine .inl ⟨(request, result), ?_, denied⟩
    rw [told_some, List.getLast?_concat]
    rfl

theorem trail_nil : authorizer.Trail check [] true where
  asked := fun _ listed => by cases listed
  only := by
    rintro _ ⟨_, listed⟩
    cases listed
  passed := fun _ _ listed => by cases listed
  failed := fun impossible => by cases impossible

/-- A check without a question of its own. -/
theorem Trail.conclude (trail : authorizer.Trail check past true) {granted : Bool}
    (misses : granted = false → Misses check past) : authorizer.Trail check past granted where
  asked := trail.asked
  only := trail.only
  passed := fun _ => trail.passed rfl
  failed := fun failed => .inr ⟨trail.passed rfl, misses failed⟩

/-- The handler hears what the plugin answers. -/
theorem records_pluginIsAccessAllowed {post : HdfsHistory → Option RangerServiceAccessResult → Prop}
    {path : String} (asked : request.toRangerAccessRequest.OneElement "path")
    (told : ∀ answer, post (past ++ [⟨.isAccessAllowed request, answer⟩]) answer) :
    Keeping.Records AboutFiles (fun now => heard now authorizer.settings path) past
      (authorizer.pluginIsAccessAllowed request) post := by
  refine Keeping.records_hear asked (fun answer => ?_) told
  unfold heard
  cases answer with
  | none => rw [told_none]
  | some result => rw [told_some, List.foldl_append]; rfl

variable (authorizer check) (path : String)

/-- A check keeps the trail. -/
def Keeps (work : AuditedCheck) : Prop :=
  ∀ past, authorizer.Trail check past true →
    Keeping.Records AboutFiles (fun now => heard now authorizer.settings path) past work
      (authorizer.Trail check)

variable {authorizer check path}

theorem records_allowTypes {request : String → RangerHdfsAccessRequest}
    {ret : Bool} {accessTypes : List String}
    (made : ∀ accessType ∈ accessTypes, authorizer.MadeBy check (request accessType))
    (trail : authorizer.Trail check past true)
    (misses : ret = false → accessTypes = [] → Misses check past) :
    Keeping.Records AboutFiles (fun now => heard now authorizer.settings path) past
      (authorizer.allowTypes request ret accessTypes) (authorizer.Trail check) := by
  induction accessTypes generalizing ret past with
  | nil => exact Keeping.records_pure (trail.conclude fun failed => misses failed rfl)
  | cons accessType rest ih =>
      have heard : Keeping.Records AboutFiles (fun now => heard now authorizer.settings path) past
          (authorizer.pluginIsAccessAllowed (request accessType)) fun now answer =>
            now = past ++ [⟨.isAccessAllowed (request accessType), answer⟩] :=
        records_pluginIsAccessAllowed (made accessType List.mem_cons_self).file fun _ => rfl
      refine Keeping.records_bind heard fun now answer _ same => ?_
      subst same
      cases answer with
      | none =>
          refine ih (fun other listed => made other (List.mem_cons_of_mem _ listed))
            trail.unanswered fun _ _ => .inr (.inr (.inl ⟨request accessType, ?_⟩))
          exact List.mem_append_right _ List.mem_cons_self
      | some result =>
          have told := trail.answered result (made accessType List.mem_cons_self)
          dsimp only
          cases allowed : result.isAllowed with
          | true =>
              rw [allowed] at told
              exact ih (fun other listed => made other (List.mem_cons_of_mem _ listed)) told
                fun impossible => by cases impossible
          | false =>
              rw [allowed] at told
              exact Keeping.records_pure told

theorem isEmptyValue_name (action : FsAction) : isEmptyValue (some action.name) = false := by
  cases action <;> rfl

theorem accessTypes_eq_nil_iff (action : FsAction) :
    authorizer.accessTypes action = [] ↔ action = .none := by
  rw [← List.length_eq_zero_iff, (authorizer.listed action).length_eq]
  cases action <;> simp [access2ActionListMapper]

theorem pathOf_ne_empty (inode : INode) : pathOf inode ≠ "" := by
  unfold pathOf
  split
  · decide
  · rename_i named
    simpa [HDFS_ROOT_FOLDER_PATH_ALT] using named

theorem keeps_pure {granted : Bool} (misses : granted = false → ∀ past, Misses check past) :
    Keeps authorizer check path (pure granted) :=
  fun past trail => Keeping.records_pure (trail.conclude fun failed => misses failed past)

/-- A request about an access type is about the path of its inode. -/
theorem oneElement_create {inode : INode} {pathOwner : Option String} {access : Option FsAction}
    {accessType : String} (listed : accessType ∈ authorizer.accessTypes (access.getD .none)) :
    (RangerHdfsAccessRequest.create (pathOf inode) pathOwner access accessType (userOf check)
      (groupsOf check) authorizer.remoteIp).toRangerAccessRequest.OneElement "path" := by
  refine ⟨?_, pathOf inode, pathOf_ne_empty inode, rfl⟩
  have known := (authorizer.listed _).mem_iff.mp listed
  change RangerAccessRequest.setAccessType accessType ≠ ANY_ACCESS
  have types : ∀ action, ∀ type ∈ access2ActionListMapper action,
      RangerAccessRequest.setAccessType type ≠ ANY_ACCESS := by
    intro action
    cases action <;> decide
  exact types _ accessType known

theorem madeBy_create {inode : INode} {pathOwner : Option String} {action : FsAction}
    {accessType : String} (needs : Needs check inode action)
    (listed : accessType ∈ authorizer.accessTypes action) :
    authorizer.MadeBy check (RangerHdfsAccessRequest.create (pathOf inode) pathOwner (some action)
      accessType (userOf check) (groupsOf check) authorizer.remoteIp) where
  user := rfl
  action := isEmptyValue_name action
  file := oneElement_create listed
  needed := ⟨inode, action, needs, accessType, (authorizer.listed action).mem_iff.mp listed, rfl⟩

theorem keeps_isAccessAllowed (inode : INode) (inodeAttribs : Option INodeAttributes)
    (access : Option FsAction) (needs : ∀ action ∈ access, Needs check inode action)
    (typeless : access.getD .none = .none → Typeless check) :
    Keeps authorizer check path (authorizer.isAccessAllowed check inode inodeAttribs access) := by
  intro past trail
  refine records_allowTypes (fun accessType listed => ?_) trail fun _ none => ?_
  · cases access with
    | none =>
        rw [Option.getD_none, (accessTypes_eq_nil_iff _).mpr rfl] at listed
        cases listed
    | some action => exact madeBy_create (needs action rfl) listed
  · exact .inr (.inr (.inr (typeless ((accessTypes_eq_nil_iff _).mp none))))

/-- What is needed of a node of the path. -/
theorem keeps_onPath {inode : INode} {inodeAttribs : Option INodeAttributes} {action : FsAction}
    (required : Requires check inode action) (typeless : action = .none → Typeless check) :
    Keeps authorizer check path
      (authorizer.isAccessAllowed check inode inodeAttribs (some action)) := by
  refine keeps_isAccessAllowed _ _ _ (fun other same => ?_) typeless
  rw [← Option.some.inj same]
  exact .onPath required

/-- What is needed of a directory that the walk reaches. -/
theorem keeps_checkDirectory {required : FsAction} (below : check.subAccess = some required)
    {inode dir : INode} (last : inodeOf check = some inode) (directory : inode.isDirectory = true)
    (reached : INode.descent.Below inode dir) :
    Keeps authorizer check path (authorizer.checkDirectory check dir) := by
  unfold RangerHdfsAuthorizer.checkDirectory
  split
  · exact keeps_pure fun impossible => by cases impossible
  · rename_i filled
    refine keeps_isAccessAllowed _ _ _ (fun action given => ?_) fun none => ?_
    · have needed : Needs check dir (actionBelow check) := by
        refine .below ⟨below, ⟨inode, last, directory, reached⟩, fun empty => ?_⟩
        rw [empty, List.isEmpty_nil, Bool.true_and] at filled
        exact Bool.not_eq_true _ ▸ filled
      rwa [actionBelow, given] at needed
    · cases access : check.access with
      | none => exact .inr (.inr (.inr ⟨by rw [below]; rfl, access⟩))
      | some action =>
          rw [access] at none
          exact .inr (.inr (.inl (by rw [access]; exact congrArg some none)))

theorem keeps_andThen {first second : AuditedCheck} (one : Keeps authorizer check path first)
    (two : Keeps authorizer check path second) :
    Keeps authorizer check path (Keeping.andThen first second) :=
  fun past trail => Keeping.records_andThen (one past trail) (fun now _ => two now)
    fun _ failed => failed

theorem records_accessGranted :
    Keeping.Records AboutFiles (fun now => heard now authorizer.settings path) []
      (authorizer.accessGranted check) (authorizer.Trail check) := by
  have owner : checkOwnerAccess check = false → ∀ past, Misses check past := by
    intro failed past
    refine .inr (.inl fun owner => ?_)
    rw [checkOwnerAccess_iff.mpr owner] at failed
    cases failed
  have passes : Keeps authorizer check path (pure true) :=
    keeps_pure fun impossible => by cases impossible
  -- nothing has been asked when the sticky bit is looked at
  have sticky : checkStickyBit check = false → Misses check [] := by
    intro failed
    refine .inl ⟨rfl, fun sticky => ?_⟩
    rw [checkStickyBit_iff.mpr sticky] at failed
    cases failed
  refine Keeping.records_andThen (Keeping.records_pure (trail_nil.conclude sticky))
    (fun now _ sticky => ?_) fun _ failed => failed
  refine (?_ : Keeps authorizer check path _) now sticky
  refine keeps_andThen ?ancestor <| keeps_andThen ?parent <| keeps_andThen ?inode <|
    keeps_andThen ?below (keeps_pure owner)
  case ancestor =>
    unfold RangerHdfsAuthorizer.checkAncestorAccess
    split
    · rename_i required found
      refine keeps_onPath (.ancestor required ((ancestorOf_eq_some_iff _).mp found)) fun none => ?_
      exact .inl (required.trans (congrArg some none))
    · exact passes
  case parent =>
    unfold RangerHdfsAuthorizer.checkParentAccess
    split
    · rename_i required found
      exact keeps_onPath (.parent required found) fun none =>
        .inr (.inl (required.trans (congrArg some none)))
    · exact passes
  case inode =>
    unfold RangerHdfsAuthorizer.checkINodeAccess
    split
    · rename_i required found
      exact keeps_onPath (.inode required found) fun none =>
        .inr (.inr (.inl (required.trans (congrArg some none))))
    · exact passes
  case below =>
    unfold RangerHdfsAuthorizer.checkSubAccess
    split
    · rename_i inode required found
      split
      · rename_i directory
        intro past trail
        refine Keeping.records_walkM (fun _ reached _ follower => reached.tail follower)
          (fun now dir reached passed =>
            keeps_checkDirectory required found directory reached now passed) _ ?_ trail
        intro node listed
        rw [List.mem_singleton.mp listed]
        exact .refl
      · exact passes
    · exact passes

end Trail

section Event

variable (authorizer : RangerHdfsAuthorizer) (check : PermissionCheck)

/-- What is logged of a call with an outcome, by what was answered during it, and why the
call was refused. -/
structure Audits (past : HdfsHistory) (outcome : Except AccessControlException Unit)
    (logged : Option HdfsAuditEvent) : Prop where
  asked : ∀ answer ∈ past.told, authorizer.MadeBy check answer.1
  logs : logged.isSome = true ↔ (∃ answer ∈ past.told, answer.2.isAudited = true) ∧
    ∀ user ∈ userOf check, user ∉ authorizer.settings.excludeUsers
  names : ∀ event ∈ logged, event.user = userOf check ∧ event.resourcePath = some check.path
  byHadoop : ∀ event ∈ logged, ∀ decided, past.Decided decided → decided = outcome ∧
    event.aclEnforcer = some authorizer.settings.HadoopModuleName ∧ event.policyId = -1 ∧
    event.accessResult = if outcome.isOk then 1 else 0
  byRanger : ∀ event ∈ logged, (∀ decided, ¬past.Decided decided) →
    ∃ answer ∈ past.told.getLast?,
      event.aclEnforcer = some authorizer.settings.RangerModuleName ∧
      event.policyId = answer.2.policyId ∧ event.user = answer.1.user ∧
      event.accessType = answer.1.action ∧
      event.resultReason = answer.1.resource.getAsString answer.2.serviceDef ∧
      event.accessResult = (if answer.2.isAllowed then 1 else 0) ∧
      (outcome.isOk = true → answer.2.isAllowed = true) ∧
      (answer.2.isAllowed = true → outcome.isOk = false →
        ¬Owner check ∨ past.Unanswered ∨ Typeless check)
  refused : outcome.isOk = false → (∀ decided, ¬past.Decided decided) →
    (authorizer.rangerPlugin && applies check) = true →
    (∃ answer ∈ past.told.getLast?, answer.2.isAllowed = false) ∨ Misses check past

variable {authorizer check}

/-- The event as the last answer leaves it. -/
def eventOf (settings : RangerHdfsAuditSettings) (path : String)
    (answer : RangerHdfsAccessRequest × RangerServiceAccessResult) : HdfsAuditEvent :=
  ((RangerHdfsAuditHandler.create path).processResult settings answer.1 answer.2).auditEvent

/-- Every answer overwrites the event, and none takes the audit back. -/
theorem heard_eq (past : HdfsHistory) (settings : RangerHdfsAuditSettings) (path : String) :
    heard past settings path =
      { isAuditEnabled := past.told.any (·.2.isAudited)
        auditEvent := (past.told.getLast?.map (eventOf settings path)).getD
          (RangerHdfsAuditHandler.create path).auditEvent } := by
  unfold heard
  induction past.told using List.reverseRecOn with
  | nil => rfl
  | append_singleton answers answer ih =>
      rw [List.foldl_append, List.foldl_cons, List.foldl_nil, ih, List.any_append,
        List.getLast?_concat]
      simp only [RangerHdfsAuditHandler.processResult, List.any_cons, List.any_nil, Bool.or_false,
        Option.map_some, Option.getD_some, eventOf]
      cases answers.getLast? <;> rfl

theorem flushAudit_eq_none {handler : RangerHdfsAuditHandler} (settings : RangerHdfsAuditSettings)
    (disabled : handler.isAuditEnabled = false) : handler.flushAudit settings = none := by
  unfold RangerHdfsAuditHandler.flushAudit
  rw [disabled]
  rfl

/-- An event of some access type is logged when its audit is enabled and its user is not
excluded. -/
theorem flushAudit_eq_some_iff {handler : RangerHdfsAuditHandler}
    {settings : RangerHdfsAuditSettings} {event : HdfsAuditEvent}
    (type : isEmptyValue handler.auditEvent.accessType = false) :
    handler.flushAudit settings = some event ↔
      handler.isAuditEnabled = true ∧
        (∀ user ∈ handler.auditEvent.user, user ∉ settings.excludeUsers) ∧
        event = RangerDefaultAuditHandler.logAuthzAudit handler.auditEvent := by
  unfold RangerHdfsAuditHandler.flushAudit
  rw [type]
  cases handler.isAuditEnabled with
  | false => simp
  | true =>
      cases handler.auditEvent.user with
      | none => simp [eq_comm]
      | some user => by_cases excluded : user ∈ settings.excludeUsers <;> simp [excluded, eq_comm]

/-- The event of a handler that has heard answers about the user. -/
structure Heard (authorizer : RangerHdfsAuthorizer) (check : PermissionCheck)
    (past : HdfsHistory) (handler : RangerHdfsAuditHandler) : Prop where
  enabled : handler.isAuditEnabled = past.told.any (·.2.isAudited)
  path : handler.auditEvent.resourcePath = some check.path
  fields : past.told ≠ [] →
    handler.auditEvent.user = userOf check ∧ isEmptyValue handler.auditEvent.accessType = false

section Heard

variable {past : HdfsHistory} {handler : RangerHdfsAuditHandler}

theorem Heard.logs (hears : Heard authorizer check past handler) :
    (handler.flushAudit authorizer.settings).isSome = true ↔
      (∃ answer ∈ past.told, answer.2.isAudited = true) ∧
        ∀ user ∈ userOf check, user ∉ authorizer.settings.excludeUsers := by
  rw [← List.any_eq_true, ← hears.enabled]
  cases enabled : handler.isAuditEnabled with
  | false => simp [flushAudit_eq_none authorizer.settings enabled]
  | true =>
      have some : past.told ≠ [] := by
        intro none
        rw [hears.enabled, none] at enabled
        cases enabled
      obtain ⟨user, type⟩ := hears.fields some
      simp only [Option.isSome_iff_exists, flushAudit_eq_some_iff type, enabled, user, true_and,
        exists_and_left, exists_eq, and_true]

theorem Heard.event (hears : Heard authorizer check past handler) {event : HdfsAuditEvent}
    (logged : handler.flushAudit authorizer.settings = some event) :
    past.told ≠ [] ∧ handler.auditEvent.user = userOf check ∧
      event = RangerDefaultAuditHandler.logAuthzAudit handler.auditEvent := by
  have some : past.told ≠ [] := by
    intro none
    have disabled := hears.enabled
    rw [none] at disabled
    rw [flushAudit_eq_none _ disabled] at logged
    cases logged
  obtain ⟨user, type⟩ := hears.fields some
  exact ⟨some, user, ((flushAudit_eq_some_iff type).mp logged).2.2⟩

theorem Trail.heard {granted : Bool} (trail : authorizer.Trail check past granted) :
    Heard authorizer check past (heard past authorizer.settings check.path) where
  enabled := by rw [heard_eq]
  path := by
    rw [heard_eq]
    cases past.told.getLast? <;> rfl
  fields := by
    intro some
    rw [heard_eq, List.getLast?_eq_some_getLast some]
    have made := trail.asked _ (List.getLast_mem some)
    exact ⟨made.user, made.action⟩

@[simp] theorem logAuthzAudit_fields (event : HdfsAuditEvent) :
    (RangerDefaultAuditHandler.logAuthzAudit event).user = event.user ∧
      (RangerDefaultAuditHandler.logAuthzAudit event).resourcePath = event.resourcePath ∧
      (RangerDefaultAuditHandler.logAuthzAudit event).aclEnforcer = event.aclEnforcer ∧
      (RangerDefaultAuditHandler.logAuthzAudit event).policyId = event.policyId ∧
      (RangerDefaultAuditHandler.logAuthzAudit event).accessType = event.accessType ∧
      (RangerDefaultAuditHandler.logAuthzAudit event).resultReason = event.resultReason ∧
      (RangerDefaultAuditHandler.logAuthzAudit event).accessResult = event.accessResult := by
  unfold RangerDefaultAuditHandler.logAuthzAudit
  split <;> simp

/-- What is logged when Ranger has decided. -/
theorem Trail.audits {granted : Bool} (trail : authorizer.Trail check past granted)
    {outcome : Except AccessControlException Unit} (same : outcome.isOk = granted) :
    Audits authorizer check past outcome
      ((past.heard authorizer.settings check.path).flushAudit authorizer.settings) := by
  have hears : Heard authorizer check past _ := trail.heard
  refine ⟨trail.asked, hears.logs, fun event logged => ?_, fun _ _ _ decided => ?_,
    fun event logged _ => ?_,
    fun refused _ _ => (trail.failed (same ▸ refused)).imp id And.right⟩
  · obtain ⟨_, user, rfl⟩ := hears.event logged
    exact ⟨(logAuthzAudit_fields _).1.trans user, (logAuthzAudit_fields _).2.1.trans hears.path⟩
  · exact absurd decided (trail.only _)
  · obtain ⟨some, _, rfl⟩ := hears.event logged
    have last := List.getLast?_eq_some_getLast some
    refine ⟨_, last, ?_⟩
    simp only [heard_eq, last, Option.map_some, Option.getD_some, logAuthzAudit_fields, eventOf,
      RangerHdfsAuditHandler.processResult, true_and]
    rw [same]
    refine ⟨fun passed => trail.passed passed _ (List.getLast_mem some), fun allowed failed => ?_⟩
    rcases trail.failed failed with ⟨answer, final, denied⟩ | ⟨_, none | rest⟩
    · rw [last] at final
      rw [← Option.some.inj final, allowed] at denied
      cases denied
    · exact absurd none.1 some
    · exact rest

/-- What is logged when Hadoop has decided. -/
theorem Trail.audits_fallback (trail : authorizer.Trail check past false) (handed : PermissionCheck)
    (action : FsAction) (outcome : Except AccessControlException Unit) :
    Audits authorizer check (past ++ [⟨.checkPermission handed, outcome⟩]) outcome
      (((past.heard authorizer.settings check.path).logHadoopEvent authorizer.settings check.path
        action outcome.isOk).flushAudit authorizer.settings) := by
  have same : told (past ++ [⟨.checkPermission handed, outcome⟩]) = past.told := by
    rw [told, List.filterMap_append]
    exact List.append_nil _
  have heard : Heard authorizer check past _ := trail.heard
  have hears : Heard authorizer check (past ++ [⟨.checkPermission handed, outcome⟩])
      ((past.heard authorizer.settings check.path).logHadoopEvent authorizer.settings check.path
        action outcome.isOk) := by
    refine ⟨?_, heard.path, fun some => ⟨?_, isEmptyValue_name action⟩⟩
    · rw [same]
      exact heard.enabled
    · rw [same] at some
      exact (heard.fields some).1
  have told : ∃ decided, Decided (past ++ [⟨.checkPermission handed, outcome⟩]) decided :=
    ⟨outcome, handed, List.mem_append_right _ List.mem_cons_self⟩
  refine ⟨same ▸ trail.asked, hears.logs, fun event logged => ?_,
    fun event logged decided asked => ?_, fun _ _ never => absurd told (not_exists.mpr never),
    fun _ never => absurd told (not_exists.mpr never)⟩
  · obtain ⟨_, user, rfl⟩ := hears.event logged
    exact ⟨(logAuthzAudit_fields _).1.trans user, (logAuthzAudit_fields _).2.1.trans hears.path⟩
  · obtain ⟨_, _, rfl⟩ := hears.event logged
    obtain ⟨other, listed⟩ := asked
    refine ⟨?_, by simp [RangerHdfsAuditHandler.logHadoopEvent]⟩
    rcases List.mem_append.mp listed with before | last
    · exact absurd ⟨other, before⟩ (trail.only decided)
    · cases List.mem_singleton.mp last
      rfl

theorem audits_unheard (outcome : Except AccessControlException Unit)
    (silent : past.told = []) (absent : ¬(authorizer.rangerPlugin && applies check) = true) :
    Audits authorizer check past outcome none where
  asked := by
    rw [silent]
    exact fun _ listed => by cases listed
  logs := by simp [silent]
  names := fun _ logged => by cases logged
  byHadoop := fun _ logged => by cases logged
  byRanger := fun _ logged => by cases logged
  refused := fun _ _ applied => absurd applied absent

theorem Trail.conclude_audits {granted : Bool} (trail : authorizer.Trail check past granted) :
    (authorizer.conclude check granted (past.heard authorizer.settings check.path)).Meets
      (fun _ => AboutFiles) (fun past result => Audits authorizer check past result.1 result.2)
      past := by
  unfold RangerHdfsAuthorizer.conclude
  cases granted with
  | true => exact trail.audits rfl
  | false =>
      rw [if_neg Bool.false_ne_true]
      split
      · exact ⟨trivial, fun outcome => trail.audits_fallback _ _ outcome⟩
      · exact trail.audits rfl

/-- Whatever a call is told, it asks about files, and its event is that of what it was told. -/
theorem checkPermission_audits (authorizer : RangerHdfsAuthorizer) (check : PermissionCheck) :
    (authorizer.checkPermission check).Meets (fun _ => AboutFiles)
      (fun past result => Audits authorizer check past result.1 result.2) [] := by
  have records : Keeping.Records AboutFiles (fun now => heard now authorizer.settings check.path) []
      (authorizer.accessGranted check) (authorizer.Trail check) := records_accessGranted
  unfold RangerHdfsAuthorizer.checkPermission
  split
  · refine Program.meets_bind records fun past result _ done => ?_
    obtain ⟨granted, handler⟩ := result
    obtain ⟨same, trail⟩ := done
    change handler = _ at same
    subst same
    exact trail.conclude_audits
  · rename_i absent
    split
    · exact ⟨trivial, fun outcome => audits_unheard outcome rfl absent⟩
    · exact audits_unheard _ rfl absent

end Heard

section Calls

open Concurrent

variable {σ δ : Type}

/-- **The audit trail of HDFS.** However calls take turns, and whatever the plugin and Hadoop
answer them, a call logs one event when some answer is to be audited and its user is not
excluded. The event tells what became of the call, unless the owner check refused it, or an
action without an answer. -/
theorem calls_audited (authorizer : RangerHdfsAuthorizer)
    (answer : PermissionCheck → (question : HdfsQuestion) → σ → question.Answer × σ)
    (outside : δ → σ → σ) (shared : σ) (turns : List (Turn PermissionCheck δ)) :
    ∀ task ∈ (Run.final (step authorizer.checkPermission answer outside)
      { shared := shared } turns).tasks,
      ∀ outcome logged, task.rest = .done (outcome, logged) →
        Audits authorizer task.owner task.past outcome logged := by
  have safe : (Run.final (step authorizer.checkPermission answer outside)
      { shared := shared } turns).Safe (fun _ => True) (fun _ _ => True)
      (fun _ _ => AboutFiles)
      (fun check past result => Audits authorizer check past result.1 result.2) := by
    refine safe_of_run (fun _ => True) (fun check _ => ⟨trivial, checkPermission_audits _ check⟩)
      (fun _ _ _ _ _ _ _ => ⟨trivial, trivial⟩) (fun _ _ _ _ => trivial)
      ⟨trivial, fun _ _ => trivial, ?_⟩ fun _ _ => trivial
    exact fun _ listed => absurd listed List.not_mem_nil
  intro task listed outcome logged done
  have met := safe.meets task listed
  rw [done] at met
  exact met

end Calls

end Event

section Refused

private def ownedFile : PermissionCheck where
  ugi := some ⟨"alice", ["staff"]⟩
  inodeAttrs := []
  inodes := [some (.file "/data" { userName := some "hdfs" })]
  path := "/data"
  ancestorIndex := 0
  doCheckOwner := true
  access := some .read

private def allowing (_ : PermissionCheck) :
    (question : HdfsQuestion) → Unit → question.Answer × Unit
  | .isAccessAllowed _, _ =>
      (some
        { isAllowed := true
          isAudited := true
          policyId := 7
          serviceName := "cluster"
          serviceDef := { name := "hdfs", resources := [{ name := "path" }], accessTypes := [] } },
        ())
  | .checkPermission _, _ => (.ok (), ())

/-- A call that only its owner may make is refused, and its event tells of an access. -/
theorem owner_refused_audited :
    ∃ past event, Audits {} ownedFile past (.error (permissionDenied ownedFile)) (some event) ∧
      event.accessResult = 1 :=
  ⟨_, _, calls_audited {} allowing (fun (_ : Unit) shared => shared) ()
    [.start ownedFile, .proceed 0] _ List.mem_cons_self _ _ rfl, rfl⟩

end Refused

end RangerHdfsAuthorizer

end Ranger

import Ranger.Agents.HdfsRequirements
import Ranger.Foundation.Interaction
import Mathlib.Data.List.DropRight

/-! # Auditing of HDFS permission checks

A handler takes in what the plugin answers during a call. It keeps a single event, which
the answers overwrite one after another, and logs it at the end of the call. The plugin and
the enforcer of Hadoop are asked as they are when their turn comes.
-/

namespace Ranger

open Foundation RangerAccessControlEnforcer

/-- What the handler writes into an `AuthzAuditEvent`. -/
structure HdfsAuditEvent where
  repositoryType : Int := 0
  repositoryName : Option String := none
  user : Option String := none
  accessType : Option String := none
  resourcePath : Option String := none
  resourceType : Option String := none
  accessResult : Int := 0
  policyId : Int := 0
  resultReason : Option String := none
  aclEnforcer : Option String := none
  clientIP : Option String := none
  logType : Option String := none
  deriving DecidableEq

/-- A result with the service whose policies it is by. -/
structure RangerServiceAccessResult extends RangerAccessResult where
  serviceName : String
  serviceType : Int := -1
  serviceDef : RangerServiceDef

/-- The last resource of the service definition that a resource has. -/
def RangerAccessResource.getLeafName (resource : RangerAccessResource)
    (serviceDef : RangerServiceDef) : Option String :=
  (serviceDef.resources.reverse.find? fun resourceDef => resource.exists resourceDef.name).map
    (·.name)

def RangerDefaultAuditHandler.logAuthzAudit (auditEvent : HdfsAuditEvent) : HdfsAuditEvent :=
  if isEmptyValue auditEvent.logType then { auditEvent with logType := some "RangerAudit" }
  else auditEvent

/-- The settings of the audit handler. -/
structure RangerHdfsAuditSettings where
  RangerModuleName : String := "xasecure-acl"
  HadoopModuleName : String := "hadoop-acl"
  excludeUserList : String := ""

/-- The users whose calls are not logged. -/
def RangerHdfsAuditSettings.excludeUsers (settings : RangerHdfsAuditSettings) : List String :=
  if (trim settings.excludeUserList).isEmpty then []
  else (((trim settings.excludeUserList).toList.splitOn ',').rdropWhile List.isEmpty).map
    fun excludeUser => trim (String.ofList excludeUser)

structure RangerHdfsAuditHandler where
  isAuditEnabled : Bool := false
  auditEvent : HdfsAuditEvent

namespace RangerHdfsAuditHandler

def create (pathToBeValidated : String) : RangerHdfsAuditHandler where
  auditEvent := { resourcePath := some pathToBeValidated }

variable (settings : RangerHdfsAuditSettings) (handler : RangerHdfsAuditHandler)

def processResult (request : RangerHdfsAccessRequest) (result : RangerServiceAccessResult) :
    RangerHdfsAuditHandler where
  isAuditEnabled := handler.isAuditEnabled || result.isAudited
  auditEvent :=
    { handler.auditEvent with
      user := request.user
      resourceType := request.resource.getLeafName result.serviceDef
      accessType := request.action
      accessResult := if result.isAllowed then 1 else 0
      clientIP := request.clientIPAddress
      aclEnforcer := some settings.RangerModuleName
      policyId := result.policyId
      repositoryType := result.serviceType
      repositoryName := some result.serviceName
      resultReason := request.resource.getAsString result.serviceDef }

def logHadoopEvent (path : String) (action : FsAction) (accessGranted : Bool) :
    RangerHdfsAuditHandler :=
  { handler with
    auditEvent :=
      { handler.auditEvent with
        resultReason := some path
        accessResult := if accessGranted then 1 else 0
        accessType := some action.name
        aclEnforcer := some settings.HadoopModuleName
        policyId := -1 } }

/-- The event that is logged, if any. -/
def flushAudit : Option HdfsAuditEvent :=
  if handler.isAuditEnabled && !isEmptyValue handler.auditEvent.accessType then
    if handler.auditEvent.user.any (settings.excludeUsers.contains ·) then none
    else some (RangerDefaultAuditHandler.logAuthzAudit handler.auditEvent)
  else none

end RangerHdfsAuditHandler

/-- What an enforcer asks the plugin and the enforcer of Hadoop. -/
inductive HdfsQuestion where
  | isAccessAllowed (request : RangerHdfsAccessRequest)
  | checkPermission (check : PermissionCheck)

def HdfsQuestion.Answer : HdfsQuestion → Type
  | isAccessAllowed _ => Option RangerServiceAccessResult
  | checkPermission _ => Except AccessControlException Unit

/-- A check that asks, and that has its handler hear the answers. -/
abbrev AuditedCheck := Keeping RangerHdfsAuditHandler HdfsQuestion HdfsQuestion.Answer Bool

/-- The authorizer, with what it is started with. The access types of an action are a set,
which is looked through in an order of its own. -/
structure RangerHdfsAuthorizer where
  rangerPlugin : Bool := true
  hadoopAuthEnabled : Bool := false
  defaultEnforcer : Bool := true
  remoteIp : Option String := none
  settings : RangerHdfsAuditSettings := {}
  accessTypes : FsAction → List String := access2ActionListMapper
  listed : ∀ action, (accessTypes action).Perm (access2ActionListMapper action) := by
    exact fun _ => List.Perm.refl _

namespace RangerHdfsAuthorizer

variable (authorizer : RangerHdfsAuthorizer) (check : PermissionCheck)

/-- `RangerBasePlugin.isAccessAllowed`: the handler hears what is answered. -/
def pluginIsAccessAllowed (request : RangerHdfsAccessRequest) :
    Keeping RangerHdfsAuditHandler HdfsQuestion HdfsQuestion.Answer
      (Option RangerServiceAccessResult) :=
  Keeping.hear (HdfsQuestion.isAccessAllowed request) fun answer handler =>
    match answer with
    | none => handler
    | some result => handler.processResult authorizer.settings request result

/-- The loop over the access types of an action, with the verdict so far. -/
def allowTypes (request : String → RangerHdfsAccessRequest) (ret : Bool) :
    List String → AuditedCheck
  | [] => pure ret
  | accessType :: rest => do
      match ← authorizer.pluginIsAccessAllowed (request accessType) with
      | none => allowTypes request ret rest
      | some result => if result.isAllowed then allowTypes request true rest else pure false

def isAccessAllowed (inode : INode) (inodeAttribs : Option INodeAttributes)
    (access : Option FsAction) : AuditedCheck :=
  let pathOwner := (inodeAttribs.bind (·.userName)).or inode.attributes.userName
  authorizer.allowTypes
    (fun accessType => RangerHdfsAccessRequest.create (pathOf inode) pathOwner access accessType
      (userOf check) (groupsOf check) authorizer.remoteIp)
    false (authorizer.accessTypes (access.getD .none))

def checkAncestorAccess : AuditedCheck :=
  match check.ancestorAccess, ancestorOf check with
  | some ancestorAccess, some ancestor =>
      authorizer.isAccessAllowed check ancestor
        (check.inodeAttrs[(ancestorIndexOf check).toNat]?).join (some ancestorAccess)
  | _, _ => pure true

def checkParentAccess : AuditedCheck :=
  match check.parentAccess, parentOf check with
  | some parentAccess, some parent =>
      authorizer.isAccessAllowed check parent
        (if check.inodeAttrs.length > 1 then
          (check.inodeAttrs[check.inodeAttrs.length - 2]?).join
        else none)
        (some parentAccess)
  | _, _ => pure true

def checkINodeAccess : AuditedCheck :=
  match check.access, inodeOf check with
  | some access, some inode =>
      authorizer.isAccessAllowed check inode (inodeAttribsOf check) (some access)
  | _, _ => pure true

/-- What is checked of a directory on the stack. -/
def checkDirectory (dir : INode) : AuditedCheck :=
  if dir.getChildrenList.isEmpty && check.ignoreEmptyDir then pure true
  else authorizer.isAccessAllowed check dir dir.getSnapshotINode check.access

def checkSubAccess : AuditedCheck :=
  match check.subAccess, inodeOf check with
  | some _, some inode =>
      if inode.isDirectory then INode.descent.walkM (authorizer.checkDirectory check) [inode]
      else pure true
  | _, _ => pure true

/-- The checks in their order, each made when those before it have passed. -/
def accessGranted : AuditedCheck :=
  Keeping.andThen (pure (checkStickyBit check)) <|
  Keeping.andThen (authorizer.checkAncestorAccess check) <|
  Keeping.andThen (authorizer.checkParentAccess check) <|
  Keeping.andThen (authorizer.checkINodeAccess check) <|
  Keeping.andThen (authorizer.checkSubAccess check) <|
  pure (checkOwnerAccess check)

/-- The action that is logged when Hadoop decides. -/
def hadoopAction : FsAction :=
  check.access.getD <| check.parentAccess.getD <| check.ancestorAccess.getD <|
    check.subAccess.getD .none

/-- A program of the enforcer, done with what becomes of the call and the event it logs. -/
abbrev AuditedCall := Program HdfsQuestion HdfsQuestion.Answer
  (Except AccessControlException Unit × Option HdfsAuditEvent)

/-- What follows the checks of Ranger. -/
def conclude (granted : Bool) (handler : RangerHdfsAuditHandler) : AuditedCall :=
  if granted then pure (.ok (), handler.flushAudit authorizer.settings)
  else if authorizer.hadoopAuthEnabled && authorizer.defaultEnforcer then do
    let outcome : Except AccessControlException Unit ← Program.request
      (HdfsQuestion.checkPermission { check with ancestorIndex := ancestorIndexOf check })
    let handler := handler.logHadoopEvent authorizer.settings check.path (hadoopAction check)
      outcome.isOk
    pure (outcome, handler.flushAudit authorizer.settings)
  else pure (.error (permissionDenied check), handler.flushAudit authorizer.settings)

def checkPermission : AuditedCall :=
  if authorizer.rangerPlugin && applies check then do
    let (granted, handler) ←
      (authorizer.accessGranted check).run (RangerHdfsAuditHandler.create check.path)
    authorizer.conclude check granted handler
  else if authorizer.hadoopAuthEnabled && authorizer.defaultEnforcer then do
    let outcome : Except AccessControlException Unit ←
      Program.request (HdfsQuestion.checkPermission check)
    pure (outcome, none)
  else pure (.error (permissionDenied check), none)

section Verdict

variable (authorizer : RangerHdfsAuthorizer)
  (plugin : RangerAccessRequest → Option RangerServiceAccessResult)
  (fallback : PermissionCheck → Except AccessControlException Unit) (check : PermissionCheck)

/-- Every question has one answer. -/
def oracle : (question : HdfsQuestion) → question.Answer
  | .isAccessAllowed request => plugin request.toRangerAccessRequest
  | .checkPermission check => fallback check

/-- The enforcer without its audit. -/
def enforcer : RangerAccessControlEnforcer where
  plugin := if authorizer.rangerPlugin then
      some fun request => (plugin request).map (·.toRangerAccessResult)
    else none
  remoteIp := authorizer.remoteIp
  hadoopAuthEnabled := authorizer.hadoopAuthEnabled
  defaultEnforcer := if authorizer.defaultEnforcer then some fallback else none

/-- The verdict of a check is that of another one, whatever the handler has heard. -/
def Decides (work : AuditedCheck) (verdict : Bool) : Prop :=
  ∀ handler, ((work.run handler).answered (oracle plugin fallback)).1 = verdict

variable {plugin fallback check}

theorem decides_pure (verdict : Bool) : Decides plugin fallback (pure verdict) verdict :=
  fun _ => rfl

theorem decides_andThen {first second : AuditedCheck} {one two : Bool}
    (decidesOne : Decides plugin fallback first one)
    (decidesTwo : Decides plugin fallback second two) :
    Decides plugin fallback (Keeping.andThen first second) (one && two) := by
  intro handler
  unfold Keeping.andThen
  rw [StateT.run_bind, Program.answered_bind]
  have verdict := decidesOne handler
  generalize (first.run handler).answered (oracle plugin fallback) = reached at verdict ⊢
  obtain ⟨passed, heard⟩ := reached
  change passed = one at verdict
  subst verdict
  cases passed with
  | true => exact decidesTwo heard
  | false => rfl

theorem decides_allowTypes (request : String → RangerHdfsAccessRequest) (ret : Bool)
    (accessTypes : List String) :
    Decides plugin fallback (authorizer.allowTypes request ret accessTypes)
      (RangerAccessControlEnforcer.allowTypes (fun accessType =>
        (plugin (request accessType).toRangerAccessRequest).map (·.toRangerAccessResult)) ret
        accessTypes) := by
  intro handler
  induction accessTypes generalizing ret handler with
  | nil => rfl
  | cons accessType rest ih =>
      unfold RangerHdfsAuthorizer.allowTypes RangerAccessControlEnforcer.allowTypes
      rw [StateT.run_bind, Program.answered_bind]
      have answer : (((authorizer.pluginIsAccessAllowed (request accessType)).run
          handler).answered (oracle plugin fallback)).1 =
            plugin (request accessType).toRangerAccessRequest := rfl
      rw [← answer]
      generalize ((authorizer.pluginIsAccessAllowed (request accessType)).run
        handler).answered (oracle plugin fallback) = told
      obtain ⟨reply, heard⟩ := told
      cases reply with
      | none => exact ih ret heard
      | some result =>
          dsimp only [Option.map_some]
          cases result.isAllowed with
          | true => exact ih true heard
          | false => rfl

/-- The order of the access types does not matter. -/
theorem allowTypes_perm (answer : String → Option RangerAccessResult) (ret : Bool)
    {first second : List String} (perm : first.Perm second) :
    RangerAccessControlEnforcer.allowTypes answer ret first =
      RangerAccessControlEnforcer.allowTypes answer ret second := by
  rw [Bool.eq_iff_iff, allowTypes_eq_true_iff, allowTypes_eq_true_iff]
  simp only [perm.mem_iff]

theorem decides_isAccessAllowed (inode : INode) (inodeAttribs : Option INodeAttributes)
    (access : Option FsAction) :
    Decides plugin fallback (authorizer.isAccessAllowed check inode inodeAttribs access)
      ((authorizer.enforcer plugin fallback).isAllowed
        (fun request => (plugin request).map (·.toRangerAccessResult)) check inode inodeAttribs
        access) := by
  have verdict : Decides plugin fallback
      (authorizer.isAccessAllowed check inode inodeAttribs access) _ :=
    decides_allowTypes authorizer (fun accessType => RangerHdfsAccessRequest.create (pathOf inode)
      ((inodeAttribs.bind (·.userName)).or inode.attributes.userName) access accessType
      (userOf check) (groupsOf check) authorizer.remoteIp) false
      (authorizer.accessTypes (access.getD .none))
  rw [allowTypes_perm _ _ (authorizer.listed (access.getD .none))] at verdict
  exact verdict

theorem decides_walkM {check : INode → AuditedCheck} {verdict : INode → Bool}
    (decides : ∀ inode, Decides plugin fallback (check inode) (verdict inode))
    (stack : List INode) :
    Decides plugin fallback (INode.descent.walkM check stack)
      (INode.descent.walk verdict stack) := by
  induction stack using Descent.walkM.induct INode.descent with
  | case1 =>
      rw [Descent.walkM, Descent.walk]
      exact decides_pure true
  | case2 inode stack ih =>
      rw [Descent.walkM, Descent.walk]
      have both := decides_andThen (decides inode) ih
      cases passed : verdict inode with
      | true =>
          rw [passed, Bool.true_and] at both
          exact both
      | false =>
          rw [passed, Bool.false_and] at both
          exact both

theorem decides_accessGranted :
    Decides plugin fallback (authorizer.accessGranted check)
      (checkStickyBit check && ((authorizer.enforcer plugin fallback).checkAncestorAccess
          (fun request => (plugin request).map (·.toRangerAccessResult)) check &&
        ((authorizer.enforcer plugin fallback).checkParentAccess
          (fun request => (plugin request).map (·.toRangerAccessResult)) check &&
        ((authorizer.enforcer plugin fallback).checkINodeAccess
          (fun request => (plugin request).map (·.toRangerAccessResult)) check &&
        ((authorizer.enforcer plugin fallback).checkSubAccess
          (fun request => (plugin request).map (·.toRangerAccessResult)) check &&
        checkOwnerAccess check))))) := by
  refine decides_andThen (decides_pure _) <| decides_andThen ?ancestor <|
    decides_andThen ?parent <| decides_andThen ?inode <|
    decides_andThen ?below (decides_pure _)
  case ancestor =>
    unfold RangerHdfsAuthorizer.checkAncestorAccess RangerAccessControlEnforcer.checkAncestorAccess
    cases check.ancestorAccess with
    | none => exact decides_pure true
    | some action =>
        cases ancestorOf check with
        | none => exact decides_pure true
        | some inode => exact decides_isAccessAllowed authorizer _ _ _
  case parent =>
    unfold RangerHdfsAuthorizer.checkParentAccess RangerAccessControlEnforcer.checkParentAccess
    cases check.parentAccess with
    | none => exact decides_pure true
    | some action =>
        cases parentOf check with
        | none => exact decides_pure true
        | some inode => exact decides_isAccessAllowed authorizer _ _ _
  case inode =>
    unfold RangerHdfsAuthorizer.checkINodeAccess RangerAccessControlEnforcer.checkINodeAccess
    cases check.access with
    | none => exact decides_pure true
    | some action =>
        cases inodeOf check with
        | none => exact decides_pure true
        | some inode => exact decides_isAccessAllowed authorizer _ _ _
  case below =>
    unfold RangerHdfsAuthorizer.checkSubAccess RangerAccessControlEnforcer.checkSubAccess
    cases check.subAccess with
    | none => exact decides_pure true
    | some action =>
        cases inodeOf check with
        | none => exact decides_pure true
        | some inode =>
            dsimp only
            split
            · refine decides_walkM (fun dir => ?_) _
              unfold RangerHdfsAuthorizer.checkDirectory RangerAccessControlEnforcer.checkDirectory
              split
              · exact decides_pure true
              · exact decides_isAccessAllowed authorizer _ _ _
            · exact decides_pure true

theorem conclude_answered (granted : Bool) (handler : RangerHdfsAuditHandler) :
    ((authorizer.conclude check granted handler).answered (oracle plugin fallback)).1 =
      if granted then .ok ()
      else if authorizer.hadoopAuthEnabled && authorizer.defaultEnforcer then
        fallback { check with ancestorIndex := ancestorIndexOf check }
      else .error (permissionDenied check) := by
  unfold conclude
  cases granted with
  | true => rfl
  | false => cases authorizer.hadoopAuthEnabled && authorizer.defaultEnforcer <;> rfl

/-- **The audit does not decide.** A call that is audited has the outcome of one that is not,
and the order of the access types does not matter. -/
theorem checkPermission_answered :
    ((authorizer.checkPermission check).answered (oracle plugin fallback)).1 =
      (authorizer.enforcer plugin fallback).checkPermission check := by
  unfold RangerHdfsAuthorizer.checkPermission RangerAccessControlEnforcer.checkPermission
    RangerAccessControlEnforcer.accessGranted handedOn
  have decides : Decides plugin fallback (authorizer.accessGranted check) _ :=
    decides_accessGranted authorizer
  have verdict := decides (RangerHdfsAuditHandler.create check.path)
  cases loaded : authorizer.rangerPlugin with
  | false =>
      simp only [enforcer, loaded]
      cases authorizer.hadoopAuthEnabled <;> cases authorizer.defaultEnforcer <;> rfl
  | true =>
      cases applied : applies check with
      | false =>
          simp only [enforcer, loaded]
          cases authorizer.hadoopAuthEnabled <;> cases authorizer.defaultEnforcer <;> rfl
      | true =>
          rw [Bool.and_self, if_pos rfl, Program.answered_bind, conclude_answered, verdict]
          simp only [enforcer, loaded, ↓reduceIte, Bool.true_and, Bool.and_assoc,
            Option.isSome_some]
          congr 1
          cases authorizer.hadoopAuthEnabled <;> cases authorizer.defaultEnforcer <;> rfl

end Verdict

end RangerHdfsAuthorizer

end Ranger

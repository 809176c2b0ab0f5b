import Ranger.Admin.PortalUsers

/-! # Users and groups of policies

The users and groups that policies name are in tables of their own. `XUserMgr` updates a
user of the policies by the id of the request, and the user of the portal by its name.
-/

namespace Ranger

open Foundation
open Foundation.Throwing

/-- A user of the policies as a request has it, with what its portal user gets. -/
structure VXUser where
  id : Option Int := none
  name : Option String := none
  description : Option String := none
  isVisible : Int := 1
  credStoreId : Option Int := none
  firstName : Option String := none
  lastName : Option String := none
  emailAddress : Option String := none
  password : Option String := none
  status : Int := 0
  userSource : Int := 0
  userRoleList : Option (List String) := none
  groupIdList : Option (List (Option Int)) := none

/-- A group as a request has it. -/
structure VXGroup where
  id : Option Int := none
  name : Option String := none
  description : Option String := none
  isVisible : Int := 1
  groupType : Int := 0
  credStoreId : Option Int := none

namespace UserTables

variable (tables : UserTables)

/-- The users of the policies that `XXUserDao.findByUserName` selects. -/
def usersNamed (name : String) : List (Int × XXUser) :=
  if (trim name).isEmpty then []
  else tables.users.rows.entries.filter (·.2.name == trim name)

/-- `XGroupUserService.searchXGroupUsers` for a user. -/
def groupUsersOf (userId : Int) : List (Int × XXGroupUser) :=
  tables.groupUsers.rows.entries.filter (·.2.userId == userId)

/-- `XXGroupDao.findByGroupName`, which finds none of several. -/
def findByGroupName (name : String) : Option (Int × XXGroup) :=
  match tables.groups.rows.entries.filter (·.2.name == name) with
  | [group] => some group
  | _ => none

/-- `XUserMgr.getXUserGroups`: it fails on a group that is missing. -/
def getXUserGroups (userId : Int) : Option (List XXGroup) :=
  (tables.groupUsersOf userId).mapM fun row => tables.groups.get? row.2.parentGroupId

/-- `XUserMgr.getGroupsForUser`: the names of the groups of a user, and none when the
user is not found, is ambiguous or has a group that is missing. -/
def getGroupsForUser (userName : String) : List String :=
  match tables.usersNamed userName with
  | [(userId, _)] => ((tables.getXUserGroups userId).getD []).map (·.name)
  | _ => []

end UserTables

namespace XUserService

variable (vXUser : VXUser)

/-- `updateResource`: the record of the id takes the values of the request. -/
def updateResource : Serving Int := do
  let request ← get
  match vXUser.id.bind fun id => (request.tables.users.get? id).map fun row => (id, row) with
  | none => throw "Object not found"
  | some (id, row) =>
      if vXUser.name.any fun name =>
          trim name != trim row.name && !(request.tables.usersNamed name).isEmpty then
        throw "XUser already exists"
      else
        match vXUser.name, vXUser.description with
        | some name, some description =>
            modify fun request =>
              { request with
                tables :=
                  { request.tables with
                    users :=
                      request.tables.users.replace id
                        ⟨name, description, vXUser.isVisible, vXUser.credStoreId⟩ } }
            return id
        | _, _ => throw "PersistenceException"

end XUserService

namespace XUserMgr

/-- `XGroupUserService.getTransactionLog`, which reads the group and the user, added to a
list that is there if the portal has a user of the name. -/
def logGroupUser (logged : Bool) (row : XXGroupUser) : Serving PUnit := do
  let request ← get
  if logged && (request.tables.groups.get? row.parentGroupId).isSome &&
      (request.tables.users.get? row.userId).isSome then return ()
  else throw nullPointer

def createXGroupUser (userId groupId : Int) : Serving XXGroupUser := do
  let request ← get
  match request.tables.groups.get? groupId with
  | none => throw "Object not found"
  | some group =>
      let row : XXGroupUser := ⟨group.name, groupId, userId⟩
      modify fun request =>
        { request with
          tables :=
            { request.tables with groupUsers := request.tables.groupUsers.insert row } }
      return row

def deleteXGroupUser (groupUserId : Int) : Serving PUnit :=
  modify fun request =>
    { request with
      tables :=
        { request.tables with groupUsers := request.tables.groupUsers.remove groupUserId } }

/-- A listed group that the user is not in takes the user. -/
def joinGroup (logged : Bool) (userId : Int) (current : List (Int × XXGroupUser))
    (groupId : Option Int) : Serving PUnit := do
  match groupId with
  | none => if current.isEmpty then throw "Object not found" else throw nullPointer
  | some groupId =>
      if current.any (·.2.parentGroupId == groupId) then return ()
      else
        let row ← createXGroupUser userId groupId
        logGroupUser logged row

/-- The groups of a user become the listed ones. -/
def updateGroupUsers (logged : Bool) (userId : Int) (groupIdList : List (Option Int)) :
    Serving PUnit := do
  let request ← get
  let current := request.tables.groupUsersOf userId
  groupIdList.forM (joinGroup logged userId current)
  current.forM fun row => logGroupUser logged row.2
  (current.filter fun row => !groupIdList.contains (some row.2.parentGroupId)).forM fun row =>
    deleteXGroupUser row.1

section Users

variable [Platform] [UserText]

/-- The portal user is found by the name of the request; the user of the policies and its
groups, by the id. -/
def updateXUser (guid : String) (vXUser : VXUser) : Serving PUnit := do
  let oldUserProfile ← UserMgr.getUserProfileByLoginId vXUser.name
  let _ ← UserMgr.updateUserWithPass guid
    { id := oldUserProfile.bind (·.id)
      loginId := vXUser.name
      emailAddress := vXUser.emailAddress
      firstName := vXUser.firstName
      lastName := vXUser.lastName
      publicScreenName := some (textOrNull vXUser.firstName ++ " " ++ textOrNull vXUser.lastName)
      password := vXUser.password
      status := vXUser.status
      userSource := vXUser.userSource
      userRoleList := vXUser.userRoleList }
  let userId ← XUserService.updateResource vXUser
  match vXUser.groupIdList with
  | none => return ()
  | some groupIdList => updateGroupUsers oldUserProfile.isSome userId groupIdList

/-- `updateXGroup` and `XGroupService.updateResource`. -/
def updateXGroup (vXGroup : VXGroup) : Serving PUnit := do
  let request ← get
  match vXGroup.id.bind fun id => (request.tables.groups.get? id).map fun row => (id, row) with
  | none => throw "Object not found"
  | some (id, row) =>
      match vXGroup.name with
      | none => throw nullPointer
      | some name =>
          if !equalsIgnoreCase name row.name &&
              (request.tables.findByGroupName name).isSome then
            throw "XGroup already exists"
          else
            match vXGroup.description with
            | none => throw "PersistenceException"
            | some description =>
                modify fun request =>
                  { request with
                    tables :=
                      { request.tables with
                        groups :=
                          request.tables.groups.replace id
                            ⟨name, description, vXGroup.isVisible, vXGroup.groupType,
                              vXGroup.credStoreId⟩ } }

end Users

end XUserMgr

/-- The calls of a user who need not be an administrator, each with the random address it
would give. -/
inductive UserCall where
  | update (guid : String) (userProfile : VXPortalUser)
  | setUserRoles (userId : Int) (roleList : List String)
  | updateXUser (guid : String) (vXUser : VXUser)
  | updateXGroup (vXGroup : VXGroup)

namespace UserCall

variable [Platform] [UserText]

def serving : UserCall → Serving PUnit
  | update guid userProfile => UserREST.update guid userProfile
  | setUserRoles userId roleList => UserREST.setUserRoles userId roleList
  | updateXUser guid vXUser => XUserMgr.updateXUser guid vXUser
  | updateXGroup vXGroup => XUserMgr.updateXGroup vXGroup

/-- What a rollback takes back: the tables, and not the session. -/
def rollback (before after : UserRequest) : UserRequest := { after with tables := before.tables }

/-- A request that is served, with its answer and what it leaves. -/
def served (call : UserCall) (tables : UserTables) (session : UserSessionBase) :
    Except String PUnit × UserRequest :=
  (transactional rollback call.serving).outcome { tables := tables, session := session }

theorem tables_served_of_error {call : UserCall} {tables : UserTables}
    {session : UserSessionBase} {message : String}
    (threw : (call.served tables session).1 = .error message) :
    (call.served tables session).2.tables = tables :=
  congrArg UserRequest.tables (transactional_of_error threw)

end UserCall

end Ranger

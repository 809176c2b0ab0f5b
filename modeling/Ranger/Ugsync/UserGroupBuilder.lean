import Ranger.Foundation.AssocMap

/-! # Synchronisation of users and groups

The builder keeps a record of every user of the admin server, found by its id and by its
name, and compares the groups it is given for a user with those of the record. Records are
mutable and shared: they are modelled by their places.
-/

namespace Ranger

open Foundation

structure XUserInfo where
  id : Option Nat := none
  name : String
  groups : List String := []
  deriving DecidableEq

structure XGroupInfo where
  name : String
  deriving DecidableEq

structure XUserGroupInfo where
  userId : Nat
  groupName : String

structure UserGroupInfo where
  xuserInfo : XUserInfo
  xgroupInfo : List XGroupInfo

/-- A user of the admin server, with the set of its groups. -/
structure ServerUser where
  id : Nat
  groups : List String := []

/-- The admin server: a map from the names of users to the sets of their groups. -/
structure AdminServer where
  users : AssocMap String ServerUser
  groups : List String
  distinct : ∀ name user, users.get? name = some user → ∀ other user',
    users.get? other = some user' → user.id = user'.id → name = other
  known : ∀ name user, users.get? name = some user → ∀ group ∈ user.groups, group ∈ groups

namespace AdminServer

variable (server : AdminServer)

/-- An id that no user has. -/
def newId : Nat := (server.users.entries.map fun entry => entry.2.id + 1).foldr max 0

theorem lt_newId {name : String} {user : ServerUser}
    (found : server.users.get? name = some user) : user.id < server.newId := by
  have listed := AssocMap.mem_of_get?_eq_some found
  unfold newId
  generalize server.users.entries = entries at listed
  induction entries with
  | nil => nomatch listed
  | cons entry rest ih =>
      rw [List.map_cons, List.foldr_cons]
      rcases List.mem_cons.mp listed with rfl | later
      · exact Nat.lt_of_lt_of_le (Nat.lt_succ_self _) (Nat.le_max_left _ _)
      · exact Nat.lt_of_lt_of_le (ih later) (Nat.le_max_right _ _)

/-- The user of a name, which is made when there is none. -/
def createXUserWithOutLogin (name : String) : ServerUser :=
  (server.users.get? name).getD { id := server.newId }

/-- The user of a name has an id that no other user has. -/
theorem id_createXUserWithOutLogin {name other : String} {user : ServerUser}
    (found : server.users.get? other = some user)
    (same : (server.createXUserWithOutLogin name).id = user.id) : name = other := by
  unfold createXUserWithOutLogin at same
  cases own : server.users.get? name with
  | none =>
      rw [own] at same
      have below := server.lt_newId found
      rw [← same] at below
      exact absurd below (Nat.lt_irrefl _)
  | some known =>
      rw [own] at same
      exact server.distinct name known own other user found same

/-- The groups of the user of a name are among the groups. -/
theorem groups_createXUserWithOutLogin {name group : String}
    (listed : group ∈ (server.createXUserWithOutLogin name).groups) : group ∈ server.groups := by
  unfold createXUserWithOutLogin at listed
  cases own : server.users.get? name with
  | none =>
      rw [own] at listed
      nomatch listed
  | some known =>
      rw [own] at listed
      exact server.known name known own group listed

/-- The server with a user written under its name. -/
def withUser (name : String) (user : ServerUser) (groups : List String)
    (own : ∀ other known, server.users.get? other = some known → user.id = known.id →
      name = other)
    (kept : ∀ group ∈ server.groups, group ∈ groups)
    (linked : ∀ group ∈ user.groups, group ∈ groups) : AdminServer where
  users := server.users.put name user
  groups := groups
  distinct := by
    intro first user' found second user'' found' same
    rw [AssocMap.get?_put] at found found'
    by_cases here : first = name
    · rw [if_pos here] at found
      cases found
      by_cases there : second = name
      · rw [here, there]
      · rw [if_neg there] at found'
        rw [here, own second user'' found' same]
    · rw [if_neg here] at found
      by_cases there : second = name
      · rw [if_pos there] at found'
        cases found'
        rw [there, own first user' found same.symm]
      · rw [if_neg there] at found'
        exact server.distinct first user' found second user'' found' same
  known := by
    intro other user' found group listed
    rw [AssocMap.get?_put] at found
    by_cases here : other = name
    · rw [if_pos here] at found
      cases found
      exact linked group listed
    · rw [if_neg here] at found
      exact kept group (server.known other user' found group listed)

/-- The groups are added to those of the user, and the user is returned without them. -/
def createXUserGroupFromMap (info : UserGroupInfo) : UserGroupInfo × AdminServer :=
  let name := info.xuserInfo.name
  let user := server.createXUserWithOutLogin name
  let posted := info.xgroupInfo.map XGroupInfo.name
  let groups := server.groups ++ posted.filter (· ∉ server.groups)
  have kept : ∀ group ∈ server.groups, group ∈ groups := fun _ there => List.mem_append_left _ there
  have linked : ∀ group ∈ user.groups ++ posted.filter (· ∉ user.groups), group ∈ groups := by
    intro group listed
    rcases List.mem_append.mp listed with old | added
    · exact kept group (server.groups_createXUserWithOutLogin old)
    · by_cases there : group ∈ server.groups
      · exact kept group there
      · exact List.mem_append_right _
          (List.mem_filter.mpr ⟨(List.mem_filter.mp added).1, decide_eq_true there⟩)
  (⟨⟨some user.id, name, []⟩, info.xgroupInfo⟩,
    server.withUser name { user with groups := user.groups ++ posted.filter (· ∉ user.groups) }
      groups (fun _ _ found same => server.id_createXUserWithOutLogin found same) kept linked)

/-- The link between the user and the group is removed. -/
def deleteXGroupAndXUser (groupName userName : String) : AdminServer :=
  match found : server.users.get? userName with
  | none => server
  | some user =>
      server.withUser userName { user with groups := user.groups.filter (· ≠ groupName) }
        server.groups
        (fun other known found' same => server.distinct userName user found other known found' same)
        (fun _ there => there)
        fun group listed => server.known userName user found group (List.mem_filter.mp listed).1

end AdminServer

/-- The builder, with all user records that were made. A record is kept in the maps by its
place among them. -/
structure PolicyMgrUserGroupBuilder where
  isMockRun : Bool
  records : List XUserInfo := []
  userId2XUserInfoMap : AssocMap Nat Nat := ∅
  userName2XUserInfoMap : AssocMap String Nat := ∅
  groupName2XGroupInfoMap : AssocMap String XGroupInfo := ∅

/-- What is posted to the server, and the statuses with which it answers when links between
the user and groups are deleted. -/
structure SyncCall where
  userName : String
  groups : Option (List String)
  status : String → Nat

namespace PolicyMgrUserGroupBuilder

variable (builder : PolicyMgrUserGroupBuilder)

/-- A new record. -/
def make (info : XUserInfo) : Nat × PolicyMgrUserGroupBuilder :=
  (builder.records.length, { builder with records := builder.records ++ [info] })

def addUserToList (aUserInfo : Nat) : PolicyMgrUserGroupBuilder :=
  match builder.records[aUserInfo]? with
  | none => builder
  | some info =>
      let builder := match info.id with
        | none => builder
        | some userId => { builder with
            userId2XUserInfoMap := builder.userId2XUserInfoMap.put userId aUserInfo }
      { builder with
        userName2XUserInfoMap := builder.userName2XUserInfoMap.put info.name aUserInfo }

def addGroupToList (aGroupInfo : XGroupInfo) : PolicyMgrUserGroupBuilder :=
  { builder with
    groupName2XGroupInfoMap := builder.groupName2XGroupInfoMap.put aGroupInfo.name aGroupInfo }

/-- The group is added to the record that is found by the id. -/
def addGroupOfUser (userId : Option Nat) (groupName : String) : PolicyMgrUserGroupBuilder :=
  match userId.bind builder.userId2XUserInfoMap.get? with
  | none => builder
  | some user =>
      { builder with
        records := builder.records.modify user fun info =>
          if groupName ∈ info.groups then info
          else { info with groups := info.groups ++ [groupName] } }

def addUserGroupToList (ugInfo : XUserGroupInfo) : PolicyMgrUserGroupBuilder :=
  builder.addGroupOfUser (some ugInfo.userId) ugInfo.groupName

def addUserGroupInfoToList (userInfo : XUserInfo) (groupInfo : XGroupInfo) :
    PolicyMgrUserGroupBuilder :=
  builder.addGroupOfUser userInfo.id groupInfo.name

/-- The group is taken out of the record itself, in the maps or not. -/
def delUserGroupFromList (userInfo : Nat) (groupInfo : XGroupInfo) : PolicyMgrUserGroupBuilder :=
  { builder with
    records := builder.records.modify userInfo fun info =>
      if groupInfo.name ∈ info.groups then
        { info with groups := info.groups.erase groupInfo.name }
      else info }

/-- The loop of `buildGroupList`, `buildUserList` and `buildUserGroupLinkList`, which asks for
pages until it has as many rows as there are. -/
def retrieve {α : Type} (rows : List α) (pageSize : Nat) :
    (requests : Nat) → (retrieved : List α) → (totalCount : Nat) → Option (List α)
  | 0, _, _ => none
  | requests + 1, retrieved, totalCount =>
      if retrieved.length < totalCount then
        retrieve rows pageSize requests
          (retrieved ++ (rows.drop retrieved.length).take pageSize) rows.length
      else some retrieved

/-- The rows of the links between users and groups. -/
def linksOf (server : AdminServer) : List XUserGroupInfo :=
  server.users.entries.flatMap fun entry => entry.2.groups.map fun group => ⟨entry.2.id, group⟩

def rebuildUserGroupMap (xuserList : List XUserInfo) (xgroupList : List XGroupInfo)
    (xusergroupList : List XUserGroupInfo) : PolicyMgrUserGroupBuilder :=
  let builder := xuserList.foldl (fun builder info =>
    let (user, builder) := builder.make info
    builder.addUserToList user) builder
  let builder := xgroupList.foldl addGroupToList builder
  xusergroupList.foldl addUserGroupToList builder

/-- `init`, unless it sends more than the given number of requests for one of the lists. -/
def init (isMockRun : Bool) (recordsToPullPerCall requests : Nat) (server : AdminServer) :
    Option PolicyMgrUserGroupBuilder := do
  let groups ← retrieve (server.groups.map XGroupInfo.mk) recordsToPullPerCall requests [] 100
  let users ← retrieve
    (server.users.entries.map fun entry => ({ id := entry.2.id, name := entry.1 } : XUserInfo))
    recordsToPullPerCall requests [] 100
  let links ← retrieve (linksOf server) recordsToPullPerCall requests [] 100
  return ({ isMockRun := isMockRun } : PolicyMgrUserGroupBuilder).rebuildUserGroupMap users groups
    links

def addXUserInfo (aUserName : String) : XUserInfo := { name := aUserName }

def getXGroupInfoList (aGroupList : List String) : List XGroupInfo :=
  aGroupList.map fun groupName =>
    (builder.groupName2XGroupInfoMap.get? groupName).getD ⟨groupName⟩

/-- `addUserGroupInfo`: what the server answers becomes the record of the user. -/
def addUserGroupInfo (usergroupInfo : UserGroupInfo)
    (state : AdminServer × PolicyMgrUserGroupBuilder) : AdminServer × PolicyMgrUserGroupBuilder :=
  let (ret, server) := state.1.createXUserGroupFromMap usergroupInfo
  let (xUserInfo, builder) := state.2.make ret.xuserInfo
  let builder := builder.addUserToList xUserInfo
  (server, ret.xgroupInfo.foldl (fun builder xGroupInfo =>
    (builder.addGroupToList xGroupInfo).addUserGroupInfoToList ret.xuserInfo xGroupInfo) builder)

/-- One turn of the loop of `delXUserGroupInfo`. -/
def delXUserGroupInfo (status : String → Nat) (aUserInfo : Nat) (userName : String)
    (state : AdminServer × PolicyMgrUserGroupBuilder) (groupName : String) :
    AdminServer × PolicyMgrUserGroupBuilder :=
  match state.2.groupName2XGroupInfoMap.get? groupName with
  | none => state
  | some group =>
      (state.1.deleteXGroupAndXUser group.name userName,
        if status group.name = 200 then state.2.delUserGroupFromList aUserInfo group else state.2)

/-- All requests that are sent succeed. -/
def addOrUpdateUser (state : AdminServer × PolicyMgrUserGroupBuilder) (call : SyncCall) :
    Unit × (AdminServer × PolicyMgrUserGroupBuilder) :=
  let groups := call.groups.getD []
  let builder := state.2
  match builder.userName2XUserInfoMap.get? call.userName with
  | none =>
      if builder.isMockRun then ((), state)
      else
        ((), addUserGroupInfo ⟨addXUserInfo call.userName, builder.getXGroupInfoList groups⟩ state)
  | some user =>
      match builder.records[user]? with
      | none => ((), state)
      | some info =>
          let oldGroups := info.groups
          let addGroups := groups.filter (· ∉ oldGroups)
          let delGroups := oldGroups.filter (· ∉ groups)
          if builder.isMockRun then ((), state)
          else
            let state :=
              if addGroups.isEmpty then state
              else
                addUserGroupInfo ⟨addXUserInfo call.userName, builder.getXGroupInfoList addGroups⟩
                  state
            ((), delGroups.foldl (delXUserGroupInfo call.status user info.name) state)

end PolicyMgrUserGroupBuilder

end Ranger

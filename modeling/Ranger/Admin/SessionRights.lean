import Ranger.Admin.RoleEscalation

/-! # The rights a session holds

A session keeps the list of its user's roles and the flag of an administrator. It is refreshed
at login and by some of the calls that change roles. A refresh sets the flag and never takes it
back, and a role that is removed is not followed by one.
-/

namespace Ranger

open Foundation
open Foundation.Throwing

/-- The calls that change roles or refresh a session. -/
inductive RoleCall where
  | resetUserSessionForProfiles
  | addUserRole (userId : Int) (userRole : String)
  | deleteUserRole (userId : Int) (userRole : String)
  /-- The overload that is given the row. -/
  | deleteUserRoleRow (gjUserRole : Int × XXPortalUserRole)
  | setUserRoles (userId : Int) (roleList : List String)
  | updateUser (guid : String) (userProfile : VXPortalUser)

namespace RoleCall

variable [Platform] [UserText]

def serving : RoleCall → Serving PUnit
  | resetUserSessionForProfiles => SessionMgr.resetUserSessionForProfiles
  | addUserRole userId userRole => do
      let _ ← UserMgr.addUserRole userId userRole
  | deleteUserRole userId userRole => do
      let _ ← UserMgr.deleteUserRoleNamed userId userRole
  | deleteUserRoleRow gjUserRole => do
      let _ ← UserMgr.deleteUserRole gjUserRole
  | setUserRoles userId roleList => UserMgr.setUserRoles userId roleList
  | updateUser guid userProfile => do
      let _ ← UserMgr.updateUser guid userProfile

/-- A call that is served as a transaction, with its answer and what it leaves. -/
def served (call : RoleCall) (tables : UserTables) (session : UserSessionBase) :
    Except String PUnit × UserRequest :=
  (transactional UserCall.rollback call.serving).outcome { tables := tables, session := session }

end RoleCall

/-- The roles that are stored for the user of a session. -/
def UserTables.storedRoles (tables : UserTables) (session : UserSessionBase) : List String :=
  match session.xXPortalUser with
  | none => []
  | some (userId, _) => (tables.rolesOf userId).map (·.2.userRole)

/-- The session has the rights of the stored roles. -/
structure UserSessionBase.Follows (session : UserSessionBase) (tables : UserTables) : Prop where
  roles : session.userRoleList = tables.storedRoles session
  admin : session.userAdmin = true ↔ ROLE_SYS_ADMIN ∈ tables.storedRoles session

/-- The role rows of a user are the same. -/
def SameRoles (userId : Int) (before after : UserTables) : Prop :=
  ∀ id row, row.userId = userId →
    (after.portalUserRoles.get? id = some row ↔ before.portalUserRoles.get? id = some row)

/-- A request that refreshed its session, or changed a role of its own user. -/
def Concerns (tables : UserTables) (session : UserSessionBase) (after : UserRequest) : Prop :=
  after.managed = true ∨
    ∃ userId, session.getUserId = some userId ∧ ¬SameRoles userId tables after.tables

section Conditions

variable [Platform] (tables : UserTables) (session : UserSessionBase)

/-- The flag of the session is not left from a role that was taken away. -/
def Backed : Prop :=
  session.userAdmin = true →
    ∃ user, tables.findByLoginId session.getLoginId = some user ∧
      tables.HasRole user.1 ROLE_SYS_ADMIN

/-- The session may add and remove the role. -/
def MayChange (userRole : String) : Prop :=
  UserMgr.isPublicRole userRole = true ∨ session.userAdmin = true

/-- A role of the list is not there yet, and the session may add it. -/
def Adds (userId : Int) (roleList : List String) : Prop :=
  ∃ userRole ∈ roleList, MayChange session userRole ∧
    ∀ gjUserRole ∈ tables.rolesOf userId, equalsIgnoreCase gjUserRole.2.userRole userRole = false

/-- A role that is there is not on the list, and the session may remove it. -/
def Removes (userId : Int) (roleList : List String) : Prop :=
  ∃ gjUserRole ∈ tables.rolesOf userId, MayChange session gjUserRole.2.userRole ∧
    ∀ userRole ∈ roleList, equalsIgnoreCase gjUserRole.2.userRole userRole = false

/-- The list leaves an administrator's session the role. -/
def KeepsAdmin (userId : Int) (roleList : List String) : Prop :=
  session.userAdmin = true → roleList ≠ [] →
    ∀ user, tables.findByLoginId session.getLoginId = some user → user.1 = userId →
      ∃ userRole ∈ roleList, equalsIgnoreCase ROLE_SYS_ADMIN userRole = true

/-- The condition of a call on the state before it. -/
def RoleCall.Allowed : RoleCall → Prop
  | resetUserSessionForProfiles => Backed tables session
  | addUserRole userId userRole => Adds tables session userId [userRole] → Backed tables session
  | deleteUserRole userId userRole => session.getUserId = some userId →
      ∀ gjUserRole, ((tables.rolesOf userId).find? fun gjUserRole =>
        equalsIgnoreCase gjUserRole.2.userRole userRole) = some gjUserRole →
          ¬MayChange session gjUserRole.2.userRole
  | deleteUserRoleRow gjUserRole => ∀ row, tables.portalUserRoles.get? gjUserRole.1 = some row →
      session.getUserId = some row.userId → ¬MayChange session gjUserRole.2.userRole
  | setUserRoles userId roleList => roleList ≠ [] →
      (Adds tables session userId roleList →
        Backed tables session ∧ KeepsAdmin tables session userId roleList) ∧
      (¬Adds tables session userId roleList → session.getUserId = some userId →
        ¬Removes tables session userId roleList)
  | updateUser _ userProfile => ∀ user, tables.getPortalUser userProfile.id = some user →
      Backed tables session ∧
        KeepsAdmin tables session user.1 (userProfile.userRoleList.getD []) ∧
        ∀ own, tables.findByLoginId session.getLoginId = some own → own.1 = user.1 →
          userProfile.loginId = user.2.loginId

end Conditions

section Refresh

theorem mem_roles_iff_hasRole {tables : UserTables} {userId : Int} {userRole : String} :
    userRole ∈ (tables.rolesOf userId).map (·.2.userRole) ↔ tables.HasRole userId userRole := by
  constructor
  · intro listed
    obtain ⟨⟨id, row⟩, among, rfl⟩ := List.mem_map.mp listed
    obtain ⟨stored, rfl⟩ := UserTables.mem_rolesOf_iff.mp among
    exact ⟨id, stored⟩
  · intro ⟨id, stored⟩
    exact List.mem_map.mpr ⟨(id, _), UserTables.mem_rolesOf_iff.mpr ⟨stored, rfl⟩, rfl⟩

/-- The state of a request on portal users with these records, whose session has the login id
of `target`. -/
structure Working (users : Table XXPortalUser) (target : Option (Int × XXPortalUser))
    (request : UserRequest) : Prop where
  users : request.tables.portalUsers = users
  found : request.tables.findByLoginId request.session.getLoginId = target
  backed : request.session.userAdmin = true →
    ∃ user, target = some user ∧ request.tables.HasRole user.1 ROLE_SYS_ADMIN
  fresh : request.managed = true → request.session.xXPortalUser = target

/-- A session that was refreshed follows the stored roles. -/
def Fresh (request : UserRequest) : Prop :=
  request.managed = true → request.session.Follows request.tables

variable {users : Table XXPortalUser} {target : Option (Int × XXPortalUser)}
  {fails : UserRequest → Prop}

/-- What a refresh makes of a request. -/
def refreshed (request : UserRequest) : UserRequest :=
  let gjUser := request.tables.findByLoginId request.session.getLoginId
  let roles :=
    match gjUser with
    | none => []
    | some (userId, _) => (request.tables.rolesOf userId).map (·.2.userRole)
  { request with
    session :=
      { xXPortalUser := gjUser
        userAdmin := request.session.userAdmin || roles.contains ROLE_SYS_ADMIN
        userRoleList := roles }
    managed := true }

theorem storedRoles_refreshed (request : UserRequest) :
    (refreshed request).tables.storedRoles (refreshed request).session =
      (refreshed request).session.userRoleList := rfl

theorem mem_refreshed_iff (request : UserRequest) (userRole : String) :
    userRole ∈ (refreshed request).session.userRoleList ↔
      ∃ user, request.tables.findByLoginId request.session.getLoginId = some user ∧
        request.tables.HasRole user.1 userRole := by
  unfold refreshed
  dsimp only
  cases request.tables.findByLoginId request.session.getLoginId with
  | none =>
      refine iff_of_false List.not_mem_nil ?_
      rintro ⟨user, absent, has⟩
      cases absent
  | some user =>
      refine mem_roles_iff_hasRole.trans ?_
      exact ⟨fun has => ⟨user, rfl, has⟩, fun ⟨_, same, has⟩ => Option.some.inj same ▸ has⟩

/-- A refreshed session follows the stored roles exactly when its flag was not left from a role
that was taken away. -/
theorem follows_refreshed_iff (request : UserRequest) :
    (refreshed request).session.Follows (refreshed request).tables ↔
      Backed request.tables request.session := by
  have stored := storedRoles_refreshed request
  have raised : (refreshed request).session.userAdmin = true ↔
      request.session.userAdmin = true ∨
        ROLE_SYS_ADMIN ∈ (refreshed request).session.userRoleList := by
    change (request.session.userAdmin || _) = true ↔ _
    rw [Bool.or_eq_true, List.contains_iff_mem]
    rfl
  constructor
  · intro follows flag
    apply (mem_refreshed_iff request ROLE_SYS_ADMIN).mp
    rw [← stored]
    exact follows.admin.mp (raised.mpr (.inl flag))
  · intro backed
    refine ⟨stored.symm, ?_⟩
    rw [stored, raised]
    refine ⟨fun either => either.elim (fun flag => ?_) id, .inr⟩
    exact (mem_refreshed_iff request ROLE_SYS_ADMIN).mpr (backed flag)

theorem follows_reset :
    Ensures (fun request => Backed request.tables request.session)
      SessionMgr.resetUserSessionForProfiles
      (fun _ request => request.managed = true ∧ request.session.Follows request.tables) fails :=
  ensures_modify fun request backed => ⟨rfl, (follows_refreshed_iff request).mpr backed⟩

/-- Behind a refresh the session has the user that its login id finds. -/
theorem Working.refreshed {request : UserRequest} (working : Working users target request) :
    Working users target (refreshed request) ∧ (Ranger.refreshed request).managed = true ∧
      Fresh (Ranger.refreshed request) := by
  have backed : Backed request.tables request.session := by
    intro flag
    rw [working.found]
    exact working.backed flag
  have follows := (follows_refreshed_iff request).mpr backed
  have again : (Ranger.refreshed request).tables.findByLoginId
      (Ranger.refreshed request).session.getLoginId = target := by
    change request.tables.findByLoginId
      ((request.tables.findByLoginId request.session.getLoginId).bind (·.2.loginId)) = target
    have found := working.found
    cases target with
    | none =>
        rw [found]
        rfl
    | some user =>
        rw [found]
        have ⟨_, named, _⟩ := UserTables.of_findByLoginId found
        change request.tables.findByLoginId user.2.loginId = some user
        rw [named, found]
  refine ⟨⟨working.users, again, fun flag => ?_, fun _ => working.found⟩, rfl, fun _ => follows⟩
  have listed := follows.admin.mp flag
  rw [storedRoles_refreshed, mem_refreshed_iff, working.found] at listed
  exact listed

end Refresh

section Roles

variable {users : Table XXPortalUser} {target : Option (Int × XXPortalUser)}
  {fails : UserRequest → Prop}

/-- The role of an administrator stays where another row is removed. -/
theorem Working.remove {request : UserRequest} (working : Working users target request) {id : Int}
    (spared : ∀ user, target = some user →
      request.tables.portalUserRoles.get? id ≠ some ⟨user.1, ROLE_SYS_ADMIN⟩) :
    Working users target
      { request with
        tables :=
          { request.tables with
            portalUserRoles := request.tables.portalUserRoles.remove id } } where
  users := working.users
  found := working.found
  backed flag := by
    obtain ⟨user, same, place, stored⟩ := working.backed flag
    refine ⟨user, same, place, ?_⟩
    rw [Table.get?_remove, if_neg, stored]
    rintro rfl
    exact spared user same stored
  fresh := working.fresh

theorem Working.insert {request : UserRequest} (working : Working users target request)
    (row : XXPortalUserRole) :
    Working users target
      { request with
        tables :=
          { request.tables with
            portalUserRoles := request.tables.portalUserRoles.insert row } } where
  users := working.users
  found := working.found
  backed flag := by
    obtain ⟨user, same, place, stored⟩ := working.backed flag
    exact ⟨user, same, place, Table.get?_insert_of_some stored row⟩
  fresh := working.fresh

variable [Platform]

theorem not_equalsIgnoreCase_other : equalsIgnoreCase ROLE_SYS_ADMIN ROLE_OTHER = false := by
  have reserved := List.any_eq_false.mp not_isPublicRole_sysAdmin ROLE_OTHER (by decide)
  rw [equalsIgnoreCase_comm]
  exact Bool.eq_false_iff.mpr reserved

theorem working_deleteUserRole {gjUserRole : Int × XXPortalUserRole} {now : UserRequest}
    (working : Working users target now)
    (spared : ∀ user, target = some user →
      now.tables.portalUserRoles.get? gjUserRole.1 ≠ some ⟨user.1, ROLE_SYS_ADMIN⟩) :
    Ensures (fun request => request = now) (UserMgr.deleteUserRole gjUserRole)
      (fun _ => Working users target) fails := by
  apply ensures_get_bind
  rintro _ rfl
  split
  · exact ensures_pure fun request same => same ▸ working
  · refine ensures_modify_bind (?_ : ∀ _, _ → Working users target _)
      (ensures_pure fun _ holds => holds)
    rintro request rfl
    exact working.remove spared

/-- The role that goes with every other one is not that of an administrator. -/
theorem working_deleteOther (userId : Int) :
    Ensures (Working users target) (UserMgr.deleteUserRoleNamed userId ROLE_OTHER)
      (fun _ => Working users target) fails := by
  apply ensures_get_bind
  intro now working
  split
  · exact ensures_pure fun request same => same ▸ working
  · next gjUserRole found =>
    apply working_deleteUserRole working
    intro user _ stored
    have named := List.find?_some found
    have ⟨here, _⟩ := UserTables.mem_rolesOf_iff.mp (List.mem_of_find?_eq_some found)
    rw [Option.some.inj (here.symm.trans stored)] at named
    exact absurd named (Bool.eq_false_iff.mp not_equalsIgnoreCase_other)

variable [UserText]

/-- A role that is there, or that the session may not add, changes nothing. -/
theorem ensures_addUserRole_of_not_adds {userId : Int} {userRole : String} {now : UserRequest}
    (idle : ¬Adds now.tables now.session userId [userRole]) :
    Ensures (fun request => request = now) (UserMgr.addUserRole userId userRole)
      (fun _ request => request = now) fails := by
  apply ensures_get_bind
  rintro _ rfl
  split
  · exact ensures_pure fun _ same => same
  · next allowed =>
    split
    · exact ensures_pure fun _ same => same
    · next missing =>
      refine absurd ⟨userRole, List.mem_singleton.mpr rfl, ?_, fun row listed => ?_⟩ idle
      · rwa [Bool.and_eq_true, not_and_or, Bool.not_eq_true', Bool.not_eq_true',
          Bool.not_eq_false, Bool.not_eq_false] at allowed
      · rw [equalsIgnoreCase_comm]
        exact Bool.eq_false_iff.mpr (List.find?_eq_none.mp missing row listed)

/-- A role that is added refreshes the session. -/
theorem working_addUserRole {userId : Int} {userRole : String} {now : UserRequest}
    (working : Working users target now)
    (adds : Adds now.tables now.session userId [userRole]) :
    Ensures (fun request => request = now) (UserMgr.addUserRole userId userRole)
      (fun _ request => Working users target request ∧ request.managed = true ∧ Fresh request)
      fails := by
  obtain ⟨_, listed, allowed, missing⟩ := adds
  obtain rfl := List.mem_singleton.mp listed
  apply ensures_get_bind
  rintro _ rfl
  split
  · next refused =>
    rw [Bool.and_eq_true, Bool.not_eq_true', Bool.not_eq_true'] at refused
    rcases allowed with isPublic | flag
    · exact absurd (isPublic.symm.trans refused.1) nofun
    · exact absurd (flag.symm.trans refused.2) nofun
  · split
    · next found =>
      have named := List.find?_some found
      have absent := missing _ (List.mem_of_find?_eq_some found)
      rw [equalsIgnoreCase_comm] at absent
      exact absurd (named.symm.trans absent) nofun
    · have last : Ensures (Working users target)
          (do
            SessionMgr.resetUserSessionForProfiles
            return (none : Option (Int × XXPortalUserRole)))
          (fun _ request => Working users target request ∧ request.managed = true ∧ Fresh request)
          fails :=
        ensures_bind (ensures_modify fun _ working => working.refreshed)
          fun _ => ensures_pure fun _ holds => holds
      refine ensures_modify_bind (?_ : ∀ _, _ → Working users target _) ?_
      · rintro request rfl
        exact working.insert _
      · dsimp only
        split
        · exact ensures_bind (working_deleteOther userId) fun _ => last
        · exact last

/-- Role rows were removed and none was added. -/
def Shrunk (now request : UserRequest) : Prop :=
  ∀ id row, request.tables.portalUserRoles.get? id = some row →
    now.tables.portalUserRoles.get? id = some row

/-- No refresh yet, and role rows were removed at most. -/
structure Unrefreshed (now request : UserRequest) : Prop where
  session : request.session = now.session
  managed : request.managed = false
  shrunk : Shrunk now request

omit [Platform] [UserText] in
theorem Unrefreshed.remove {now request : UserRequest} (unrefreshed : Unrefreshed now request)
    (id : Int) :
    Unrefreshed now
      { request with
        tables :=
          { request.tables with
            portalUserRoles := request.tables.portalUserRoles.remove id } } where
  session := unrefreshed.session
  managed := unrefreshed.managed
  shrunk other row stored := by
    change (request.tables.portalUserRoles.remove id).get? other = some row at stored
    rw [Table.get?_remove] at stored
    split at stored
    · cases stored
    · exact unrefreshed.shrunk other row stored

/-- The rows that are not on the list. -/
def unlisted (roleList : List String) (gjUserRole : Int × XXPortalUserRole) : Bool :=
  !roleList.any (equalsIgnoreCase gjUserRole.2.userRole ·)

/-- The first loop of `updateRoles`. -/
def removals (now : UserRequest) (userId : Int) (roleList : List String) : Serving PUnit :=
  (now.tables.rolesOf userId).forM fun gjUserRole => do
    if unlisted roleList gjUserRole then
      let _ ← UserMgr.deleteUserRole gjUserRole

omit [UserText] in
/-- The first loop keeps what a removal keeps. -/
theorem ensures_removals {now : UserRequest} {inv : UserRequest → Prop} {userId : Int}
    {roleList : List String}
    (kept : ∀ gjUserRole ∈ now.tables.rolesOf userId, unlisted roleList gjUserRole = true →
      MayChange now.session gjUserRole.2.userRole →
      ∀ request, Unrefreshed now request → inv request →
        inv { request with
          tables :=
            { request.tables with
              portalUserRoles := request.tables.portalUserRoles.remove gjUserRole.1 } }) :
    Ensures (fun request => Unrefreshed now request ∧ inv request) (removals now userId roleList)
      (fun _ request => Unrefreshed now request ∧ inv request) fails := by
  apply ensures_forM
  intro gjUserRole listed
  split
  · next gone =>
    refine ensures_bind ?_ fun _ => ensures_pure fun _ holds => holds
    apply ensures_get_bind
    intro state holds
    split
    · exact ensures_pure fun request same => same ▸ holds
    · next allowed =>
      refine ensures_modify_bind (?_ : ∀ _, _ → Unrefreshed now _ ∧ inv _)
        (ensures_pure fun _ holds => holds)
      rintro request rfl
      refine ⟨holds.1.remove _, kept gjUserRole listed gone ?_ request holds.1 holds.2⟩
      rw [Bool.and_eq_true, not_and_or, Bool.not_eq_true', Bool.not_eq_true',
        Bool.not_eq_false, Bool.not_eq_false, holds.1.session] at allowed
      exact allowed
  · exact ensures_pure fun _ holds => holds

omit [UserText] in
/-- What the session may not lose is not removed. -/
theorem Working.removal {now request : UserRequest} {userId : Int} {roleList : List String}
    (some : roleList ≠ []) (keeps : KeepsAdmin now.tables now.session userId roleList)
    (start : Working users target now) (unrefreshed : Unrefreshed now request)
    (working : Working users target request) {gjUserRole : Int × XXPortalUserRole}
    (listed : gjUserRole ∈ now.tables.rolesOf userId)
    (gone : unlisted roleList gjUserRole = true)
    (allowed : MayChange now.session gjUserRole.2.userRole) :
    Working users target
      { request with
        tables :=
          { request.tables with
            portalUserRoles := request.tables.portalUserRoles.remove gjUserRole.1 } } := by
  apply working.remove
  intro user same stored
  obtain ⟨here, owned⟩ := UserTables.mem_rolesOf_iff.mp listed
  have row : gjUserRole.2 = ⟨user.1, ROLE_SYS_ADMIN⟩ :=
    Option.some.inj (here.symm.trans (unrefreshed.shrunk _ _ stored))
  rw [row] at owned allowed
  have flag : now.session.userAdmin = true := by
    rcases allowed with isPublic | flag
    · exact absurd (isPublic.symm.trans not_isPublicRole_sysAdmin) nofun
    · exact flag
  obtain ⟨userRole, among, named⟩ := keeps flag some user (start.found.trans same) owned
  rw [unlisted, Bool.not_eq_true', row] at gone
  exact absurd named (List.any_eq_false.mp gone userRole among)

/-- The second loop of `updateRoles`. -/
def additions (now : UserRequest) (userId : Int) (roleList : List String) : Serving PUnit :=
  roleList.forM fun userRole => do
    if !(now.tables.rolesOf userId).any (equalsIgnoreCase ·.2.userRole userRole) then
      let _ ← UserMgr.addUserRole userId userRole

/-- Behind the additions. -/
def Added (users : Table XXPortalUser) (target : Option (Int × XXPortalUser))
    (now request : UserRequest) : Prop :=
  Working users target request ∧ Fresh request ∧
    (request.managed = false → Unrefreshed now request)

theorem added_addUserRole {now state : UserRequest} {userId : Int} (userRole : String)
    (added : Added users target now state) :
    Ensures (fun request => request = state) (UserMgr.addUserRole userId userRole)
      (fun _ request => Added users target now request ∧
        (state.managed = true ∨ Adds state.tables state.session userId [userRole] →
          request.managed = true)) fails := by
  by_cases adds : Adds state.tables state.session userId [userRole]
  · exact (working_addUserRole added.1 adds).weaken (fun _ holds => holds)
      (fun _ request ⟨working, managed, fresh⟩ => ⟨⟨working, fresh, fun unmanaged =>
        absurd (managed.symm.trans unmanaged) nofun⟩, fun _ => managed⟩) fun _ holds => holds
  · refine (ensures_addUserRole_of_not_adds adds).weaken (fun _ holds => holds) ?_
      fun _ holds => holds
    rintro _ _ rfl
    exact ⟨added, fun either => either.resolve_right adds⟩

/-- A turn of the second loop. -/
theorem added_turn {now : UserRequest} (userId : Int) (userRole : String) :
    Ensures (Added users target now)
      (do
        if !(now.tables.rolesOf userId).any (equalsIgnoreCase ·.2.userRole userRole) then
          let _ ← UserMgr.addUserRole userId userRole)
      (fun _ => Added users target now) fails := by
  split
  · refine ensures_bind (?_ : Ensures _ _ (fun _ => Added users target now) _)
      fun _ => ensures_pure fun _ holds => holds
    exact fun state added => (added_addUserRole userRole added).weaken (fun _ holds => holds)
      (fun _ _ holds => holds.1) (fun _ holds => holds) state rfl
  · exact ensures_pure fun _ holds => holds

theorem managed_turn {now : UserRequest} (userId : Int) (userRole : String) :
    Ensures (fun request => Added users target now request ∧ request.managed = true)
      (do
        if !(now.tables.rolesOf userId).any (equalsIgnoreCase ·.2.userRole userRole) then
          let _ ← UserMgr.addUserRole userId userRole)
      (fun _ request => Added users target now request ∧ request.managed = true) fails := by
  split
  · refine ensures_bind (?_ : Ensures _ _
      (fun _ request => Added users target now request ∧ request.managed = true) _)
      fun _ => ensures_pure fun _ holds => holds
    exact fun state ⟨added, managed⟩ => (added_addUserRole userRole added).weaken
      (fun _ holds => holds) (fun _ _ holds => ⟨holds.1, holds.2 (.inl managed)⟩)
      (fun _ holds => holds) state rfl
  · exact ensures_pure fun _ holds => holds

theorem added_additions (now : UserRequest) (userId : Int) (roleList : List String) :
    Ensures (Added users target now) (additions now userId roleList)
      (fun _ => Added users target now) fails :=
  ensures_forM fun userRole _ => added_turn userId userRole

/-- A role that is added refreshes the session, whatever else is on the list. -/
theorem managed_additions {now : UserRequest} {userId : Int} {roleList : List String}
    (adds : Adds now.tables now.session userId roleList) :
    Ensures (Added users target now) (additions now userId roleList)
      (fun _ request => Added users target now request ∧ request.managed = true) fails := by
  obtain ⟨userRole, listed, allowed, missing⟩ := adds
  refine ensures_forM_of_mem (fun userRole _ => added_turn userId userRole)
    (fun userRole _ => managed_turn userId userRole) listed ?_
  have new : (!(now.tables.rolesOf userId).any (equalsIgnoreCase ·.2.userRole userRole)) =
      true := by
    rw [Bool.not_eq_true', List.any_eq_false]
    exact fun row among => Bool.eq_false_iff.mp (missing row among)
  rw [if_pos new]
  refine ensures_bind (?_ : Ensures _ _
    (fun _ request => Added users target now request ∧ request.managed = true) _)
    fun _ => ensures_pure fun _ holds => holds
  intro state added
  refine (added_addUserRole userRole added).weaken (fun _ holds => holds)
    (fun _ _ holds => ⟨holds.1, holds.2 ?_⟩) (fun _ holds => holds) state rfl
  cases managed : state.managed with
  | true => exact .inl rfl
  | false =>
      refine .inr ⟨userRole, List.mem_singleton.mpr rfl, ?_, fun row among => ?_⟩
      · rw [(added.2.2 managed).session]
        exact allowed
      · have ⟨here, owned⟩ := UserTables.mem_rolesOf_iff.mp among
        exact missing row (UserTables.mem_rolesOf_iff.mpr
          ⟨(added.2.2 managed).shrunk _ _ here, owned⟩)

/-- `updateRoles` is its two loops. -/
theorem ensures_updateRoles_of {userId : Int} {roleList : List String} {now : UserRequest}
    {mid : UserRequest → Prop} {post : UserRequest → Prop} (some : roleList ≠ [])
    (removes : Ensures (fun request => request = now) (removals now userId roleList)
      (fun _ => mid) fails)
    (adds : Ensures mid (additions now userId roleList) (fun _ => post) fails) :
    Ensures (fun request => request = now) (UserMgr.updateRoles userId roleList)
      (fun _ => post) fails := by
  unfold UserMgr.updateRoles
  split
  · next empty => exact absurd (List.isEmpty_iff.mp empty) some
  · apply ensures_get_bind
    rintro _ rfl
    exact ensures_bind removes fun _ => adds

omit [Platform] [UserText] in
theorem unrefreshed_refl {now : UserRequest} (unmanaged : now.managed = false) :
    Unrefreshed now now := ⟨rfl, unmanaged, fun _ _ stored => stored⟩

/-- The session keeps its rights through `updateRoles`, and has been refreshed when a role was
added. -/
theorem added_updateRoles {userId : Int} {roleList : List String} {now : UserRequest}
    (working : Working users target now) (unmanaged : now.managed = false)
    (keeps : KeepsAdmin now.tables now.session userId roleList) :
    Ensures (fun request => request = now) (UserMgr.updateRoles userId roleList)
      (fun _ request => Added users target now request ∧
        (roleList ≠ [] → Adds now.tables now.session userId roleList → request.managed = true))
      fails := by
  have begun : Added users target now now :=
    ⟨working, fun managed => absurd (managed.symm.trans unmanaged) nofun,
      fun _ => unrefreshed_refl unmanaged⟩
  by_cases empty : roleList = []
  · rw [empty]
    apply ensures_pure
    rintro _ rfl
    exact ⟨begun, fun some => absurd rfl some⟩
  · have removed := @ensures_removals fails _ now (Working users target) userId roleList
      fun _ listed gone allowed request unrefreshed kept =>
        Working.removal empty keeps working unrefreshed kept listed gone allowed
    have removes : Ensures (fun request => request = now) (removals now userId roleList)
        (fun _ => Added users target now) fails := by
      refine removed.weaken ?_ ?_ fun _ holds => holds
      · rintro _ rfl
        exact ⟨unrefreshed_refl unmanaged, working⟩
      · intro _ request ⟨unrefreshed, kept⟩
        exact ⟨kept, fun managed => absurd (managed.symm.trans unrefreshed.managed) nofun,
          fun _ => unrefreshed⟩
    refine ensures_updateRoles_of empty removes ?_
    by_cases adds : Adds now.tables now.session userId roleList
    · exact (managed_additions adds).weaken (fun _ holds => holds)
        (fun _ _ holds => ⟨holds.1, fun _ _ => holds.2⟩) fun _ holds => holds
    · exact (added_additions now userId roleList).weaken (fun _ holds => holds)
        (fun _ _ holds => ⟨holds, fun _ given => absurd given adds⟩) fun _ holds => holds

/-- The role rows of the session's own user are the same. -/
def OwnSame (now request : UserRequest) : Prop :=
  ∀ own, now.session.getUserId = some own → SameRoles own now.tables request.tables

omit [Platform] [UserText] in
theorem ownSame_refl (now : UserRequest) : OwnSame now now := fun _ _ _ _ _ => Iff.rfl

omit [Platform] [UserText] in
/-- Another user's row goes. -/
theorem OwnSame.remove {now request : UserRequest} (same : OwnSame now request) {id : Int}
    (foreign : ∀ row, now.tables.portalUserRoles.get? id = some row →
      now.session.getUserId ≠ some row.userId) :
    OwnSame now
      { request with
        tables :=
          { request.tables with
            portalUserRoles := request.tables.portalUserRoles.remove id } } := by
  intro own session other row owned
  change (request.tables.portalUserRoles.remove id).get? other = some row ↔ _
  rw [Table.get?_remove, ← same own session other row owned]
  split
  · next here =>
    refine iff_of_false nofun fun stored => ?_
    rw [same own session other row owned, here] at stored
    exact foreign row stored (owned ▸ session)
  · exact Iff.rfl

/-- Nothing of the session's own user changes when no role is added and none of its own is
removed. -/
theorem ownSame_updateRoles {userId : Int} {roleList : List String} {now : UserRequest}
    (unmanaged : now.managed = false) (idle : ¬Adds now.tables now.session userId roleList)
    (kept : now.session.getUserId = some userId → ¬Removes now.tables now.session userId roleList) :
    Ensures (fun request => request = now) (UserMgr.updateRoles userId roleList)
      (fun _ request => request.managed = false ∧ OwnSame now request) fails := by
  by_cases empty : roleList = []
  · rw [empty]
    apply ensures_pure
    rintro _ rfl
    exact ⟨unmanaged, ownSame_refl _⟩
  · have removed := @ensures_removals fails _ now (OwnSame now) userId roleList
      fun gjUserRole listed gone allowed request _ same => by
        refine same.remove fun row stored session => ?_
        obtain ⟨here, owned⟩ := UserTables.mem_rolesOf_iff.mp listed
        obtain rfl := Option.some.inj (here.symm.trans stored)
        refine kept (owned ▸ session) ⟨gjUserRole, listed, allowed, fun userRole among => ?_⟩
        rw [unlisted, Bool.not_eq_true'] at gone
        exact Bool.eq_false_iff.mpr (List.any_eq_false.mp gone userRole among)
    have removes : Ensures (fun request => request = now) (removals now userId roleList)
        (fun _ request => Unrefreshed now request ∧ OwnSame now request) fails := by
      refine removed.strengthen ?_
      rintro _ rfl
      exact ⟨unrefreshed_refl unmanaged, ownSame_refl _⟩
    have added : Ensures (fun request => Unrefreshed now request ∧ OwnSame now request)
        (additions now userId roleList)
        (fun _ request => Unrefreshed now request ∧ OwnSame now request) fails := by
      apply ensures_forM
      intro userRole listed
      split
      · next new =>
        refine ensures_bind (?_ : Ensures _ _
          (fun _ request => Unrefreshed now request ∧ OwnSame now request) _)
          fun _ => ensures_pure fun _ holds => holds
        intro state holds
        have refused : ¬Adds state.tables state.session userId [userRole] := by
          intro ⟨_, single, allowed, _⟩
          obtain rfl := List.mem_singleton.mp single
          rw [holds.1.session] at allowed
          refine idle ⟨_, listed, allowed, fun row among => ?_⟩
          rw [Bool.not_eq_true'] at new
          exact Bool.eq_false_iff.mpr (List.any_eq_false.mp new row among)
        refine (ensures_addUserRole_of_not_adds refused).weaken (fun _ same => same) ?_
          (fun _ holds => holds) state rfl
        rintro _ _ rfl
        exact holds
      · exact ensures_pure fun _ holds => holds
    exact (ensures_updateRoles_of empty removes added).weaken (fun _ holds => holds)
      (fun _ _ holds => ⟨holds.1.managed, holds.2⟩) fun _ holds => holds

omit [Platform] [UserText] in
/-- A record that keeps the login id of the session's user, or is another one. -/
theorem backed_of_edited {request : UserRequest} (working : Working users target request)
    {userId : Int} {row : XXPortalUser}
    (named : ∀ own, target = some own → own.1 = userId → row.loginId = own.2.loginId)
    {session : UserSessionBase} (flag : session.userAdmin = request.session.userAdmin)
    (login : session.getLoginId = request.session.getLoginId ∨
      ∃ own, target = some own ∧ own.1 = userId ∧ session.getLoginId = row.loginId)
    (keys : UserTables.keepsKeys
      { request.tables with portalUsers := request.tables.portalUsers.replace userId row }
      userId row = true) :
    Backed { request.tables with portalUsers := request.tables.portalUsers.replace userId row }
      session := by
  intro set
  obtain ⟨own, same, admin⟩ := working.backed (flag ▸ set)
  have found := working.found.trans same
  obtain ⟨stored, carried, given⟩ := UserTables.of_findByLoginId found
  have kept : session.getLoginId = request.session.getLoginId := by
    rcases login with kept | ⟨other, again, here, edited⟩
    · exact kept
    · obtain rfl := Option.some.inj (same.symm.trans again)
      rw [edited, named own same here, carried]
  have passes : (row.loginId == request.session.getLoginId) = decide (userId = own.1) := by
    by_cases here : userId = own.1
    · rw [named own same here.symm, carried, beq_self_eq_true, decide_eq_true here]
    · rw [decide_eq_false here]
      refine beq_false_of_ne fun taken => here ?_
      have there : (request.tables.portalUsers.replace userId row).get? own.1 = some own.2 := by
        rw [Table.get?_replace_of_ne fun back => here back.symm, stored]
      exact (UserTables.eq_of_keepsKeys keys there (taken ▸ given) (carried.trans taken.symm)).symm
  refine ⟨(own.1, if userId = own.1 then row else own.2), ?_, admin⟩
  rw [kept]
  unfold UserTables.findByLoginId at found ⊢
  split at found
  · cases found
  · next text =>
    rw [if_neg text]
    exact Table.find?_replace found passes

/-- The record of a user was replaced, in the session too when it is the session's. -/
def RecordReplaced (users : Table XXPortalUser) (target : Option (Int × XXPortalUser))
    (userId : Int) (row : XXPortalUser) (after : UserRequest) : Prop :=
  ∃ request, Working users target request ∧
    after.tables =
      { request.tables with portalUsers := request.tables.portalUsers.replace userId row } ∧
    after.session.userAdmin = request.session.userAdmin ∧
    (after.session.getLoginId = request.session.getLoginId ∨
      ∃ own, target = some own ∧ own.1 = userId ∧ after.session.getLoginId = row.loginId)

omit [Platform] [UserText] in
theorem backed_updatePortalUser {userId : Int} {row : XXPortalUser}
    (named : ∀ own, target = some own → own.1 = userId → row.loginId = own.2.loginId) :
    Ensures (Working users target) (UserMgr.updatePortalUser userId row)
      (fun _ request => Backed request.tables request.session) fun _ => True := by
  refine ensures_modify_bind (?_ : ∀ _, _ → RecordReplaced users target userId row _) ?_
  · intro request working
    refine ⟨request, working, rfl, ?_, ?_⟩
    · dsimp only
      split
      · rfl
      · rfl
    · dsimp only
      split
      · next own =>
        obtain ⟨managed, mine⟩ := Bool.and_eq_true_iff.mp own
        have session := working.fresh managed
        obtain ⟨user, held, here⟩ := Option.map_eq_some_iff.mp (eq_of_beq mine)
        exact .inr ⟨user, session.symm.trans held, here, rfl⟩
      · exact .inl rfl
  · apply ensures_get_bind
    intro now ⟨request, working, tables, flag, login⟩
    split
    · next keys =>
      apply ensures_pure
      rintro _ rfl
      rw [tables] at keys ⊢
      exact backed_of_edited working named flag login keys
    · exact ensures_throw fun _ _ => trivial

omit [Platform] [UserText] in
/-- The access check changes nothing. -/
theorem ensures_checkAccess_keeps {pre : UserRequest → Prop}
    (gjUser : Option (Int × XXPortalUser)) :
    Ensures pre (UserMgr.checkAccess gjUser) (fun _ => pre) fun _ => True := by
  unfold UserMgr.checkAccess
  split
  · exact ensures_throw fun _ _ => trivial
  · apply ensures_get_bind
    intro now holds
    split
    · exact ensures_pure fun request same => same ▸ holds
    · split
      · exact ensures_throw fun _ _ => trivial
      · split
        · exact ensures_pure fun request same => same ▸ holds
        · exact ensures_throw fun _ _ => trivial

/-- The session follows the roles that are stored, or it was not refreshed and its own user has
the same. -/
structure Faithful (now request : UserRequest) : Prop where
  fresh : Fresh request
  idle : request.managed = false → OwnSame now request

theorem faithful_updateUser {now : UserRequest} (unmanaged : now.managed = false) (guid : String)
    (userProfile : VXPortalUser)
    (allowed : RoleCall.Allowed now.tables now.session (.updateUser guid userProfile)) :
    Ensures (fun request => request = now) (UserMgr.updateUser guid userProfile)
      (fun _ => Faithful now) fun _ => True := by
  have begun : Faithful now now :=
    ⟨fun managed => absurd (managed.symm.trans unmanaged) nofun, fun _ => ownSame_refl now⟩
  apply ensures_get_bind
  rintro now rfl
  split
  · apply ensures_pure
    rintro _ rfl
    exact begun
  · next userId gjUser found =>
    obtain ⟨backed, keeps, login⟩ := allowed (userId, gjUser) found
    have working : Working now.tables.portalUsers
        (now.tables.findByLoginId now.session.getLoginId) now :=
      ⟨rfl, rfl, backed, fun managed => absurd (managed.symm.trans unmanaged) nofun⟩
    have named : ∀ own, now.tables.findByLoginId now.session.getLoginId = some own →
        own.1 = userId → userProfile.loginId = own.2.loginId := by
      intro own same here
      rw [login own same here]
      obtain ⟨id, given, located⟩ := Option.bind_eq_some_iff.mp found
      obtain ⟨entry, stored, pair⟩ := Option.map_eq_some_iff.mp located
      obtain ⟨rfl, rfl⟩ := Prod.mk.inj pair
      have ⟨other, _, _⟩ := UserTables.of_findByLoginId same
      rw [here, stored] at other
      rw [Option.some.inj other]
    apply ensures_bind (ensures_checkAccess_keeps _)
    intro _
    apply ensures_bind (ensures_checkEmailAddress (fun _ _ => trivial) guid userProfile)
    intro emailAddress
    apply ensures_bind (added_updateRoles working unmanaged keeps)
    intro _
    refine ensures_bind (Ensures.strengthen (backed_updatePortalUser ?_)
      fun _ holds => holds.1.1) ?_
    · exact named
    intro _
    apply ensures_bind follows_reset
    intro _
    refine ensures_pure fun request ⟨managed, follows⟩ => ⟨fun _ => follows, fun idle => ?_⟩
    exact absurd (managed.symm.trans idle) nofun

omit [UserText] in
/-- A removal that is allowed is not one of the session's own user. -/
theorem faithful_deleteUserRole {now : UserRequest} (unmanaged : now.managed = false)
    {gjUserRole : Int × XXPortalUserRole}
    (allowed : ∀ row, now.tables.portalUserRoles.get? gjUserRole.1 = some row →
      now.session.getUserId = some row.userId → ¬MayChange now.session gjUserRole.2.userRole) :
    Ensures (fun request => request = now) (UserMgr.deleteUserRole gjUserRole)
      (fun _ => Faithful now) fails := by
  have calm : ∀ request : UserRequest, request.managed = false → OwnSame now request →
      Faithful now request := fun request idle same =>
    ⟨fun managed => absurd (managed.symm.trans idle) nofun, fun _ => same⟩
  apply ensures_get_bind
  rintro now rfl
  split
  · apply ensures_pure
    rintro _ rfl
    exact calm _ unmanaged (ownSame_refl _)
  · next permitted =>
    refine ensures_modify_bind (?_ : ∀ _, _ → Faithful now _) (ensures_pure fun _ holds => holds)
    rintro request rfl
    refine calm _ unmanaged ((ownSame_refl request).remove fun row stored own => ?_)
    refine allowed row stored own ?_
    rwa [Bool.and_eq_true, not_and_or, Bool.not_eq_true', Bool.not_eq_true',
      Bool.not_eq_false, Bool.not_eq_false] at permitted

/-- An allowed call leaves a session that follows the stored roles, or does not concern it. -/
theorem faithful_serving {now : UserRequest} (unmanaged : now.managed = false) (call : RoleCall)
    (allowed : call.Allowed now.tables now.session) :
    Ensures (fun request => request = now) call.serving (fun _ => Faithful now)
      fun _ => True := by
  have begun : Faithful now now :=
    ⟨fun managed => absurd (managed.symm.trans unmanaged) nofun, fun _ => ownSame_refl now⟩
  have working : Backed now.tables now.session → Working now.tables.portalUsers
      (now.tables.findByLoginId now.session.getLoginId) now := fun backed =>
    ⟨rfl, rfl, backed, fun managed => absurd (managed.symm.trans unmanaged) nofun⟩
  have done : ∀ {α : Type} {work : Serving α},
      Ensures (fun request => request = now) work (fun _ => Faithful now) (fun _ => True) →
      Ensures (fun request => request = now) (do let _ ← work) (fun _ => Faithful now)
        fun _ => True :=
    fun served => ensures_bind served fun _ => ensures_pure fun _ holds => holds
  cases call with
  | resetUserSessionForProfiles =>
      refine follows_reset.weaken ?_ ?_ fun _ holds => holds
      · rintro _ rfl
        exact allowed
      · exact fun _ request ⟨managed, follows⟩ =>
          ⟨fun _ => follows, fun idle => absurd (managed.symm.trans idle) nofun⟩
  | addUserRole userId userRole =>
      apply done
      by_cases adds : Adds now.tables now.session userId [userRole]
      · exact (working_addUserRole (working (allowed adds)) adds).weaken (fun _ holds => holds)
          (fun _ request ⟨_, managed, fresh⟩ =>
            ⟨fresh, fun idle => absurd (managed.symm.trans idle) nofun⟩) fun _ holds => holds
      · exact (ensures_addUserRole_of_not_adds adds).weaken (fun _ holds => holds)
          (by rintro _ _ rfl; exact begun) fun _ holds => holds
  | deleteUserRole userId userRole =>
      apply done
      apply ensures_get_bind
      rintro now rfl
      split
      · apply ensures_pure
        rintro _ rfl
        exact begun
      · next gjUserRole found =>
        apply faithful_deleteUserRole unmanaged
        intro row stored own
        have ⟨here, owned⟩ := UserTables.mem_rolesOf_iff.mp (List.mem_of_find?_eq_some found)
        obtain rfl := Option.some.inj (here.symm.trans stored)
        exact allowed (owned ▸ own) gjUserRole found
  | deleteUserRoleRow gjUserRole => exact done (faithful_deleteUserRole unmanaged allowed)
  | setUserRoles userId roleList =>
      by_cases empty : roleList = []
      · rw [empty]
        apply ensures_pure
        rintro _ rfl
        exact begun
      · by_cases adds : Adds now.tables now.session userId roleList
        · obtain ⟨backed, keeps⟩ := (allowed empty).1 adds
          refine (added_updateRoles (working backed) unmanaged keeps).weaken (fun _ holds => holds)
            (fun _ request ⟨added, managed⟩ => ?_) fun _ holds => holds
          exact ⟨added.2.1, fun idle => absurd ((managed empty adds).symm.trans idle) nofun⟩
        · refine (ownSame_updateRoles unmanaged adds ((allowed empty).2 adds)).weaken
            (fun _ holds => holds) (fun _ request ⟨idle, same⟩ => ?_) fun _ holds => holds
          exact ⟨fun managed => absurd (managed.symm.trans idle) nofun, fun _ => same⟩
  | updateUser guid userProfile =>
      exact done (faithful_updateUser unmanaged guid userProfile allowed)

end Roles

namespace Portal

variable [Platform] [UserText] {ι : Type} [DecidableEq ι]

/-- A call through a session. -/
def roleStep (portal : Portal ι) (request : ι × RoleCall) : Except String PUnit × Portal ι :=
  let (answer, after) := request.2.served portal.tables (portal.sessions request.1)
  (answer, ⟨after.tables, Function.update portal.sessions request.1 after.session⟩)

/-- When a call that returns refreshed its session, or changed a role of the session's own user,
the session follows the stored roles. -/
def RightsFollow (portal : Portal ι) (request : ι × RoleCall) : Prop :=
  (portal.roleStep request).1 = .ok ⟨⟩ →
    Concerns portal.tables (portal.sessions request.1)
      (request.2.served portal.tables (portal.sessions request.1)).2 →
    ((portal.roleStep request).2.sessions request.1).Follows (portal.roleStep request).2.tables

theorem rightsFollow_of_allowed {portal : Portal ι} {request : ι × RoleCall}
    (allowed : request.2.Allowed portal.tables (portal.sessions request.1)) :
    portal.RightsFollow request := by
  intro returned concerns
  have faithful : Faithful { tables := portal.tables, session := portal.sessions request.1 }
      (request.2.served portal.tables (portal.sessions request.1)).2 :=
    (faithful_serving rfl request.2 allowed).of_transactional_ok rfl returned
  have same : (portal.roleStep request).2.sessions request.1 =
      (request.2.served portal.tables (portal.sessions request.1)).2.session :=
    Function.update_self request.1 _ _
  rw [same]
  rcases concerns with managed | ⟨own, session, changed⟩
  · exact faithful.fresh managed
  · cases idle : (request.2.served portal.tables (portal.sessions request.1)).2.managed with
    | true => exact faithful.fresh idle
    | false => exact absurd (faithful.idle idle own session) changed

/-- In a run of calls that are allowed each in its state, the sessions follow the stored roles. -/
theorem rights_follow (start : Portal ι) (requests : List (ι × RoleCall))
    (allowed : ∀ done request rest, requests = done ++ request :: rest →
      request.2.Allowed (Run.final roleStep start done).tables
        ((Run.final roleStep start done).sessions request.1)) :
    ∀ done request rest, requests = done ++ request :: rest →
      (Run.final roleStep start done).RightsFollow request :=
  fun done request rest split => rightsFollow_of_allowed (allowed done request rest split)

end Portal

section Slip

attribute [local instance] Platform.ascii UserText.ascii

/-- Two administrators, each with a session. -/
def administrators : Portal Bool where
  tables :=
    { portalUsers := (Table.empty.insert { loginId := some "a" }).insert { loginId := some "b" }
      portalUserRoles := (Table.empty.insert ⟨1, ROLE_SYS_ADMIN⟩).insert ⟨2, ROLE_SYS_ADMIN⟩
      users := Table.empty
      groups := Table.empty
      groupUsers := Table.empty }
  sessions first :=
    { xXPortalUser :=
        if first then some (1, { loginId := some "a" }) else some (2, { loginId := some "b" })
      userAdmin := true
      userRoleList := [ROLE_SYS_ADMIN] }

theorem backed_administrators :
    Backed administrators.tables (administrators.sessions true) := fun _ =>
  ⟨(1, { loginId := some "a" }), by decide +kernel, 1, by decide +kernel⟩

/-- An administrator gives the other one a role. -/
theorem rights_of_givesRole :
    administrators.RightsFollow (true, .setUserRoles 2 [ROLE_SYS_ADMIN, ROLE_USER]) := by
  refine Portal.rights_follow administrators [(true, .setUserRoles 2 [ROLE_SYS_ADMIN, ROLE_USER])]
    (fun done request rest split => ?_) [] _ [] rfl
  cases done with
  | cons first done => simp at split
  | nil =>
      obtain ⟨rfl, -⟩ := List.cons.inj split
      refine fun _ => ⟨fun _ => ⟨backed_administrators, fun _ _ user found here => ?_⟩,
        fun _ own => ?_⟩
      · have mine : administrators.tables.findByLoginId
            (administrators.sessions true).getLoginId = some (1, { loginId := some "a" }) := by
          decide +kernel
        obtain rfl := Option.some.inj (mine.symm.trans found)
        exact absurd here (by decide)
      · exact absurd own (by decide)

/-- One administrator takes the role from the other, whose session is then refreshed. -/
def takesRole : List (Bool × RoleCall) :=
  [(true, .deleteUserRole 2 ROLE_SYS_ADMIN), (false, .resetUserSessionForProfiles)]

/-- The refreshed session lists no role and is still an administrator's. -/
theorem not_rightsFollow_takesRole :
    ((Run.final Portal.roleStep administrators takesRole).sessions false).userRoleList = [] ∧
      ((Run.final Portal.roleStep administrators takesRole).sessions false).userAdmin = true ∧
      ¬∀ done request rest, takesRole = done ++ request :: rest →
        (Run.final Portal.roleStep administrators done).RightsFollow request := by
  have flag : ((Run.final Portal.roleStep administrators takesRole).sessions false).userAdmin =
      true := by decide +kernel
  refine ⟨by decide +kernel, flag, fun always => ?_⟩
  have follows := always [(true, .deleteUserRole 2 ROLE_SYS_ADMIN)]
    (false, .resetUserSessionForProfiles) [] rfl (by decide +kernel) (.inl (by decide +kernel))
  exact absurd (follows.admin.mp flag) (by decide +kernel)

end Slip

end Ranger

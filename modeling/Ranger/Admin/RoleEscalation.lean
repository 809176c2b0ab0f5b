import Ranger.Admin.CallerFrame
import Ranger.Admin.GroupUsers
import Ranger.Foundation.Run

/-! # Roles under the calls of users

Users without the role of an administrator send calls through their sessions. The roles
that are not public stay as they are, and so do the role rows of other users, in every run
in which a session never carries the login id of another user.
-/

namespace Ranger

open Foundation
open Foundation.Throwing

section Policies

variable [Platform] {ordinary : Prop} {caller : Int} {start : UserTables}

/-- Users and groups of the policies may change. -/
theorem Confined.setPolicies {request : UserRequest}
    (confined : Confined ordinary caller start request) (users : Table XXUser)
    (groups : Table XXGroup) (groupUsers : Table XXGroupUser) :
    Confined ordinary caller start
      { request with
        tables :=
          { request.tables with users := users, groups := groups, groupUsers := groupUsers } } where
  others := confined.others
  ownSession := confined.ownSession
  ownLogin := confined.ownLogin
  unpromoted := confined.unpromoted

/-- The user of the policies was edited, and nothing else of them. -/
structure UserEdited (ordinary : Prop) (caller : Int) (start : UserTables) (vXUser : VXUser)
    (id : Int) (request : UserRequest) : Prop where
  confined : Confined ordinary caller start request
  given : vXUser.id = some id
  edited : ∃ row name description, start.users.get? id = some row ∧
    vXUser.name = some name ∧ vXUser.description = some description ∧
    request.tables.users =
      start.users.replace id ⟨name, description, vXUser.isVisible, vXUser.credStoreId⟩
  groups : request.tables.groups = start.groups
  groupUsers : request.tables.groupUsers = start.groupUsers

theorem ensures_updateResource (vXUser : VXUser) :
    Ensures (PortalWork ordinary caller start) (XUserService.updateResource vXUser)
      (UserEdited ordinary caller start vXUser) (SessionKept ordinary caller) := by
  apply ensures_get_bind
  rintro now ⟨confined, users, groups, groupUsers⟩
  split
  · exact ensures_throw fun state isNow => isNow ▸ confined.sessionKept
  · next id row found =>
      obtain ⟨given, asked, located⟩ := Option.bind_eq_some_iff.mp found
      obtain ⟨entry, stored, same⟩ := Option.map_eq_some_iff.mp located
      obtain ⟨rfl, rfl⟩ := Prod.mk.inj same
      split
      · exact ensures_throw fun state isNow => isNow ▸ confined.sessionKept
      · split
        · next name description named described =>
            refine ensures_modify_bind
              (?_ : ∀ _, _ → UserEdited ordinary caller start vXUser given _)
              (ensures_pure fun _ holds => holds)
            rintro state rfl
            refine ⟨confined.setPolicies _ _ _, asked, ?_, groups, groupUsers⟩
            rw [users] at stored ⊢
            exact ⟨entry, name, description, stored, named, described, rfl⟩
        · exact ensures_throw fun state isNow => isNow ▸ confined.sessionKept

/-- The group was edited, and nothing else of the policies. -/
structure GroupEdited (ordinary : Prop) (caller : Int) (start : UserTables) (vXGroup : VXGroup)
    (request : UserRequest) : Prop where
  confined : Confined ordinary caller start request
  edited : ∃ id row name description, vXGroup.id = some id ∧ start.groups.get? id = some row ∧
    vXGroup.name = some name ∧
    request.tables.groups =
      start.groups.replace id
        ⟨name, description, vXGroup.isVisible, vXGroup.groupType, vXGroup.credStoreId⟩
  users : request.tables.users = start.users
  groupUsers : request.tables.groupUsers = start.groupUsers

theorem ensures_updateXGroup (vXGroup : VXGroup) :
    Ensures (Begins ordinary caller start) (XUserMgr.updateXGroup vXGroup)
      (fun _ => GroupEdited ordinary caller start vXGroup) (SessionKept ordinary caller) := by
  apply ensures_get_bind
  intro now begins
  obtain ⟨⟨confined, users, groups, groupUsers⟩, _⟩ := begins
  have thrown : ∀ message, Ensures (fun state => state = now)
      (throw message : Serving PUnit) (fun _ => GroupEdited ordinary caller start vXGroup)
      (SessionKept ordinary caller) :=
    fun message => ensures_throw fun state isNow => isNow ▸ confined.sessionKept
  split
  · exact thrown _
  · next id row found =>
      obtain ⟨given, asked, located⟩ := Option.bind_eq_some_iff.mp found
      obtain ⟨entry, stored, same⟩ := Option.map_eq_some_iff.mp located
      obtain ⟨rfl, rfl⟩ := Prod.mk.inj same
      split
      · exact thrown _
      · next name named =>
          split
          · exact thrown _
          · split
            · exact thrown _
            · next description described =>
                apply ensures_modify
                rintro state rfl
                refine ⟨confined.setPolicies _ _ _, ?_, users, groupUsers⟩
                rw [groups] at stored ⊢
                exact ⟨given, entry, name, description, asked, stored, named, rfl⟩

theorem confined_logGroupUser (logged : Bool) (row : XXGroupUser) :
    Ensures (Confined ordinary caller start) (XUserMgr.logGroupUser logged row)
      (fun _ => Confined ordinary caller start) (SessionKept ordinary caller) := by
  apply ensures_get_bind
  intro now confined
  split
  · exact ensures_pure fun state isNow => isNow ▸ confined
  · exact ensures_throw fun state isNow => isNow ▸ confined.sessionKept

theorem confined_updateGroupUsers (logged : Bool) (userId : Int)
    (groupIdList : List (Option Int)) :
    Ensures (Confined ordinary caller start)
      (XUserMgr.updateGroupUsers logged userId groupIdList)
      (fun _ => Confined ordinary caller start) (SessionKept ordinary caller) := by
  apply ensures_get_bind
  intro now confined
  have joined : Ensures (Confined ordinary caller start)
      (groupIdList.forM
        (XUserMgr.joinGroup logged userId (now.tables.groupUsersOf userId)))
      (fun _ => Confined ordinary caller start) (SessionKept ordinary caller) := by
    apply ensures_forM
    intro groupId _
    unfold XUserMgr.joinGroup
    split
    · split
      · exact ensures_throw fun _ holds => holds.sessionKept
      · exact ensures_throw fun _ holds => holds.sessionKept
    · split
      · exact ensures_pure fun _ holds => holds
      · apply ensures_bind _ fun row => confined_logGroupUser logged row
        apply ensures_get_bind
        intro now confined
        split
        · exact ensures_throw fun state isNow => isNow ▸ confined.sessionKept
        · refine ensures_modify_bind (?_ : ∀ _, _ → Confined ordinary caller start _)
            (ensures_pure fun _ holds => holds)
          rintro state rfl
          exact confined.setPolicies _ _ _
  apply ensures_bind (joined.at_state confined)
  intro _
  apply ensures_bind (ensures_forM fun row _ => confined_logGroupUser logged row.2)
  intro _
  apply ensures_forM
  intro row _
  exact ensures_modify fun _ holds => holds.setPolicies _ _ _

variable [UserText]

theorem confined_updateXUser (plain : ordinary → ¬ start.HasRole caller ROLE_SYS_ADMIN)
    (guid : String) (vXUser : VXUser) :
    Ensures (Begins ordinary caller start) (XUserMgr.updateXUser guid vXUser)
      (fun _ => Confined ordinary caller start) (SessionKept ordinary caller) := by
  apply ensures_bind (ensures_getUserProfileByLoginId Begins.sessionKept vXUser.name)
  intro oldUserProfile
  apply ensures_bind (ensures_updateUserWithPass plain guid _)
  intro _
  apply ensures_bind (ensures_updateResource vXUser)
  intro userId
  split
  · exact ensures_pure fun _ edited => edited.confined
  · exact (confined_updateGroupUsers _ _ _).strengthen fun _ edited => edited.confined

/-- A call of a user who is no administrator. -/
theorem confined_serving (plain : ordinary → ¬ start.HasRole caller ROLE_SYS_ADMIN)
    (call : UserCall) :
    Ensures (Begins ordinary caller start) call.serving
      (fun _ => Confined ordinary caller start) (SessionKept ordinary caller) := by
  cases call with
  | update guid userProfile =>
      exact (ensures_update plain guid userProfile).weaken (fun _ holds => holds)
        (fun _ _ holds => holds.1) (fun _ holds => holds)
  | setUserRoles userId roleList =>
      exact (ensures_setUserRoles plain userId roleList).weaken (fun _ holds => holds)
        (fun _ _ holds => holds.1) (fun _ holds => holds)
  | updateXUser guid vXUser => exact confined_updateXUser plain guid vXUser
  | updateXGroup vXGroup =>
      exact (ensures_updateXGroup vXGroup).weaken (fun _ holds => holds)
        (fun _ _ edited => edited.confined) (fun _ holds => holds)

end Policies

section Served

variable [Platform] {ordinary : Prop} {caller : Int} {start : UserTables}

/-- What a call leaves of the portal, whether it throws or not. -/
structure CallKept (ordinary : Prop) (caller : Int) (start : UserTables)
    (request : UserRequest) : Prop where
  others : ∀ id, id ≠ caller →
    request.tables.portalUsers.get? id = start.portalUsers.get? id
  session : SessionKept ordinary caller request
  roles : ordinary → RolesKept caller start.portalUserRoles request.tables.portalUserRoles

theorem Confined.callKept {request : UserRequest}
    (confined : Confined ordinary caller start request) :
    CallKept ordinary caller start request :=
  ⟨confined.others, confined.sessionKept, fun given => (confined.unpromoted given).2⟩

variable [UserText] {session : UserSessionBase}

theorem callKept_of_served (plain : ordinary → ¬ start.HasRole caller ROLE_SYS_ADMIN)
    (flag : session.userAdmin = false) (own : session.IsOf caller)
    (login : start.OwnLogin session caller) (call : UserCall) :
    CallKept ordinary caller start (call.served start session).2 := by
  have begins : Begins ordinary caller start { tables := start, session := session } :=
    ⟨⟨⟨fun _ _ => rfl, own, login, fun _ => ⟨flag, fun _ _ _ => Iff.rfl⟩⟩, rfl, rfl, rfl⟩, flag⟩
  apply ensures_transactional begins (confined_serving plain call)
  · exact fun _ _ confined => confined.callKept
  · intro next kept
    exact ⟨fun _ _ => rfl, kept, fun _ _ _ _ => Iff.rfl⟩

end Served

/-- The portal with the sessions of its users. -/
@[ext] structure Portal (ι : Type) where
  tables : UserTables
  sessions : ι → UserSessionBase

namespace Portal

variable [Platform] [UserText] {ι : Type} [DecidableEq ι]

/-- A call through a session. -/
def step (portal : Portal ι) (request : ι × UserCall) : Except String PUnit × Portal ι :=
  let (answer, after) := request.2.served portal.tables (portal.sessions request.1)
  (answer, ⟨after.tables, Function.update portal.sessions request.1 after.session⟩)

theorem step_tables (portal : Portal ι) (user : ι) (call : UserCall) :
    (portal.step (user, call)).2.tables =
      (call.served portal.tables (portal.sessions user)).2.tables := rfl

theorem step_sessions (portal : Portal ι) (user : ι) (call : UserCall) (other : ι) :
    (portal.step (user, call)).2.sessions other =
      if other = user then (call.served portal.tables (portal.sessions user)).2.session
      else portal.sessions other :=
  Function.update_apply portal.sessions user _ other

/-- The sessions are not those of administrators. -/
structure Ordinary (caller : ι → Int) (portal : Portal ι) : Prop where
  flags : ∀ user, (portal.sessions user).userAdmin = false
  users : ∀ user, (portal.sessions user).IsOf (caller user)
  roles : ∀ user, ¬ portal.tables.HasRole (caller user) ROLE_SYS_ADMIN

omit [UserText] [DecidableEq ι] in
theorem hasRole_iff_of_kept {caller : Int} {before after : UserTables}
    (kept : RolesKept caller before.portalUserRoles after.portalUserRoles) {userRole : String}
    (reserved : UserMgr.isPublicRole userRole = false) (userId : Int) :
    after.HasRole userId userRole ↔ before.HasRole userId userRole :=
  exists_congr fun id => kept id ⟨userId, userRole⟩ (.inr reserved)

/-- Roles that are not public are held by the same users, the flags are not set, and no call
touched a role row of another user than its caller. -/
structure Unescalated (caller : ι → Int) (start : Portal ι) (requests : List (ι × UserCall)) :
    Prop where
  flags : ∀ done rest, requests = done ++ rest →
    ∀ user, ((Run.final step start done).sessions user).userAdmin = false
  roles : ∀ done rest, requests = done ++ rest →
    ∀ userId userRole, UserMgr.isPublicRole userRole = false →
      ((Run.final step start done).tables.HasRole userId userRole ↔
        start.tables.HasRole userId userRole)
  rows : ∀ done user call rest, requests = done ++ (user, call) :: rest →
    ∀ id row, row.userId ≠ caller user →
      ((Run.final step start (done ++ [(user, call)])).tables.portalUserRoles.get? id = some row ↔
        (Run.final step start done).tables.portalUserRoles.get? id = some row)

/-- No user but its own has the login id that the session of a call carries. -/
def SendsOwnLogin (caller : ι → Int) (portal : Portal ι) (request : ι × UserCall) : Prop :=
  portal.tables.OwnLogin (portal.sessions request.1) (caller request.1)

/-- That holds before every call of a run. -/
def OwnLogins (caller : ι → Int) (start : Portal ι) (requests : List (ι × UserCall)) : Prop :=
  ∀ done request rest, requests = done ++ request :: rest →
    SendsOwnLogin caller (Run.final step start done) request

omit [DecidableEq ι] in
theorem callKept_of_step {caller : ι → Int} {portal : Portal ι}
    (ordinary : Ordinary caller portal) {user : ι}
    (login : portal.tables.OwnLogin (portal.sessions user) (caller user)) (call : UserCall) :
    CallKept True (caller user) portal.tables
      (call.served portal.tables (portal.sessions user)).2 :=
  callKept_of_served (fun _ => ordinary.roles user) (ordinary.flags user) (ordinary.users user)
    login call

theorem Ordinary.step {caller : ι → Int} {portal : Portal ι} (ordinary : Ordinary caller portal)
    {user : ι} (login : portal.tables.OwnLogin (portal.sessions user) (caller user))
    (call : UserCall) : Ordinary caller (portal.step (user, call)).2 := by
  have kept := callKept_of_step ordinary login call
  refine ⟨?_, ?_, ?_⟩
  · intro other
    rw [step_sessions]
    split
    · exact kept.session.2 trivial
    · exact ordinary.flags other
  · intro other
    rw [step_sessions]
    split
    · next same => exact same ▸ kept.session.1
    · exact ordinary.users other
  · intro other
    have held := hasRole_iff_of_kept (kept.roles trivial) not_isPublicRole_sysAdmin (caller other)
    exact fun holds => ordinary.roles other (held.mp holds)

/-- What holds throughout: the sessions are ordinary and the roles held as at the start. -/
def HoldsAsAtStart (caller : ι → Int) (start portal : Portal ι) : Prop :=
  Ordinary caller portal ∧ ∀ userId userRole, UserMgr.isPublicRole userRole = false →
    (portal.tables.HasRole userId userRole ↔ start.tables.HasRole userId userRole)

theorem HoldsAsAtStart.step {caller : ι → Int} {start portal : Portal ι}
    (holds : HoldsAsAtStart caller start portal) {request : ι × UserCall}
    (login : SendsOwnLogin caller portal request) :
    HoldsAsAtStart caller start (portal.step request).2 := by
  refine ⟨holds.1.step login request.2, ?_⟩
  intro userId userRole reserved
  have kept := (callKept_of_step holds.1 login request.2).roles trivial
  exact (hasRole_iff_of_kept kept reserved userId).trans (holds.2 userId userRole reserved)

/-- **Roles are not escalated.** When users without the role of an administrator send calls,
each through a session that carries no login id of another user, the holders of the roles
that are not public stay the same, no session becomes that of an administrator, and a call
changes the role rows of its caller only. -/
theorem unescalated_of_ownLogins {caller : ι → Int} {start : Portal ι}
    (ordinary : Ordinary caller start) (requests : List (ι × UserCall))
    (logins : OwnLogins caller start requests) : Unescalated caller start requests := by
  have begun : HoldsAsAtStart caller start start := ⟨ordinary, fun _ _ _ => Iff.rfl⟩
  have always := @Run.forall_prefix_of_allowed _ _ _ step (HoldsAsAtStart caller start)
    (SendsOwnLogin caller) (fun _ _ holds login => holds.step login) start begun requests logins
  refine ⟨?_, ?_, ?_⟩
  · exact fun done rest split => (always done rest split).1.flags
  · exact fun done rest split => (always done rest split).2
  · intro done user call rest split id row foreign
    have before := (always done _ split).1
    have kept := (callKept_of_step before (logins done (user, call) rest split) call).roles trivial
    rw [Run.final_append]
    exact kept id row (.inl foreign)

end Portal

section Slip

attribute [local instance] Platform.ascii UserText.ascii

/-- The portal of an administrator and a user whose login ids differ in letter case. -/
def lookalikes : Portal Unit where
  tables :=
    { portalUsers :=
        (Table.empty.insert { loginId := some "Admin", emailAddress := some "a" }).insert
          { loginId := some "admin", emailAddress := some "b" }
      portalUserRoles := (Table.empty.insert ⟨1, ROLE_SYS_ADMIN⟩).insert ⟨2, ROLE_USER⟩
      users := Table.empty
      groups := Table.empty
      groupUsers := Table.empty }
  sessions _ := { xXPortalUser := some (2, { loginId := some "admin", emailAddress := some "b" }) }

theorem ordinary_lookalikes : Portal.Ordinary (fun _ => 2) lookalikes where
  flags _ := rfl
  users _ _ found := (Option.some.inj found).symm
  roles := by
    rintro - ⟨id, found⟩
    have rows : lookalikes.tables.portalUserRoles.rows.entries =
        [(1, ⟨1, ROLE_SYS_ADMIN⟩), (2, ⟨2, ROLE_USER⟩)] := by decide
    have listed := Table.get?_eq_some_iff.mp found
    rw [rows] at listed
    simp [ROLE_SYS_ADMIN, ROLE_USER] at listed

/-- The user gives away the role it has and takes the other one. -/
theorem roles_of_lookalikes :
    Portal.Unescalated (fun _ => 2) lookalikes [((), .setUserRoles 2 [ROLE_OTHER])] := by
  apply Portal.unescalated_of_ownLogins ordinary_lookalikes
  intro done request rest split
  obtain ⟨rfl, rfl, rfl⟩ : done = [] ∧ request = ((), .setUserRoles 2 [ROLE_OTHER]) ∧
      rest = [] := by
    cases done with
    | nil => exact ⟨rfl, (List.cons.inj split).1.symm, (List.cons.inj split).2.symm⟩
    | cons first done => simp at split
  intro id row found given named
  have rows : lookalikes.tables.portalUsers.rows.entries =
      [(1, { loginId := some "Admin", emailAddress := some "a" }),
        (2, { loginId := some "admin", emailAddress := some "b" })] := by decide
  have stored : lookalikes.tables.portalUsers.get? id = some row := found
  have listed := Table.get?_eq_some_iff.mp stored
  rw [rows, List.mem_cons, List.mem_singleton] at listed
  rcases listed with same | same
  · cases same
    exact absurd (Option.some.inj named) (by decide)
  · exact (Prod.mk.inj same).1

/-- An update of the user's own record with the login id of the administrator. -/
def takesLogin : UserCall :=
  .update "c"
    { id := some 2, loginId := some "Admin", firstName := some "Ann", lastName := some "Lee",
      userRoleList := some [ROLE_OTHER] }

/-- The session after the update was rolled back. -/
def mistaken : UserSessionBase where
  xXPortalUser := some (2, {
    loginId := some "Admin", emailAddress := some "c", firstName := some "Ann",
    lastName := some "Lee", publicScreenName := some "Ann Lee" })
  userRoleList := [ROLE_OTHER]

def setsRoles : UserCall := .setUserRoles 2 [ROLE_OTHER, ROLE_SYS_ADMIN]

theorem step_takesLogin :
    (lookalikes.step ((), takesLogin)).2 = ⟨lookalikes.tables, fun _ => mistaken⟩ := by
  have threw : (takesLogin.served lookalikes.tables (lookalikes.sessions ())).1 =
      .error "PersistenceException" := by decide +kernel
  have left : (takesLogin.served lookalikes.tables (lookalikes.sessions ())).2.session =
      mistaken := by decide +kernel
  apply Portal.ext
  · rw [Portal.step_tables, UserCall.tables_served_of_error threw]
  · funext user
    rw [Portal.step_sessions, if_pos rfl, left]

/-- A user takes the login id of an administrator in another spelling of its own. The update
is rolled back, but not in the session, and the next refresh makes the session the
administrator's. -/
theorem role_escalates : Portal.Ordinary (fun _ => 2) lookalikes ∧
    ((Run.final Portal.step lookalikes
      [((), takesLogin), ((), setsRoles)]).sessions ()).userAdmin = true ∧
    ¬ Portal.Unescalated (fun _ => 2) lookalikes [((), takesLogin), ((), setsRoles)] := by
  have promoted : ((Run.final Portal.step lookalikes
      [((), takesLogin), ((), setsRoles)]).sessions ()).userAdmin = true := by
    have refreshed : (setsRoles.served lookalikes.tables mistaken).2.session.userAdmin = true := by
      decide +kernel
    rw [Run.final, Run.final, Run.final, step_takesLogin, Portal.step_sessions, if_pos rfl]
    exact refreshed
  refine ⟨ordinary_lookalikes, promoted, ?_⟩
  intro unescalated
  have flag := unescalated.flags _ [] (List.append_nil _).symm ()
  exact Bool.false_ne_true (flag.symm.trans promoted)

end Slip

end Ranger

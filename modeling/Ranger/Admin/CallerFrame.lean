import Ranger.Admin.PortalUsers

/-! # What a call leaves alone

A call of a user who is no administrator passes the access check for that user only. It
then changes no record of another portal user, no role row of another user and no row of
a role that is not public, as long as no other user has the login id of its session.
-/

namespace Ranger

open Foundation
open Foundation.Throwing

namespace UserTables

/-- The user has the role in this spelling. -/
def HasRole (tables : UserTables) (userId : Int) (userRole : String) : Prop :=
  ∃ id, tables.portalUserRoles.get? id = some ⟨userId, userRole⟩

/-- No user but the session's has the login id its session carries. -/
def OwnLogin (tables : UserTables) (session : UserSessionBase) (caller : Int) : Prop :=
  ∀ id row, tables.portalUsers.get? id = some row → row.loginId.isSome →
    row.loginId = session.getLoginId → id = caller

theorem mem_rolesOf_iff {tables : UserTables} {userId id : Int} {row : XXPortalUserRole} :
    (id, row) ∈ tables.rolesOf userId ↔
      tables.portalUserRoles.get? id = some row ∧ row.userId = userId := by
  unfold rolesOf
  rw [List.mem_filter, Table.get?_eq_some_iff, beq_iff_eq]

theorem eq_of_getPortalUser {tables : UserTables} {id user : Int} {row : XXPortalUser}
    (found : tables.getPortalUser (some id) = some (user, row)) : id = user := by
  obtain ⟨entry, _, same⟩ := Option.map_eq_some_iff.mp found
  exact (Prod.mk.inj same).1

/-- The user a login id finds has it. -/
theorem of_findByLoginId {tables : UserTables} {loginId : Option String} {id : Int}
    {row : XXPortalUser} (found : tables.findByLoginId loginId = some (id, row)) :
    tables.portalUsers.get? id = some row ∧ row.loginId = loginId ∧ loginId.isSome := by
  unfold findByLoginId at found
  split at found
  · exact nomatch found
  · next named =>
      have ⟨stored, same⟩ := Table.find?_eq_some found
      have given : loginId.isSome := by
        cases loginId with
        | none => exact absurd rfl named
        | some text => rfl
      exact ⟨stored, by simpa using same, given⟩

/-- A key that is kept is no other user's. -/
theorem eq_of_keepsKeys {tables : UserTables} {id other : Int} {row entry : XXPortalUser}
    (kept : tables.keepsKeys id row = true)
    (stored : tables.portalUsers.get? other = some entry) (given : row.loginId.isSome)
    (same : entry.loginId = row.loginId) : other = id := by
  have apart := List.all_eq_true.mp kept _ (Table.get?_eq_some_iff.mp stored)
  simp only [Bool.or_eq_true, beq_iff_eq, Bool.and_eq_true, Option.isNone_iff_eq_none,
    bne_iff_ne, ne_eq] at apart
  rcases apart with own | ⟨missing | differs, _⟩
  · exact own
  · rw [missing] at given
    exact nomatch given
  · exact absurd same differs

end UserTables

section Roles

variable [Platform]

/-- The role rows of other users and of roles that are not public are as before. -/
def RolesKept (caller : Int) (before after : Table XXPortalUserRole) : Prop :=
  ∀ id row, row.userId ≠ caller ∨ UserMgr.isPublicRole row.userRole = false →
    (after.get? id = some row ↔ before.get? id = some row)

theorem equalsIgnoreCase_comm (first second : String) :
    equalsIgnoreCase first second = equalsIgnoreCase second first := by
  unfold equalsIgnoreCase
  exact decide_eq_decide.mpr eq_comm

theorem not_isPublicRole_sysAdmin : UserMgr.isPublicRole ROLE_SYS_ADMIN = false := by
  have lengths : ∀ role : String, role.toList.length ≠ 14 →
      equalsIgnoreCase role ROLE_SYS_ADMIN = false := by
    intro role differs
    apply Bool.eq_false_iff.mpr
    intro same
    have folded := congrArg List.length (equalsIgnoreCase_iff.mp same)
    rw [List.length_map, List.length_map] at folded
    exact differs folded
  unfold UserMgr.isPublicRole UserMgr.publicRoles
  simp only [List.any_cons, List.any_nil, Bool.or_false, Bool.or_eq_false_iff]
  exact ⟨lengths ROLE_USER (by decide), lengths ROLE_OTHER (by decide)⟩

theorem isPublicRole_upperCase [UserText] {userRole : String}
    (isPublic : UserMgr.isPublicRole userRole = true) :
    UserMgr.isPublicRole (UserText.upperCase userRole) = true := by
  unfold UserMgr.isPublicRole at isPublic ⊢
  apply List.any_eq_true.mpr
  obtain ⟨role, listed, same⟩ := List.any_eq_true.mp isPublic
  refine ⟨role, listed, ?_⟩
  have latin : isLatin role = true := by
    simp only [UserMgr.publicRoles, List.mem_cons, List.not_mem_nil, or_false] at listed
    rcases listed with rfl | rfl <;> decide
  rw [equalsIgnoreCase_comm] at same ⊢
  exact UserText.equalsIgnoreCase_upperCase userRole role latin same

theorem RolesKept.remove {caller id : Int} {before after : Table XXPortalUserRole}
    (kept : RolesKept caller before after) {row : XXPortalUserRole}
    (gone : after.get? id = some row ∨ after.get? id = none) (own : row.userId = caller)
    (isPublic : UserMgr.isPublicRole row.userRole = true) :
    RolesKept caller before (after.remove id) := by
  intro other entry apart
  rw [Table.get?_remove, ← kept other entry apart]
  split
  · next same =>
      subst same
      apply iff_of_false nofun
      intro stored
      rcases gone with present | missing
      · obtain rfl : row = entry := Option.some.inj (present.symm.trans stored)
        rcases apart with foreign | reserved
        · exact foreign own
        · exact absurd (isPublic.symm.trans reserved) nofun
      · exact absurd (missing.symm.trans stored) nofun
  · exact Iff.rfl

theorem RolesKept.insert {caller : Int} {before after : Table XXPortalUserRole}
    (kept : RolesKept caller before after) {row : XXPortalUserRole} (own : row.userId = caller)
    (isPublic : UserMgr.isPublicRole row.userRole = true) :
    RolesKept caller before (after.insert row) := by
  intro other entry apart
  rw [Table.get?_insert, ← kept other entry apart]
  split
  · next new =>
      have unused : after.get? other = none :=
        new ▸ Table.get?_eq_none_iff.mpr after.next_not_mem
      rw [unused]
      apply iff_of_false
      · intro same
        obtain rfl : row = entry := Option.some.inj same
        rcases apart with foreign | reserved
        · exact foreign own
        · exact absurd (isPublic.symm.trans reserved) nofun
      · exact nofun
  · exact Iff.rfl

end Roles

/-- The session has the user it had, or none. -/
def UserSessionBase.IsOf (session : UserSessionBase) (caller : Int) : Prop :=
  ∀ id, session.getUserId = some id → id = caller

section Confinement

variable [Platform]

/-- What holds in a request of a caller from the tables it began with. The last part is
about a caller who began as no administrator and without the role of one. -/
structure Confined (ordinary : Prop) (caller : Int) (start : UserTables)
    (request : UserRequest) : Prop where
  others : ∀ id, id ≠ caller →
    request.tables.portalUsers.get? id = start.portalUsers.get? id
  ownSession : request.session.IsOf caller
  ownLogin : request.tables.OwnLogin request.session caller
  unpromoted : ordinary → request.session.userAdmin = false ∧
    RolesKept caller start.portalUserRoles request.tables.portalUserRoles

/-- The users and groups of the policies are as before. -/
def SamePolicyUsers (start : UserTables) (request : UserRequest) : Prop :=
  request.tables.users = start.users ∧ request.tables.groups = start.groups ∧
    request.tables.groupUsers = start.groupUsers

/-- The part that a rollback leaves. -/
def SessionKept (ordinary : Prop) (caller : Int) (request : UserRequest) : Prop :=
  request.session.IsOf caller ∧ (ordinary → request.session.userAdmin = false)

variable {ordinary : Prop} {caller : Int} {start : UserTables}

theorem Confined.sessionKept {request : UserRequest}
    (confined : Confined ordinary caller start request) : SessionKept ordinary caller request :=
  ⟨confined.ownSession, fun given => (confined.unpromoted given).1⟩

/-- Changes of the role rows that keep those of others and of other roles. -/
theorem Confined.setRoles {request : UserRequest}
    (confined : Confined ordinary caller start request) {roles : Table XXPortalUserRole}
    (kept : ordinary → RolesKept caller start.portalUserRoles roles) :
    Confined ordinary caller start
      { request with tables := { request.tables with portalUserRoles := roles } } where
  others := confined.others
  ownSession := confined.ownSession
  ownLogin := confined.ownLogin
  unpromoted given := ⟨(confined.unpromoted given).1, kept given⟩

/-- The work of the calls on portal users: everything so far, and the policies' users. -/
def PortalWork (ordinary : Prop) (caller : Int) (start : UserTables) (request : UserRequest) :
    Prop :=
  Confined ordinary caller start request ∧ SamePolicyUsers start request

theorem PortalWork.sessionKept (request : UserRequest)
    (work : PortalWork ordinary caller start request) : SessionKept ordinary caller request :=
  work.1.sessionKept

/-- What a call of a caller who is no administrator begins with. -/
def Begins (ordinary : Prop) (caller : Int) (start : UserTables) (request : UserRequest) :
    Prop :=
  PortalWork ordinary caller start request ∧ request.session.userAdmin = false

theorem Begins.sessionKept (request : UserRequest) (begins : Begins ordinary caller start request) :
    SessionKept ordinary caller request := begins.1.1.sessionKept

/-- A refresh finds nobody but the caller, who has no role of an administrator. -/
theorem ensures_resetUserSessionForProfiles
    (plain : ordinary → ¬ start.HasRole caller ROLE_SYS_ADMIN) :
    Ensures (PortalWork ordinary caller start) SessionMgr.resetUserSessionForProfiles
      (fun _ => PortalWork ordinary caller start) (SessionKept ordinary caller) := by
  apply ensures_modify
  rintro request ⟨confined, same⟩
  refine ⟨⟨confined.others, ?_, ?_, ?_⟩, same⟩
  · intro id found
    rcases answer : request.tables.findByLoginId request.session.getLoginId with _ | ⟨user, row⟩
    · simp only [UserSessionBase.getUserId, answer, Option.map_none] at found
      exact nomatch found
    · simp only [UserSessionBase.getUserId, answer, Option.map_some, Option.some.injEq] at found
      have ⟨stored, named, given⟩ := UserTables.of_findByLoginId answer
      exact found ▸ confined.ownLogin user row stored (named ▸ given) named
  · intro id entry stored given carried
    change entry.loginId =
      (request.tables.findByLoginId request.session.getLoginId).bind (·.2.loginId) at carried
    rcases answer : request.tables.findByLoginId request.session.getLoginId with _ | ⟨user, row⟩
    · rw [answer] at carried
      rw [carried] at given
      exact nomatch given
    · rw [answer] at carried
      have ⟨_, named, _⟩ := UserTables.of_findByLoginId answer
      exact confined.ownLogin id entry stored given (carried.trans named)
  · intro given
    have ⟨flag, kept⟩ := confined.unpromoted given
    refine ⟨?_, kept⟩
    rcases answer : request.tables.findByLoginId request.session.getLoginId with _ | ⟨user, row⟩
    · simp only [flag, Bool.false_or, List.contains_nil]
    · have ⟨stored, named, isGiven⟩ := UserTables.of_findByLoginId answer
      have own := confined.ownLogin user row stored (named ▸ isGiven) named
      simp only [flag, Bool.false_or]
      apply Bool.eq_false_iff.mpr
      intro holds
      obtain ⟨⟨id, role⟩, listed, spelled⟩ := List.mem_map.mp (List.contains_iff_mem.mp holds)
      have ⟨present, owned⟩ := UserTables.mem_rolesOf_iff.mp listed
      obtain rfl : role = ⟨caller, ROLE_SYS_ADMIN⟩ := by
        cases role
        simp_all only
      exact plain given
        ⟨id, (kept id ⟨caller, ROLE_SYS_ADMIN⟩ (.inr not_isPublicRole_sysAdmin)).mp present⟩

omit [Platform] in
/-- The access check passes for the caller only. -/
theorem ensures_checkAccess {gjUser : Option (Int × XXPortalUser)}
    {pre : UserRequest → Prop} {fails : UserRequest → Prop}
    (plain : ∀ request, pre request → request.session.userAdmin = false)
    (own : ∀ request, pre request → request.session.IsOf caller)
    (kept : ∀ request, pre request → fails request) :
    Ensures pre (UserMgr.checkAccess gjUser)
      (fun _ request => pre request ∧ ∃ row, gjUser = some (caller, row)) fails := by
  cases gjUser with
  | none => exact ensures_throw kept
  | some user =>
      apply ensures_get_bind
      intro now holds
      simp only [plain now holds, Bool.false_eq_true, ↓reduceIte]
      split
      · exact ensures_throw fun state same => kept state (same ▸ holds)
      · next callerId record found =>
          split
          · next same =>
              apply ensures_pure
              rintro state rfl
              have isCaller := own _ holds callerId
                (by rw [UserSessionBase.getUserId, found, Option.map_some])
              exact ⟨holds, user.2, by rw [← isCaller, same]⟩
          · exact ensures_throw fun state same => kept state (same ▸ holds)

theorem Begins.ensures_checkAccess {request : UserRequest}
    (begins : Begins ordinary caller start request) (gjUser : Option (Int × XXPortalUser)) :
    Ensures (fun state => state = request) (UserMgr.checkAccess gjUser)
      (fun _ state => Begins ordinary caller start state ∧ ∃ row, gjUser = some (caller, row))
      (SessionKept ordinary caller) := by
  have checked : Ensures (Begins ordinary caller start) (UserMgr.checkAccess gjUser) _
      (SessionKept ordinary caller) :=
    Ranger.ensures_checkAccess (fun _ holds => holds.2) (fun _ holds => holds.1.1.ownSession)
      Begins.sessionKept
  exact checked.at_state begins

/-- The rows that were read are where they were, or gone. -/
def StillOrGone (rows : List (Int × XXPortalUserRole)) (request : UserRequest) : Prop :=
  ∀ entry ∈ rows, request.tables.portalUserRoles.get? entry.1 = some entry.2 ∨
    request.tables.portalUserRoles.get? entry.1 = none

theorem ensures_deleteUserRole {rows : List (Int × XXPortalUserRole)}
    {gjUserRole : Int × XXPortalUserRole} (listed : gjUserRole ∈ rows)
    (owned : gjUserRole.2.userId = caller) :
    Ensures (fun request => PortalWork ordinary caller start request ∧ StillOrGone rows request)
      (UserMgr.deleteUserRole gjUserRole)
      (fun _ request => PortalWork ordinary caller start request ∧ StillOrGone rows request)
      (SessionKept ordinary caller) := by
  apply ensures_get_bind
  rintro now ⟨⟨confined, same⟩, still⟩
  split
  · exact ensures_pure fun state isNow => isNow ▸ ⟨⟨confined, same⟩, still⟩
  · next allowed =>
      refine ensures_modify_bind ?_ (ensures_pure fun _ holds => holds)
      · rintro state rfl
        refine ⟨⟨confined.setRoles ?_, same⟩, ?_⟩
        · intro given
          have ⟨flag, kept⟩ := confined.unpromoted given
          apply kept.remove (still _ listed) owned
          simpa [flag] using allowed
        · intro entry member
          rw [Table.get?_remove]
          split
          · exact .inr rfl
          · exact still entry member

theorem ensures_deleteUserRoleNamed (userRole : String) :
    Ensures (PortalWork ordinary caller start) (UserMgr.deleteUserRoleNamed caller userRole)
      (fun _ => PortalWork ordinary caller start) (SessionKept ordinary caller) := by
  apply ensures_get_bind
  intro now work
  split
  · exact ensures_pure fun state isNow => isNow ▸ work
  · next gjUserRole found =>
      have ⟨stored, owned⟩ :=
        UserTables.mem_rolesOf_iff.mp (List.mem_of_find?_eq_some found)
      have deleted := @ensures_deleteUserRole _ ordinary caller start [gjUserRole] gjUserRole
        (List.mem_singleton.mpr rfl) owned
      apply deleted.weaken
      · rintro state rfl
        refine ⟨work, ?_⟩
        intro entry member
        rw [List.mem_singleton.mp member]
        exact .inl stored
      · exact fun _ _ holds => holds.1
      · exact fun _ holds => holds

section Adding

variable [UserText]

theorem ensures_addUserRole (plain : ordinary → ¬ start.HasRole caller ROLE_SYS_ADMIN)
    (userRole : String) :
    Ensures (PortalWork ordinary caller start) (UserMgr.addUserRole caller userRole)
      (fun _ => PortalWork ordinary caller start) (SessionKept ordinary caller) := by
  apply ensures_get_bind
  intro now work
  split
  · exact ensures_pure fun state isNow => isNow ▸ work
  · next allowed =>
      split
      · exact ensures_pure fun state isNow => isNow ▸ work
      · have last : Ensures (PortalWork ordinary caller start)
            (do
              SessionMgr.resetUserSessionForProfiles
              return (none : Option (Int × XXPortalUserRole)))
            (fun _ => PortalWork ordinary caller start) (SessionKept ordinary caller) :=
          ensures_bind (ensures_resetUserSessionForProfiles plain)
            fun _ => ensures_pure fun _ holds => holds
        refine ensures_modify_bind (?_ : ∀ _, _ → PortalWork ordinary caller start _) ?_
        · rintro state rfl
          refine ⟨work.1.setRoles ?_, work.2⟩
          intro given
          have ⟨flag, kept⟩ := work.1.unpromoted given
          apply kept.insert rfl
          have isPublic : UserMgr.isPublicRole userRole = true := by simpa [flag] using allowed
          exact isPublicRole_upperCase isPublic
        · dsimp only
          split
          · exact ensures_bind (ensures_deleteUserRoleNamed ROLE_OTHER) fun _ => last
          · exact last

theorem ensures_updateRoles (plain : ordinary → ¬ start.HasRole caller ROLE_SYS_ADMIN)
    (rolesList : List String) :
    Ensures (PortalWork ordinary caller start) (UserMgr.updateRoles caller rolesList)
      (fun _ => PortalWork ordinary caller start) (SessionKept ordinary caller) := by
  unfold UserMgr.updateRoles
  split
  · exact ensures_pure fun _ holds => holds
  · apply ensures_get_bind
    intro now work
    have removed : Ensures
        (fun request => PortalWork ordinary caller start request ∧
          StillOrGone (now.tables.rolesOf caller) request)
        ((now.tables.rolesOf caller).forM fun gjUserRole => do
          if !rolesList.any (equalsIgnoreCase gjUserRole.2.userRole ·) then
            let _ ← UserMgr.deleteUserRole gjUserRole)
        (fun _ request => PortalWork ordinary caller start request ∧
          StillOrGone (now.tables.rolesOf caller) request)
        (SessionKept ordinary caller) := by
      apply ensures_forM
      intro gjUserRole listed
      split
      · have owned := (UserTables.mem_rolesOf_iff.mp listed).2
        exact ensures_bind (ensures_deleteUserRole listed owned)
          fun _ => ensures_pure fun _ holds => holds
      · exact ensures_pure fun _ holds => holds
    have added : Ensures (PortalWork ordinary caller start)
        (rolesList.forM fun userRole => do
          if !(now.tables.rolesOf caller).any (equalsIgnoreCase ·.2.userRole userRole) then
            let _ ← UserMgr.addUserRole caller userRole)
        (fun _ => PortalWork ordinary caller start) (SessionKept ordinary caller) := by
      apply ensures_forM
      intro userRole _
      split
      · exact ensures_bind (ensures_addUserRole plain userRole)
          fun _ => ensures_pure fun _ holds => holds
      · exact ensures_pure fun _ holds => holds
    have begun : Ensures (fun state => state = now) _ _ (SessionKept ordinary caller) :=
      removed.weaken
        (by
          rintro state rfl
          refine ⟨work, fun entry member => .inl ?_⟩
          exact (UserTables.mem_rolesOf_iff.mp member).1)
        (fun _ _ holds => holds.1) (fun _ holds => holds)
    exact ensures_bind begun fun _ => added

/-- The record of the caller was edited, and its keys are still to be checked. -/
structure Edited (ordinary : Prop) (caller : Int) (start : UserTables) (row : XXPortalUser)
    (request : UserRequest) : Prop where
  others : ∀ id, id ≠ caller →
    request.tables.portalUsers.get? id = start.portalUsers.get? id
  session : SessionKept ordinary caller request
  policies : SamePolicyUsers start request
  roles : ordinary → RolesKept caller start.portalUserRoles request.tables.portalUserRoles
  login : request.tables.OwnLogin request.session caller ∨
    request.session.getLoginId = row.loginId

omit [UserText] in
/-- An edited login id that keeps the keys is the caller's alone. -/
theorem Edited.portalWork {row : XXPortalUser} {request : UserRequest}
    (edited : Edited ordinary caller start row request)
    (keys : request.tables.keepsKeys caller row = true) :
    PortalWork ordinary caller start request := by
  refine ⟨⟨edited.others, edited.session.1, ?_,
    fun given => ⟨edited.session.2 given, edited.roles given⟩⟩, edited.policies⟩
  rcases edited.login with own | carried
  · exact own
  · intro id entry stored given named
    apply UserTables.eq_of_keepsKeys keys stored
    · rw [← carried, ← named]
      exact given
    · exact named.trans carried

omit [UserText] in
theorem ensures_updatePortalUser (row : XXPortalUser) :
    Ensures (PortalWork ordinary caller start) (UserMgr.updatePortalUser caller row)
      (fun _ => PortalWork ordinary caller start) (SessionKept ordinary caller) := by
  refine ensures_modify_bind (?_ : ∀ _, _ → Edited ordinary caller start row _) ?_
  · rintro now ⟨confined, same⟩
    refine ⟨?_, ?_, same, fun given => (confined.unpromoted given).2, ?_⟩
    · intro id other
      rw [← confined.others id other]
      exact Table.get?_replace_of_ne other row
    · dsimp only
      split
      · next own =>
          refine ⟨?_, fun given => (confined.unpromoted given).1⟩
          intro id found
          exact (Option.some.inj found).symm
      · exact confined.sessionKept
    · dsimp only
      split
      · exact .inr rfl
      · left
        intro id entry stored given named
        by_contra other
        rw [Table.get?_replace_of_ne other] at stored
        exact other (confined.ownLogin id entry stored given named)
  · apply ensures_get_bind
    intro now between
    split
    · next keys => exact ensures_pure fun state isNow => isNow ▸ between.portalWork keys
    · exact ensures_throw fun state isNow => isNow ▸ between.session

/-- What only reads keeps every property. -/
theorem ensures_checkEmailAddress {pre fails : UserRequest → Prop}
    (kept : ∀ request, pre request → fails request) (guid : String)
    (userProfile : VXPortalUser) :
    Ensures pre (UserMgr.checkEmailAddress guid userProfile) (fun _ => pre) fails := by
  unfold UserMgr.checkEmailAddress
  split
  · exact ensures_pure fun _ holds => holds
  · split
    · apply ensures_get_bind
      intro now work
      split
      · exact ensures_pure fun state isNow => isNow ▸ work
      · split
        · exact ensures_throw fun state isNow => kept state (isNow ▸ work)
        · split
          · exact ensures_pure fun state isNow => isNow ▸ work
          · exact ensures_throw fun state isNow => kept state (isNow ▸ work)
    · exact ensures_throw kept

theorem ensures_updateUser (plain : ordinary → ¬ start.HasRole caller ROLE_SYS_ADMIN)
    (guid : String) (userProfile : VXPortalUser) :
    Ensures (Begins ordinary caller start) (UserMgr.updateUser guid userProfile)
      (fun gjUser request => PortalWork ordinary caller start request ∧
        ∀ user row, gjUser = some (user, row) → user = caller)
      (SessionKept ordinary caller) := by
  apply ensures_get_bind
  intro now begins
  split
  · refine ensures_pure fun state isNow => ⟨isNow ▸ begins.1, fun user row named => ?_⟩
    cases named
  · next userId gjUser _ =>
      apply ensures_bind (begins.ensures_checkAccess _)
      intro _
      apply ensures_of_fact fun state holds => holds.2
      rintro ⟨row, found⟩
      obtain rfl : userId = caller := (Prod.mk.inj (Option.some.inj found)).1
      have addressed := ensures_checkEmailAddress
        (@PortalWork.sessionKept _ ordinary userId start) guid userProfile
      apply ensures_bind (addressed.strengthen fun _ holds => holds.1.1)
      intro emailAddress
      apply ensures_bind (ensures_updateRoles plain _)
      intro _
      apply ensures_bind (ensures_updatePortalUser _)
      intro _
      apply ensures_bind (ensures_resetUserSessionForProfiles plain)
      intro _
      apply ensures_pure
      intro state holds
      refine ⟨holds, ?_⟩
      intro user row named
      exact (Prod.mk.inj (Option.some.inj named)).1.symm

theorem ensures_updateUserWithPass (plain : ordinary → ¬ start.HasRole caller ROLE_SYS_ADMIN)
    (guid : String) (userProfile : VXPortalUser) :
    Ensures (Begins ordinary caller start) (UserMgr.updateUserWithPass guid userProfile)
      (fun _ => PortalWork ordinary caller start) (SessionKept ordinary caller) := by
  apply ensures_bind (ensures_updateUser plain guid userProfile)
  intro xXPortalUser
  split
  · exact ensures_pure fun _ holds => holds.1
  · next userId row =>
      apply ensures_of_fact (fun state holds => holds.2 userId row rfl)
      rintro rfl
      split
      · exact ensures_pure fun _ holds => holds.1
      · split
        · exact ensures_pure fun _ holds => holds.1
        · split
          · have stored := @ensures_updatePortalUser _ ordinary userId start
            apply ensures_bind ((stored _).strengthen fun _ holds => holds.1)
            exact fun _ => ensures_pure fun _ holds => holds
          · exact ensures_throw fun _ holds => holds.1.1.sessionKept

theorem ensures_mapXXPortalUserVXPortalUser {pre fails : UserRequest → Prop}
    (kept : ∀ request, pre request → fails request) (user : Int × XXPortalUser) :
    Ensures pre (UserMgr.mapXXPortalUserVXPortalUser user) (fun _ => pre) fails := by
  apply ensures_get_bind
  intro now holds
  dsimp only
  split
  · exact ensures_pure fun state isNow => isNow ▸ holds
  · split
    · exact ensures_throw fun state isNow => kept state (isNow ▸ holds)
    · split
      · exact ensures_pure fun state isNow => isNow ▸ holds
      · exact ensures_pure fun state isNow => isNow ▸ holds

theorem ensures_getUserProfileByLoginId {pre fails : UserRequest → Prop}
    (kept : ∀ request, pre request → fails request) (loginId : Option String) :
    Ensures pre (UserMgr.getUserProfileByLoginId loginId) (fun _ => pre) fails := by
  apply ensures_get_bind
  intro now holds
  split
  · exact ensures_pure fun state isNow => isNow ▸ holds
  · next user _ =>
      have viewed := ensures_mapXXPortalUserVXPortalUser kept user
      apply ensures_bind (viewed.at_state holds)
      exact fun _ => ensures_pure fun _ done => done

section Requests

variable {pre fails : UserRequest → Prop}

theorem ensures_validateStringForUpdate (kept : ∀ request, pre request → fails request)
    (value originalValue : Option String) (errorMessage : String) :
    Ensures pre (RangerRestUtil.validateStringForUpdate value originalValue errorMessage)
      (fun _ => pre) fails := by
  unfold RangerRestUtil.validateStringForUpdate
  split
  · exact ensures_pure fun _ holds => holds
  · split
    · exact ensures_pure fun _ holds => holds
    · split
      · exact ensures_pure fun _ holds => holds
      · split
        · exact ensures_pure fun _ holds => holds
        · exact ensures_throw kept

omit [UserText] in
theorem ensures_validateLoginId (kept : ∀ request, pre request → fails request)
    (gjUser : XXPortalUser) (userProfile : VXPortalUser) :
    Ensures pre (RangerRestUtil.validateLoginId gjUser userProfile) (fun _ => pre) fails := by
  unfold RangerRestUtil.validateLoginId
  split
  · exact ensures_pure fun _ holds => holds
  · split
    · exact ensures_throw kept
    · split
      · exact ensures_pure fun _ holds => holds
      · exact ensures_throw kept

theorem ensures_validateVUserProfileForUpdate (kept : ∀ request, pre request → fails request)
    (gjUser : XXPortalUser) (userProfile : VXPortalUser) :
    Ensures pre (RangerRestUtil.validateVUserProfileForUpdate gjUser userProfile)
      (fun _ => pre) fails := by
  have named := @ensures_validateStringForUpdate _ _ pre fails kept
  apply ensures_bind (ensures_validateLoginId kept gjUser userProfile)
  intro _
  apply ensures_bind (named _ _ _)
  intro _
  apply ensures_bind (named _ _ _)
  intro _
  apply ensures_bind (named _ _ _)
  intro _
  apply ensures_bind (named _ _ _)
  intro _
  dsimp only
  split
  · split
    · exact ensures_pure fun _ holds => holds
    · exact ensures_throw kept
  · exact ensures_throw kept

end Requests

theorem ensures_update (plain : ordinary → ¬ start.HasRole caller ROLE_SYS_ADMIN)
    (guid : String) (userProfile : VXPortalUser) :
    Ensures (Begins ordinary caller start) (UserREST.update guid userProfile)
      (fun _ => PortalWork ordinary caller start) (SessionKept ordinary caller) := by
  apply ensures_get_bind
  intro now begins
  apply ensures_bind (begins.ensures_checkAccess _)
  intro _
  split
  · exact ensures_throw fun state holds => holds.1.sessionKept
  · next userId row _ =>
      have validated := ensures_validateVUserProfileForUpdate
        (@Begins.sessionKept _ ordinary caller start) row userProfile
      apply ensures_bind (validated.strengthen fun _ holds => holds.1)
      intro validated
      apply ensures_bind (ensures_updateUser plain guid validated)
      intro updated
      split
      · exact ensures_pure fun _ holds => holds.1
      · next gjUser =>
          have viewed := ensures_mapXXPortalUserVXPortalUser
            (@PortalWork.sessionKept _ ordinary caller start) gjUser
          apply ensures_bind (viewed.strengthen fun _ holds => holds.1)
          exact fun _ => ensures_pure fun _ holds => holds

theorem ensures_setUserRoles (plain : ordinary → ¬ start.HasRole caller ROLE_SYS_ADMIN)
    (userId : Int) (roleList : List String) :
    Ensures (Begins ordinary caller start) (UserREST.setUserRoles userId roleList)
      (fun _ => PortalWork ordinary caller start) (SessionKept ordinary caller) := by
  apply ensures_get_bind
  intro now begins
  apply ensures_bind (begins.ensures_checkAccess _)
  intro _
  apply ensures_of_fact fun state holds => holds.2
  rintro ⟨row, found⟩
  obtain rfl : userId = caller := UserTables.eq_of_getPortalUser found
  exact (ensures_updateRoles plain roleList).strengthen fun _ holds => holds.1.1

end Adding

end Confinement

end Ranger

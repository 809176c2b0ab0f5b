import Ranger.Admin.CallerFrame
import Ranger.Admin.GroupUsers
import Ranger.Admin.StringUtil

/-! # Editing a user with the hidden password

A view of a user has a placeholder for the password. `XUserMgr.updateXUser` takes the password
of the old profile for the placeholder, and then the one of the request in any case: the
placeholder is checked and stored like a new password. A user is edited with its view only if
the placeholder is empty, or is the user's password.
-/

namespace Ranger

open Foundation
open Foundation.Throwing

namespace StringUtil

/-- `Character.isDigit` and `Character.isLetter` for the units of a text. -/
class CharacterClasses where
  isDigit : Nat → Bool
  isLetter : Nat → Bool

def MIN_PASSWORD_LENGTH : Nat := 8

def validatePassword [Platform] [CharacterClasses] (password : Option String)
    (invalidValues : List (Option String)) : Bool :=
  match password with
  | none => false
  | some password =>
      let password := trim password
      let chars := unitsOf password
      if chars.length < MIN_PASSWORD_LENGTH then false
      else
        let hasNum := chars.any CharacterClasses.isDigit
        let hasAlpha := chars.any fun ch =>
          !CharacterClasses.isDigit ch && CharacterClasses.isLetter ch
        if !hasAlpha || !hasNum then false
        else !invalidValues.any fun invalid => invalid.any (equalsIgnoreCase password ·)

end StringUtil

/-- The passwords of the portal are those of `StringUtil`. -/
class PasswordRule [Platform] [UserText] extends StringUtil.CharacterClasses where
  validatePassword_eq : ∀ password invalidValues,
    UserText.validatePassword password invalidValues =
      StringUtil.validatePassword (some password) invalidValues

namespace XUserMgr

section Model

/-- The profile of the request, without a password. -/
def requestedProfile (id : Option Int) (vXUser : VXUser) : VXPortalUser where
  id := id
  loginId := vXUser.name
  emailAddress := vXUser.emailAddress
  firstName := vXUser.firstName
  lastName := vXUser.lastName
  publicScreenName := some (textOrNull vXUser.firstName ++ " " ++ textOrNull vXUser.lastName)
  status := vXUser.status
  userSource := vXUser.userSource
  userRoleList := vXUser.userRoleList

/-- The profile that an update of a user makes from the request. -/
def profileOf (hiddenPasswordString : String) (oldUserProfile : Option VXPortalUser)
    (vXUser : VXUser) : VXPortalUser :=
  let vXPortalUser := requestedProfile (oldUserProfile.bind (·.id)) vXUser
  let vXPortalUser :=
    if oldUserProfile.isSome && vXUser.password == some hiddenPasswordString then
      { vXPortalUser with password := oldUserProfile.bind (·.password) }
    else vXPortalUser
  -- whatever was taken is overwritten
  { vXPortalUser with password := vXUser.password }

theorem profileOf_eq (hiddenPasswordString : String) (oldUserProfile : Option VXPortalUser)
    (vXUser : VXUser) :
    profileOf hiddenPasswordString oldUserProfile vXUser =
      { requestedProfile (oldUserProfile.bind (·.id)) vXUser with
        password := vXUser.password } := by
  unfold profileOf
  dsimp only
  split
  · rfl
  · rfl

/-- What an update does behind the portal user. -/
def updatePolicyUser (logged : Bool) (vXUser : VXUser) : Serving PUnit := do
  let userId ← XUserService.updateResource vXUser
  match vXUser.groupIdList with
  | none => return ()
  | some groupIdList => updateGroupUsers logged userId groupIdList

variable [Platform] [UserText]

/-- `updateXUser` with the placeholder that is configured. -/
def updateXUserHiding (hiddenPasswordString guid : String) (vXUser : VXUser) :
    Serving PUnit := do
  let oldUserProfile ← UserMgr.getUserProfileByLoginId vXUser.name
  let _ ← UserMgr.updateUserWithPass guid (profileOf hiddenPasswordString oldUserProfile vXUser)
  updatePolicyUser oldUserProfile.isSome vXUser

/-- The placeholder makes no difference. -/
theorem updateXUserHiding_eq (hiddenPasswordString guid : String) (vXUser : VXUser) :
    updateXUserHiding hiddenPasswordString guid vXUser = updateXUser guid vXUser := by
  unfold updateXUserHiding updateXUser
  refine congrArg (_ >>= ·) (funext fun oldUserProfile => ?_)
  rw [profileOf_eq]
  rfl

end Model

end XUserMgr

section Records

variable [Platform] {users : Table XXPortalUser}

/-- The table of the portal users is this one. -/
def HasRecords (users : Table XXPortalUser) (request : UserRequest) : Prop :=
  request.tables.portalUsers = users

def anyState (_ : UserRequest) : Prop := True

theorem hasRecords_deleteUserRole (gjUserRole : Int × XXPortalUserRole) :
    Ensures (HasRecords users) (UserMgr.deleteUserRole gjUserRole)
      (fun _ => HasRecords users) anyState := by
  apply ensures_get_bind
  intro now same
  split
  · exact ensures_pure fun state isNow => isNow ▸ same
  · refine ensures_modify_bind (?_ : ∀ _, _ → HasRecords users _)
      (ensures_pure fun _ holds => holds)
    rintro _ rfl
    exact same

theorem hasRecords_deleteUserRoleNamed (userId : Int) (userRole : String) :
    Ensures (HasRecords users) (UserMgr.deleteUserRoleNamed userId userRole)
      (fun _ => HasRecords users) anyState := by
  apply ensures_get_bind
  intro now same
  split
  · exact ensures_pure fun state isNow => isNow ▸ same
  · next gjUserRole _ => exact (hasRecords_deleteUserRole gjUserRole).at_state same

omit [Platform] in
theorem hasRecords_reset :
    Ensures (HasRecords users) SessionMgr.resetUserSessionForProfiles
      (fun _ => HasRecords users) anyState :=
  ensures_modify fun _ same => same

variable [UserText]

theorem hasRecords_addUserRole (userId : Int) (userRole : String) :
    Ensures (HasRecords users) (UserMgr.addUserRole userId userRole)
      (fun _ => HasRecords users) anyState := by
  apply ensures_get_bind
  intro now same
  split
  · exact ensures_pure fun state isNow => isNow ▸ same
  · split
    · exact ensures_pure fun state isNow => isNow ▸ same
    · have last : Ensures (HasRecords users)
          (do
            SessionMgr.resetUserSessionForProfiles
            return (none : Option (Int × XXPortalUserRole)))
          (fun _ => HasRecords users) anyState :=
        ensures_bind hasRecords_reset fun _ => ensures_pure fun _ holds => holds
      refine ensures_modify_bind (?_ : ∀ _, _ → HasRecords users _) ?_
      · rintro _ rfl
        exact same
      dsimp only
      split
      · exact ensures_bind (hasRecords_deleteUserRoleNamed userId ROLE_OTHER) fun _ => last
      · exact last

theorem hasRecords_updateRoles (userId : Int) (rolesList : List String) :
    Ensures (HasRecords users) (UserMgr.updateRoles userId rolesList)
      (fun _ => HasRecords users) anyState := by
  unfold UserMgr.updateRoles
  split
  · exact ensures_pure fun _ holds => holds
  · apply ensures_get_bind
    intro now same
    refine Ensures.at_state (?_ : Ensures (HasRecords users) _ _ _) same
    apply ensures_bind
    · apply ensures_forM
      intro gjUserRole _
      split
      · exact ensures_bind (hasRecords_deleteUserRole gjUserRole) fun _ =>
          ensures_pure fun _ holds => holds
      · exact ensures_pure fun _ holds => holds
    · intro _
      apply ensures_forM
      intro userRole _
      split
      · exact ensures_bind (hasRecords_addUserRole userId userRole) fun _ =>
          ensures_pure fun _ holds => holds
      · exact ensures_pure fun _ holds => holds

/-- A user as an update leaves it. -/
structure EditedBy (userProfile : VXPortalUser) (gjUser row : XXPortalUser) : Prop where
  names : row =
    { UserMgr.editedNames gjUser userProfile with
      emailAddress := row.emailAddress
      password := row.password }
  password : row.password = gjUser.password

/-- The record was replaced, and its keys are its own. -/
structure Replaced (users : Table XXPortalUser) (userId : Int) (row : XXPortalUser)
    (request : UserRequest) : Prop where
  users : request.tables.portalUsers = users.replace userId row
  keys : request.tables.keepsKeys userId row = true

omit [Platform] [UserText] in
theorem replaced_updatePortalUser (userId : Int) (row : XXPortalUser) :
    Ensures (HasRecords users) (UserMgr.updatePortalUser userId row)
      (fun _ => Replaced users userId row) anyState := by
  refine ensures_modify_bind (?_ : ∀ _, _ → HasRecords (users.replace userId row) _) ?_
  · intro now same
    exact congrArg (Table.replace · userId row) same
  · apply ensures_get_bind
    intro now same
    split
    · next keys => exact ensures_pure fun state isNow => isNow ▸ ⟨same, keys⟩
    · exact ensures_throw fun _ _ => trivial

omit [Platform] [UserText] in
theorem replaced_reset {userId : Int} {row : XXPortalUser} :
    Ensures (Replaced users userId row) SessionMgr.resetUserSessionForProfiles
      (fun _ => Replaced users userId row) anyState :=
  ensures_modify fun _ replaced => ⟨replaced.users, replaced.keys⟩

/-- What an administrator's update of a stored user does to the record. -/
theorem replaced_updateUser {now : UserRequest} {userProfile : VXPortalUser} {userId : Int}
    {gjUser : XXPortalUser} (admin : now.session.userAdmin = true)
    (found : now.tables.getPortalUser userProfile.id = some (userId, gjUser)) (guid : String) :
    Ensures (fun request => request = now) (UserMgr.updateUser guid userProfile)
      (fun result request => ∃ row, result = some (userId, row) ∧
        EditedBy userProfile gjUser row ∧
        Replaced now.tables.portalUsers userId row request)
      anyState := by
  have granted : Ensures (fun request => request = now)
      (UserMgr.checkAccess (some (userId, gjUser))) (fun _ request => request = now)
      anyState := by
    apply ensures_get_bind
    rintro _ rfl
    rw [if_pos admin]
    exact ensures_pure fun _ holds => holds
  apply ensures_get_bind
  rintro request rfl
  rw [found]
  apply ensures_bind granted
  intro _
  apply ensures_bind (ensures_checkEmailAddress (fun _ _ => trivial) guid userProfile)
  intro emailAddress
  have roles := @hasRecords_updateRoles _ request.tables.portalUsers _ userId
    (userProfile.userRoleList.getD [])
  apply ensures_bind (roles.at_state rfl)
  intro _
  apply ensures_bind (replaced_updatePortalUser userId _)
  intro _
  apply ensures_bind replaced_reset
  intro _
  apply ensures_pure
  intro state replaced
  exact ⟨_, rfl, ⟨rfl, rfl⟩, replaced⟩

end Records

section Storing

/-- The record of a user with another password. -/
def withPassword (row : XXPortalUser) (password : Option String) : XXPortalUser :=
  { row with password := password }

/-- What `updatePortalUser` makes of the tables and the session. -/
def storeRecord (userId : Int) (row : XXPortalUser) (request : UserRequest) : UserRequest :=
  { request with
    tables :=
      { request.tables with portalUsers := request.tables.portalUsers.replace userId row }
    session :=
      if request.managed && request.session.getUserId == some userId then
        { request.session with xXPortalUser := some (userId, row) }
      else request.session }

theorem outcome_updatePortalUser (userId : Int) (row : XXPortalUser) (request : UserRequest) :
    (UserMgr.updatePortalUser userId row).outcome request =
      (if (storeRecord userId row request).tables.keepsKeys userId row then .ok ⟨⟩
        else .error "PersistenceException", storeRecord userId row request) := by
  unfold UserMgr.updatePortalUser
  rw [outcome_bind]
  change (if (storeRecord userId row request).tables.keepsKeys userId row then pure ⟨⟩
    else throw "PersistenceException" : Serving PUnit).outcome (storeRecord userId row request) = _
  split
  · rfl
  · rfl

/-- The keys do not depend on the record they are checked for. -/
theorem keepsKeys_storeRecord {userId : Int} {row : XXPortalUser} {request : UserRequest}
    (keys : request.tables.keepsKeys userId row = true) (password : Option String) :
    (storeRecord userId (withPassword row password) request).tables.keepsKeys userId
      (withPassword row password) = true := by
  have apart := List.all_eq_true.mp keys
  apply List.all_eq_true.mpr
  intro other listed
  by_cases own : other.1 = userId
  · rw [own]
    simp
  · apply apart other
    have stored := Table.get?_eq_some_iff.mpr listed
    change (request.tables.portalUsers.replace userId _).get? other.1 = some other.2 at stored
    rw [Table.get?_replace_of_ne own] at stored
    exact Table.get?_eq_some_iff.mp stored

/-- The portal users and the session are set. -/
def atPortal (users : Table XXPortalUser) (session : UserSessionBase) (request : UserRequest) :
    UserRequest :=
  { request with tables := { request.tables with portalUsers := users }, session := session }

variable {users : Table XXPortalUser} {session : UserSessionBase}

theorem ignores_logGroupUser (logged : Bool) (row : XXGroupUser) :
    Ignores (atPortal users session) (XUserMgr.logGroupUser logged row) := by
  refine ignores_get_bind (fun _ => rfl) fun now => ?_
  split
  · exact ignores_pure _
  · exact ignores_throw _

theorem ignores_createXGroupUser (userId groupId : Int) :
    Ignores (atPortal users session) (XUserMgr.createXGroupUser userId groupId) := by
  refine ignores_get_bind (fun _ => rfl) fun now => ?_
  split
  · exact ignores_throw _
  · exact ignores_bind (ignores_modify fun _ => rfl) fun _ => ignores_pure _

theorem ignores_joinGroup (logged : Bool) (userId : Int) (current : List (Int × XXGroupUser))
    (groupId : Option Int) :
    Ignores (atPortal users session) (XUserMgr.joinGroup logged userId current groupId) := by
  unfold XUserMgr.joinGroup
  cases groupId with
  | none =>
      dsimp only
      split
      · exact ignores_throw _
      · exact ignores_throw _
  | some groupId =>
      dsimp only
      split
      · exact ignores_pure _
      · apply ignores_bind (ignores_createXGroupUser userId groupId)
        exact fun row => ignores_logGroupUser logged row

theorem ignores_updateGroupUsers (logged : Bool) (userId : Int)
    (groupIdList : List (Option Int)) :
    Ignores (atPortal users session) (XUserMgr.updateGroupUsers logged userId groupIdList) := by
  refine ignores_get_bind (fun _ => rfl) fun now => ?_
  refine ignores_bind (ignores_forM fun groupId => ?_) fun _ => ?_
  · exact ignores_joinGroup logged userId _ groupId
  refine ignores_bind (ignores_forM fun row => ?_) fun _ => ?_
  · exact ignores_logGroupUser logged row.2
  refine ignores_forM fun row => ?_
  unfold XUserMgr.deleteXGroupUser
  exact ignores_modify fun _ => rfl

theorem ignores_updateResource (vXUser : VXUser) :
    Ignores (atPortal users session) (XUserService.updateResource vXUser) := by
  refine ignores_get_bind (fun _ => rfl) fun now => ?_
  split
  · exact ignores_throw _
  · split
    · exact ignores_throw _
    · split
      · exact ignores_bind (ignores_modify fun _ => rfl) fun _ => ignores_pure _
      · exact ignores_throw _

/-- The user of the policies and its groups are updated alike for any portal users. -/
theorem ignores_updatePolicyUser (logged : Bool) (vXUser : VXUser) :
    Ignores (atPortal users session) (XUserMgr.updatePolicyUser logged vXUser) := by
  apply ignores_bind (ignores_updateResource vXUser)
  intro userId
  cases vXUser.groupIdList with
  | none => exact ignores_pure _
  | some groupIdList => exact ignores_updateGroupUsers logged userId groupIdList

theorem portalUsers_updatePolicyUser (logged : Bool) (vXUser : VXUser) (request : UserRequest) :
    ((XUserMgr.updatePolicyUser logged vXUser).outcome request).2.tables.portalUsers =
      request.tables.portalUsers := by
  have same : atPortal request.tables.portalUsers request.session request = request := rfl
  have ignored := @ignores_updatePolicyUser request.tables.portalUsers request.session logged
    vXUser request
  rw [same] at ignored
  rw [ignored]
  rfl

end Storing

/-- The request with another password. -/
def VXUser.asking (vXUser : VXUser) (password : Option String) : VXUser :=
  { vXUser with password := password }

section Law

variable [Platform] [UserText]

/-- A call of `updateXUser`: what it returns, and the request behind it. -/
def servedXUser (hiddenPasswordString guid : String) (vXUser : VXUser) (tables : UserTables)
    (session : UserSessionBase) : Except String PUnit × UserRequest :=
  (transactional UserCall.rollback
    (XUserMgr.updateXUserHiding hiddenPasswordString guid vXUser)).outcome
      { tables := tables, session := session }

/-- The call returns normally. -/
def Succeeds (hiddenPasswordString guid : String) (vXUser : VXUser) (tables : UserTables)
    (session : UserSessionBase) : Prop :=
  (servedXUser hiddenPasswordString guid vXUser tables session).1 = .ok ⟨⟩

/-- The password that is stored for a user behind the call. -/
def passwordBehind (hiddenPasswordString guid : String) (vXUser : VXUser) (tables : UserTables)
    (session : UserSessionBase) (userId : Int) : Option (Option String) :=
  ((servedXUser hiddenPasswordString guid vXUser tables session).2.tables.portalUsers.get?
    userId).map (·.password)

theorem served_eq (guid : String) (vXUser : VXUser) (tables : UserTables)
    (session : UserSessionBase) (hiddenPasswordString : String) :
    UserCall.served (.updateXUser guid vXUser) tables session =
      servedXUser hiddenPasswordString guid vXUser tables session := by
  unfold UserCall.served servedXUser
  rw [XUserMgr.updateXUserHiding_eq]
  rfl

/-- An administrator's view of a user has the id. -/
theorem reads_getUserProfileByLoginId {now : UserRequest} {loginId : Option String}
    {user : Int × XXPortalUser} (admin : now.session.userAdmin = true)
    (found : now.tables.findByLoginId loginId = some user) :
    Ensures (fun request => request = now) (UserMgr.getUserProfileByLoginId loginId)
      (fun oldUserProfile request => request = now ∧ oldUserProfile.isSome = true ∧
        oldUserProfile.bind (·.id) = some user.1)
      (fun _ => False) := by
  have viewed : Ensures (fun request => request = now) (UserMgr.mapXXPortalUserVXPortalUser user)
      (fun userProfile request => request = now ∧ userProfile.id = some user.1)
      (fun _ => False) := by
    apply ensures_get_bind
    rintro _ rfl
    dsimp only
    rw [if_pos admin]
    exact ensures_pure fun _ same => ⟨same, rfl⟩
  apply ensures_get_bind
  rintro _ rfl
  rw [found]
  apply ensures_bind viewed
  intro userProfile
  exact ensures_pure fun _ done => ⟨done.1, rfl, done.2⟩

/-- The new password that a call asks for. -/
def newPassword (password : Option String) : Option String :=
  password.filter fun text => !text.isEmpty

omit [Platform] [UserText] in
theorem newPassword_of_isEmpty {password : String} (empty : password.isEmpty = true) :
    newPassword (some password) = none := by
  unfold newPassword
  rw [Option.filter_some, empty]
  rfl

omit [Platform] [UserText] in
theorem newPassword_of_not_isEmpty {password : String} (given : ¬password.isEmpty = true) :
    newPassword (some password) = some password := by
  unfold newPassword
  rw [Option.filter_some, Bool.eq_false_iff.mpr given]
  rfl

/-- What a call does behind `updateUser`, with the record it has edited. -/
def afterUpdateUser (password : Option String) (userId : Int) (row : XXPortalUser)
    (vXUser : VXUser) (request : UserRequest) : Except String PUnit × UserRequest :=
  match newPassword password with
  | none => (XUserMgr.updatePolicyUser true vXUser).outcome request
  | some password =>
      if UserText.validatePassword password [row.firstName, row.lastName, row.loginId] then
        (XUserMgr.updatePolicyUser true vXUser).outcome
          (storeRecord userId
            (withPassword row (some (UserText.encrypt row.loginId password))) request)
      else (.error "serverMsg.userMgrNewPassword", request)

section After

variable {password : Option String} {userId : Int} {row : XXPortalUser} {vXUser : VXUser}
  {request : UserRequest}

theorem afterUpdateUser_unasked (unasked : newPassword password = none) :
    afterUpdateUser password userId row vXUser request =
      (XUserMgr.updatePolicyUser true vXUser).outcome request := by
  unfold afterUpdateUser
  rw [unasked]

/-- A password that is stored changes neither the answer nor what else is updated. -/
theorem afterUpdateUser_stored {text : String} (asked : newPassword password = some text)
    (valid : UserText.validatePassword text [row.firstName, row.lastName, row.loginId] = true) :
    ∃ session, afterUpdateUser password userId row vXUser request =
      (((XUserMgr.updatePolicyUser true vXUser).outcome request).1,
        atPortal
          (request.tables.portalUsers.replace userId
            (withPassword row (some (UserText.encrypt row.loginId text))))
          session ((XUserMgr.updatePolicyUser true vXUser).outcome request).2) := by
  unfold afterUpdateUser
  rw [asked]
  dsimp only
  rw [if_pos valid]
  exact ⟨_, ignores_updatePolicyUser true vXUser request⟩

theorem afterUpdateUser_invalid {text : String} (asked : newPassword password = some text)
    (invalid : ¬UserText.validatePassword text
      [row.firstName, row.lastName, row.loginId] = true) :
    afterUpdateUser password userId row vXUser request =
      (.error "serverMsg.userMgrNewPassword", request) := by
  unfold afterUpdateUser
  rw [asked]
  exact if_neg invalid

end After

theorem outcome_updateUserWithPass {guid : String} {userProfile : VXPortalUser}
    {userId : Int} {row : XXPortalUser} {now request : UserRequest}
    (updated : (UserMgr.updateUser guid userProfile).outcome now =
      (.ok (some (userId, row)), request))
    (keys : request.tables.keepsKeys userId row = true) (vXUser : VXUser) :
    (UserMgr.updateUserWithPass guid userProfile >>= fun _ =>
      XUserMgr.updatePolicyUser true vXUser).outcome now =
      afterUpdateUser userProfile.password userId row vXUser request := by
  unfold UserMgr.updateUserWithPass
  rw [outcome_bind, outcome_bind, updated]
  cases given : userProfile.password with
  | none => rfl
  | some password =>
      unfold afterUpdateUser
      dsimp only
      by_cases empty : password.isEmpty = true
      · rw [if_pos empty, newPassword_of_isEmpty empty]
        rfl
      · rw [if_neg empty, newPassword_of_not_isEmpty empty]
        dsimp only
        by_cases valid : UserText.validatePassword password
            [row.firstName, row.lastName, row.loginId] = true
        · rw [if_pos valid, if_pos valid, outcome_bind, outcome_updatePortalUser]
          have kept := keepsKeys_storeRecord keys (some (UserText.encrypt row.loginId password))
          unfold withPassword at kept ⊢
          rw [if_pos kept]
          rfl
        · rw [if_neg valid, if_neg valid]
          rfl

/-- A call for a stored user by an administrator: `updateUser` throws for any password, or the
password matters behind it only. -/
theorem outcome_updateXUserHiding {now : UserRequest} {user : Int × XXPortalUser}
    {vXUser : VXUser} (admin : now.session.userAdmin = true)
    (found : now.tables.findByLoginId vXUser.name = some user) (guid : String) :
    (∃ message request, ∀ hiddenPasswordString password,
      (XUserMgr.updateXUserHiding hiddenPasswordString guid (vXUser.asking password)).outcome now =
        (.error message, request)) ∨
    ∃ row request,
      EditedBy (XUserMgr.requestedProfile (some user.1) vXUser) user.2 row ∧
      Replaced now.tables.portalUsers user.1 row request ∧
      ∀ hiddenPasswordString password,
        (XUserMgr.updateXUserHiding hiddenPasswordString guid (vXUser.asking password)).outcome
          now = afterUpdateUser password user.1 row vXUser request := by
  obtain ⟨oldUserProfile, between, read, unchanged, isSome, sameId⟩ :=
    (reads_getUserProfileByLoginId admin found).returns rfl
  rw [unchanged] at read
  have ⟨stored, _, _⟩ := UserTables.of_findByLoginId found
  have located : now.tables.getPortalUser
      (XUserMgr.requestedProfile (some user.1) vXUser).id = some (user.1, user.2) := by
    change (now.tables.portalUsers.get? user.1).map _ = _
    rw [stored]
    rfl
  have work : ∀ hiddenPasswordString password,
      (XUserMgr.updateXUserHiding hiddenPasswordString guid (vXUser.asking password)).outcome now =
        (UserMgr.updateUserWithPass guid
          { XUserMgr.requestedProfile (some user.1) vXUser with password := password } >>= fun _ =>
            XUserMgr.updatePolicyUser true vXUser).outcome now := by
    intro hiddenPasswordString password
    unfold XUserMgr.updateXUserHiding
    rw [outcome_bind]
    have named : (vXUser.asking password).name = vXUser.name := rfl
    rw [named, read]
    dsimp only
    rw [XUserMgr.profileOf_eq, sameId, isSome]
    rfl
  have edited := replaced_updateUser admin located guid now rfl
  rcases answer : (UserMgr.updateUser guid
    (XUserMgr.requestedProfile (some user.1) vXUser)).outcome now with ⟨result, request⟩
  rw [answer] at edited
  cases result with
  | error message =>
      left
      refine ⟨message, request, fun hiddenPasswordString password => ?_⟩
      rw [work]
      unfold UserMgr.updateUserWithPass
      have again : (UserMgr.updateUser guid
          { XUserMgr.requestedProfile (some user.1) vXUser with password := password }).outcome
            now = (.error message, request) := answer
      rw [outcome_bind, outcome_bind, again]
  | ok result =>
      obtain ⟨row, rfl, editedBy, replaced⟩ := edited
      right
      refine ⟨row, request, editedBy, replaced, fun hiddenPasswordString password => ?_⟩
      have again : (UserMgr.updateUser guid
          { XUserMgr.requestedProfile (some user.1) vXUser with password := password }).outcome
            now = (.ok (some (user.1, row)), request) := answer
      rw [work]
      exact outcome_updateUserWithPass again replaced.keys vXUser

theorem succeeds_iff {hiddenPasswordString guid : String} {vXUser : VXUser} {tables : UserTables}
    {session : UserSessionBase} :
    Succeeds hiddenPasswordString guid vXUser tables session ↔
      ((XUserMgr.updateXUserHiding hiddenPasswordString guid vXUser).outcome
        { tables := tables, session := session }).1 = .ok ⟨⟩ := by
  unfold Succeeds servedXUser transactional
  rcases answer : (XUserMgr.updateXUserHiding hiddenPasswordString guid vXUser).outcome
    { tables := tables, session := session } with ⟨result, request⟩
  dsimp only [outcome] at answer ⊢
  rw [answer]
  cases result with
  | error message => exact Iff.rfl
  | ok value => exact Iff.rfl

/-- The password behind a call, from what the work of the call leaves. -/
theorem passwordBehind_eq {hiddenPasswordString guid : String} {vXUser : VXUser}
    {tables : UserTables} {session : UserSessionBase} {result : Except String PUnit}
    {request : UserRequest}
    (answer : (XUserMgr.updateXUserHiding hiddenPasswordString guid vXUser).outcome
      { tables := tables, session := session } = (result, request)) (userId : Int) :
    passwordBehind hiddenPasswordString guid vXUser tables session userId =
      ((if result = .ok ⟨⟩ then request.tables else tables).portalUsers.get? userId).map
        (·.password) := by
  unfold passwordBehind servedXUser transactional
  dsimp only [outcome] at answer ⊢
  rw [answer]
  cases result with
  | error message => rfl
  | ok value => rfl

variable [PasswordRule]

/-- The password may be given to the user, with the names that the request gives it. -/
def Acceptable (vXUser : VXUser) (gjUser : XXPortalUser) (password : String) : Prop :=
  let edited := UserMgr.editedNames gjUser (XUserMgr.requestedProfile none vXUser)
  StringUtil.validatePassword (some password)
    [edited.firstName, edited.lastName, edited.loginId] = true

theorem EditedBy.acceptable_iff {id : Option Int} {vXUser : VXUser} {gjUser row : XXPortalUser}
    (edited : EditedBy (XUserMgr.requestedProfile id vXUser) gjUser row) (password : String) :
    UserText.validatePassword password [row.firstName, row.lastName, row.loginId] = true ↔
      Acceptable vXUser gjUser password := by
  rw [PasswordRule.validatePassword_eq, edited.names]
  exact Iff.rfl

section Calls

variable (hiddenPasswordString guid : String) (vXUser : VXUser) (tables : UserTables)
  (session : UserSessionBase) (user : Int × XXPortalUser)

/-- The same call without a password returns normally. -/
def Granted : Prop := Succeeds hiddenPasswordString guid (vXUser.asking none) tables session

/-- What a call does with the password it has. -/
structure Serves (password : Option String) : Prop where
  unasked : newPassword password = none →
    (Succeeds hiddenPasswordString guid (vXUser.asking password) tables session ↔
      Granted hiddenPasswordString guid vXUser tables session) ∧
    passwordBehind hiddenPasswordString guid (vXUser.asking password) tables session user.1 =
      some user.2.password
  stored : ∀ text, newPassword password = some text → Acceptable vXUser user.2 text →
    Granted hiddenPasswordString guid vXUser tables session →
    Succeeds hiddenPasswordString guid (vXUser.asking password) tables session ∧
    passwordBehind hiddenPasswordString guid (vXUser.asking password) tables session user.1 =
      some (some (UserText.encrypt user.2.loginId text))
  refused : ∀ text, newPassword password = some text →
    ¬(Acceptable vXUser user.2 text ∧
      Granted hiddenPasswordString guid vXUser tables session) →
    ¬Succeeds hiddenPasswordString guid (vXUser.asking password) tables session ∧
    passwordBehind hiddenPasswordString guid (vXUser.asking password) tables session user.1 =
      some user.2.password

variable {hiddenPasswordString guid vXUser tables session user}

theorem serves_of_admin (admin : session.userAdmin = true)
    (found : tables.findByLoginId vXUser.name = some user) (password : Option String) :
    Serves hiddenPasswordString guid vXUser tables session user password := by
  have ⟨stored, named, _⟩ := UserTables.of_findByLoginId found
  have kept : (tables.portalUsers.get? user.1).map (·.password) = some user.2.password :=
    congrArg (Option.map _) stored
  have start : ({ tables := tables, session := session } : UserRequest).session.userAdmin = true :=
    admin
  rcases outcome_updateXUserHiding start found guid with
    ⟨message, request, threw⟩ | ⟨row, request, edited, replaced, behind⟩
  · have refused : ∀ password,
        ¬Succeeds hiddenPasswordString guid (vXUser.asking password) tables session := by
      intro password succeeded
      rw [succeeds_iff, threw] at succeeded
      cases succeeded
    have same : passwordBehind hiddenPasswordString guid (vXUser.asking password) tables session
        user.1 = some user.2.password := by
      rw [passwordBehind_eq (threw hiddenPasswordString password), if_neg (by rintro ⟨⟩), kept]
    exact ⟨fun _ => ⟨iff_of_false (refused password) (refused none), same⟩,
      fun _ _ _ granted => absurd granted (refused none), fun _ _ _ => ⟨refused password, same⟩⟩
  · have work := behind hiddenPasswordString
    rcases rest : (XUserMgr.updatePolicyUser true vXUser).outcome request with ⟨ending, last⟩
    have users := portalUsers_updatePolicyUser true vXUser request
    rw [rest, replaced.users] at users
    have present : user.1 ∈ tables.portalUsers.ids := Table.mem_ids_of_get? stored
    have finished : Granted hiddenPasswordString guid vXUser tables session ↔
        ending = .ok ⟨⟩ := by
      refine succeeds_iff.trans ?_
      rw [work]
      change ((XUserMgr.updatePolicyUser true vXUser).outcome request).1 = _ ↔ _
      rw [rest]
    constructor
    · intro unasked
      have served := (work password).trans (afterUpdateUser_unasked unasked)
      rw [rest] at served
      constructor
      · rw [succeeds_iff, served, finished]
      · rw [passwordBehind_eq served]
        split
        · rw [users, Table.get?_replace_self present]
          exact congrArg some edited.password
        · exact kept
    · intro text asked acceptable granted
      have valid := (edited.acceptable_iff text).mpr acceptable
      obtain ⟨within, changed⟩ := afterUpdateUser_stored asked valid
      have served := (work password).trans changed
      rw [rest] at served
      have ok := finished.mp granted
      constructor
      · rw [succeeds_iff, served]
        exact ok
      · rw [passwordBehind_eq served, if_pos ok]
        change (((request.tables.portalUsers.replace user.1 _).get? user.1)).map _ = _
        rw [replaced.users, Table.get?_replace_self (by rw [Table.ids_replace]; exact present)]
        have login : row.loginId = user.2.loginId :=
          (congrArg XXPortalUser.loginId edited.names).trans named.symm
        rw [login]
        rfl
    · intro text asked refused
      by_cases acceptable : Acceptable vXUser user.2 text
      · have valid := (edited.acceptable_iff text).mpr acceptable
        obtain ⟨within, changed⟩ := afterUpdateUser_stored asked valid
        have served := (work password).trans changed
        rw [rest] at served
        have failed : ¬ending = .ok ⟨⟩ :=
          fun ok => refused ⟨acceptable, finished.mpr ok⟩
        constructor
        · rw [succeeds_iff, served]
          exact failed
        · rw [passwordBehind_eq served, if_neg failed, kept]
      · have invalid := fun valid => acceptable ((edited.acceptable_iff text).mp valid)
        have served := (work password).trans (afterUpdateUser_invalid asked invalid)
        constructor
        · rw [succeeds_iff, served]
          rintro ⟨⟩
        · rw [passwordBehind_eq served, if_neg (by rintro ⟨⟩), kept]

end Calls

/-- What an update of a user is to do with the password of the request: the placeholder keeps
the stored one, and another one that is valid is stored. -/
structure UpdatesPassword (hiddenPasswordString guid : String) (vXUser : VXUser)
    (tables : UserTables) (session : UserSessionBase) (user : Int × XXPortalUser) : Prop where
  kept : vXUser.password = some hiddenPasswordString →
    (Granted hiddenPasswordString guid vXUser tables session →
      Succeeds hiddenPasswordString guid vXUser tables session) ∧
    passwordBehind hiddenPasswordString guid vXUser tables session user.1 =
      some user.2.password
  changed : ∀ password, vXUser.password = some password → password ≠ hiddenPasswordString →
    password ≠ "" → Acceptable vXUser user.2 password →
    (Granted hiddenPasswordString guid vXUser tables session →
      Succeeds hiddenPasswordString guid vXUser tables session) ∧
    (Succeeds hiddenPasswordString guid vXUser tables session →
      passwordBehind hiddenPasswordString guid vXUser tables session user.1 =
        some (some (UserText.encrypt user.2.loginId password)))

/-- The placeholder of a call that would be granted without a password must be empty, or must
be the user's password. -/
theorem updatesPassword_iff (hiddenPasswordString guid : String) (vXUser : VXUser)
    (tables : UserTables) (session : UserSessionBase) (user : Int × XXPortalUser)
    (admin : session.userAdmin = true) (found : tables.findByLoginId vXUser.name = some user) :
    UpdatesPassword hiddenPasswordString guid vXUser tables session user ↔
      (vXUser.password = some hiddenPasswordString →
        Granted hiddenPasswordString guid vXUser tables session →
          hiddenPasswordString = "" ∨
            (Acceptable vXUser user.2 hiddenPasswordString ∧
              user.2.password =
                some (UserText.encrypt user.2.loginId hiddenPasswordString))) := by
  have serves : Serves hiddenPasswordString guid vXUser tables session user vXUser.password :=
    serves_of_admin admin found vXUser.password
  have asked : ∀ password, vXUser.password = some password → password ≠ "" →
      newPassword vXUser.password = some password := by
    intro password given nonempty
    rw [given, newPassword_of_not_isEmpty (by simpa using nonempty)]
  constructor
  · intro updates given granted
    by_cases empty : hiddenPasswordString = ""
    · exact .inl empty
    right
    have ⟨succeeds, same⟩ := updates.kept given
    by_cases acceptable : Acceptable vXUser user.2 hiddenPasswordString
    · have ⟨_, stored⟩ := serves.stored _ (asked _ given empty) acceptable granted
      exact ⟨acceptable, Option.some.inj (same.symm.trans stored)⟩
    · have refused := serves.refused _ (asked _ given empty) fun both => acceptable both.1
      exact absurd (succeeds granted) refused.1
  · intro condition
    constructor
    · intro given
      by_cases empty : hiddenPasswordString = ""
      · have unasked : newPassword vXUser.password = none := by
          rw [given, newPassword_of_isEmpty (by rw [empty]; rfl)]
        exact ⟨(serves.unasked unasked).1.mpr, (serves.unasked unasked).2⟩
      have asks := asked _ given empty
      by_cases granted : Granted hiddenPasswordString guid vXUser tables session
      · rcases condition given granted with empty' | ⟨acceptable, already⟩
        · exact absurd empty' empty
        · have ⟨succeeds, stored⟩ := serves.stored _ asks acceptable granted
          exact ⟨fun _ => succeeds, by rw [already]; exact stored⟩
      · have ⟨_, same⟩ := serves.refused _ asks fun both => granted both.2
        exact ⟨fun given => absurd given granted, same⟩
    · intro password given differs nonempty acceptable
      have asks := asked _ given nonempty
      refine ⟨fun granted => (serves.stored _ asks acceptable granted).1, fun succeeds => ?_⟩
      by_cases granted : Granted hiddenPasswordString guid vXUser tables session
      · exact (serves.stored _ asks acceptable granted).2
      · exact absurd succeeds (serves.refused _ asks fun both => granted both.2).1

end Law

section Slip

/-- The digits and letters of ASCII. -/
@[reducible] def StringUtil.CharacterClasses.ascii : StringUtil.CharacterClasses where
  isDigit unit := 48 ≤ unit && unit ≤ 57
  isLetter unit := (65 ≤ unit && unit ≤ 90) || (97 ≤ unit && unit ≤ 122)

/-- Text tools for ASCII text, with the rule of `StringUtil` for passwords. -/
@[reducible] def UserText.strict : @UserText Platform.ascii :=
  letI := Platform.ascii
  letI := StringUtil.CharacterClasses.ascii
  { UserText.ascii with
    validatePassword := fun password invalidValues =>
      StringUtil.validatePassword (some password) invalidValues }

@[reducible] def PasswordRule.strict : @PasswordRule Platform.ascii UserText.strict :=
  letI := Platform.ascii
  letI := UserText.strict
  { StringUtil.CharacterClasses.ascii with validatePassword_eq := fun _ _ => rfl }

attribute [local instance] Platform.ascii UserText.strict PasswordRule.strict

/-- A user with a password, and a user of the policies of the same name. -/
def kateStored : UserTables where
  portalUsers :=
    Table.empty.insert
      { loginId := some "kate", firstName := some "Kate", password := some "first" }
  portalUserRoles := Table.empty
  users := Table.empty.insert { name := "kate", description := "" }
  groups := Table.empty
  groupUsers := Table.empty

def adminSession : UserSessionBase where
  xXPortalUser := some (7, { loginId := some "admin" })
  userAdmin := true

/-- The user as it is viewed, with its last name edited. -/
def kateViewed (password : String) : VXUser where
  id := some 1
  name := some "kate"
  description := some ""
  firstName := some "Kate"
  lastName := some "Doe"
  password := some password

/-- A new password. -/
theorem updatesPassword_new :
    UpdatesPassword "*****" "guid" (kateViewed "kates3cret") kateStored adminSession
      (1, { loginId := some "kate", firstName := some "Kate", password := some "first" }) :=
  (updatesPassword_iff "*****" "guid" (kateViewed "kates3cret") kateStored adminSession _ rfl
    (by decide +kernel)).mpr fun hidden => absurd hidden (by decide)

/-- The placeholder of the view is refused as a password that is too short. -/
theorem not_updatesPassword_hidden :
    (servedXUser "*****" "guid" (kateViewed "*****") kateStored adminSession).1 =
        .error "serverMsg.userMgrNewPassword" ∧
      Granted "*****" "guid" (kateViewed "*****") kateStored adminSession ∧
      ¬UpdatesPassword "*****" "guid" (kateViewed "*****") kateStored adminSession
        (1, { loginId := some "kate", firstName := some "Kate", password := some "first" }) := by
  have threw : (servedXUser "*****" "guid" (kateViewed "*****") kateStored adminSession).1 =
      .error "serverMsg.userMgrNewPassword" := by
    decide +kernel
  have granted : Granted "*****" "guid" (kateViewed "*****") kateStored adminSession := by
    unfold Granted Succeeds
    decide +kernel
  refine ⟨threw, granted, fun updates => ?_⟩
  have succeeds := (updates.kept rfl).1 granted
  unfold Succeeds at succeeds
  rw [threw] at succeeds
  cases succeeds

end Slip

end Ranger

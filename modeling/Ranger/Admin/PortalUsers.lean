import Ranger.Foundation.Table
import Ranger.Foundation.Throwing
import Ranger.Platform

/-! # Users of the portal, their roles and sessions

The tables of `UserMgr` and `XUserMgr`, and the calls of `UserMgr`, `UserREST` and
`SessionMgr` that change a user of the portal or a role. A call is a transaction: what
it wrote is rolled back when it throws. The session of the caller is an object in memory
and is not; once it was refreshed within a call, its user is the record the call edits.
-/

namespace Ranger

open Foundation

/-- What the calls take from `StringUtil`, the configuration and the digests of
passwords. -/
class UserText [Platform] where
  /-- `String.toUpperCase`. -/
  upperCase : String → String
  /-- Capitals of an ASCII text, in any spelling, are compared like the text. -/
  equalsIgnoreCase_upperCase : ∀ text latin, isLatin latin = true →
    equalsIgnoreCase text latin = true → equalsIgnoreCase (upperCase text) latin = true
  toCamelCaseAllWords : String → String
  validateEmail : String → Bool
  /-- `validatePassword`, from the password and the values it must not be. -/
  validatePassword : String → List (Option String) → Bool
  isValidName : String → Bool
  /-- `validateString` for names. -/
  matchesName : String → Bool
  /-- `UserMgr.encrypt`, from the login id and the password. -/
  encrypt : Option String → String → String
  /-- `RangerConfigUtil.getRoles`. -/
  roles : List String

/-- Text tools for ASCII text, with the password as its own digest. -/
@[reducible] def UserText.ascii : @UserText Platform.ascii :=
  letI := Platform.ascii
  { upperCase := fun text => String.ofList (text.toList.map Char.toUpper)
    equalsIgnoreCase_upperCase := by
      intro text latin _ same
      rw [equalsIgnoreCase_iff] at same ⊢
      rw [← same, String.toList_ofList, List.map_map]
      apply List.map_congr_left
      intro char _
      change (char.toUpper.toUpper).toLower = char.toUpper.toLower
      rw [toUpper_toUpper]
    toCamelCaseAllWords := id
    validateEmail := fun text => text.toList.contains '@'
    validatePassword := fun text _ => 8 ≤ text.length
    isValidName := fun text => !text.isEmpty
    matchesName := fun text => text.toList.all Char.isAlpha
    encrypt := fun _ password => password
    roles := ["ROLE_SYS_ADMIN", "ROLE_USER", "ROLE_OTHER", "ROLE_ANON"] }

structure XXPortalUser where
  loginId : Option String := none
  emailAddress : Option String := none
  firstName : Option String := none
  lastName : Option String := none
  publicScreenName : Option String := none
  password : Option String := none
  status : Int := 1
  userSource : Int := 0
  notes : Option String := none
  deriving DecidableEq

structure XXPortalUserRole where
  userId : Int
  userRole : String
  deriving DecidableEq

structure XXUser where
  name : String
  description : String
  isVisible : Int := 0
  credStoreId : Option Int := none
  deriving DecidableEq

structure XXGroup where
  name : String
  description : String
  isVisible : Int := 0
  groupType : Int := 0
  credStoreId : Option Int := none
  deriving DecidableEq

structure XXGroupUser where
  name : String
  parentGroupId : Int
  userId : Int
  deriving DecidableEq

/-- A user of the portal as a request has it. -/
structure VXPortalUser extends XXPortalUser where
  id : Option Int := none
  userRoleList : Option (List String) := none

/-- The tables of users and groups. -/
structure UserTables where
  portalUsers : Table XXPortalUser
  portalUserRoles : Table XXPortalUserRole
  users : Table XXUser
  groups : Table XXGroup
  groupUsers : Table XXGroupUser

/-- A session, with its user by id and record. -/
structure UserSessionBase where
  xXPortalUser : Option (Int × XXPortalUser)
  userAdmin : Bool := false
  userRoleList : List String := []
  deriving DecidableEq

def ROLE_SYS_ADMIN : String := "ROLE_SYS_ADMIN"

def ROLE_USER : String := "ROLE_USER"

def ROLE_OTHER : String := "ROLE_OTHER"

/-- `StringUtil.isEmpty`. -/
def isEmptyText : Option String → Bool
  | none => true
  | some text => (trim text).isEmpty

/-- A text in a concatenation. -/
def textOrNull (text : Option String) : String := text.getD "null"

namespace UserTables

variable (tables : UserTables)

/-- `XXPortalUserDao.findByLoginId`. -/
def findByLoginId (loginId : Option String) : Option (Int × XXPortalUser) :=
  if isEmptyText loginId then none else tables.portalUsers.find? (·.loginId == loginId)

/-- `XXPortalUserDao.findByEmailAddress`. -/
def findByEmailAddress (emailAddress : Option String) : Option (Int × XXPortalUser) :=
  if isEmptyText emailAddress then none
  else tables.portalUsers.find? (·.emailAddress == emailAddress)

/-- `XXPortalUserRoleDao.findByUserId`. -/
def rolesOf (userId : Int) : List (Int × XXPortalUserRole) :=
  tables.portalUserRoles.rows.entries.filter (·.2.userId == userId)

/-- `BaseDao.getById`; there is no record without an id. -/
def getPortalUser (id : Option Int) : Option (Int × XXPortalUser) :=
  id.bind fun id => (tables.portalUsers.get? id).map fun row => (id, row)

/-- The login ids and the addresses of the portal users that have one differ: the unique
keys of the table, for the record of one id. -/
def keepsKeys (id : Int) (row : XXPortalUser) : Bool :=
  tables.portalUsers.rows.entries.all fun other =>
    other.1 == id ||
      ((row.loginId.isNone || other.2.loginId != row.loginId) &&
        (row.emailAddress.isNone || other.2.emailAddress != row.emailAddress))

end UserTables

namespace UserSessionBase

variable (session : UserSessionBase)

def getUserId : Option Int := session.xXPortalUser.map (·.1)

def getLoginId : Option String := session.xXPortalUser.bind (·.2.loginId)

end UserSessionBase

/-- A request that is served: the tables as its transaction sees them and the session of
the caller. The user of the session is managed from when it was read in the transaction. -/
structure UserRequest where
  tables : UserTables
  session : UserSessionBase
  managed : Bool := false

/-- The work of a request; it throws with a message. -/
abbrev Serving (α : Type) := Throwing String UserRequest α

def nullPointer : String := "NullPointerException"

namespace SessionMgr

/-- `resetUserSessionForProfiles`: the session takes the user of its login id anew. -/
def resetUserSessionForProfiles : Serving Unit :=
  modify fun request =>
    let gjUser := request.tables.findByLoginId request.session.getLoginId
    let roles :=
      match gjUser with
      | none => []
      | some (userId, _) => (request.tables.rolesOf userId).map (·.2.userRole)
    { request with
      session :=
        { xXPortalUser := gjUser
          userAdmin := request.session.userAdmin || roles.contains ROLE_SYS_ADMIN
          userRoleList := roles }
      managed := true }

end SessionMgr

namespace UserMgr

section Roles

variable [Platform] [UserText]

def publicRoles : List String := [ROLE_USER, ROLE_OTHER]

def isPublicRole (userRole : String) : Bool := publicRoles.any (equalsIgnoreCase · userRole)

/-- The access check of the calls that change a user. -/
def checkAccess (gjUser : Option (Int × XXPortalUser)) : Serving Unit := do
  match gjUser with
  | none => throw "serverMsg.userMgrWrongUser"
  | some (userId, _) =>
      let request ← get
      if request.session.userAdmin then return ()
      else
        match request.session.xXPortalUser with
        | none => throw nullPointer
        | some (callerId, _) =>
            if callerId = userId then return ()
            else
              throw ("User  access denied. loggedInUser=" ++ toString callerId ++
                ", accessing user=" ++ toString userId)

/-- `deleteUserRole(Long, XXPortalUserRole)`. -/
def deleteUserRole (gjUserRole : Int × XXPortalUserRole) : Serving Bool := do
  let request ← get
  if !isPublicRole gjUserRole.2.userRole && !request.session.userAdmin then return false
  else
    modify fun request =>
      { request with
        tables :=
          { request.tables with
            portalUserRoles := request.tables.portalUserRoles.remove gjUserRole.1 } }
    return true

/-- `deleteUserRole(Long, String)`. -/
def deleteUserRoleNamed (userId : Int) (userRole : String) : Serving Bool := do
  let request ← get
  match (request.tables.rolesOf userId).find? fun gjUserRole =>
      equalsIgnoreCase gjUserRole.2.userRole userRole with
  | none => return false
  | some gjUserRole => deleteUserRole gjUserRole

/-- The role is returned if the user has it already. -/
def addUserRole (userId : Int) (userRole : String) : Serving (Option (Int × XXPortalUserRole)) := do
  let request ← get
  if !isPublicRole userRole && !request.session.userAdmin then return none
  else
    match (request.tables.rolesOf userId).find? fun gjUserRole =>
        equalsIgnoreCase userRole gjUserRole.2.userRole with
    | some gjUserRole => return some gjUserRole
    | none =>
        modify fun request =>
          { request with
            tables :=
              { request.tables with
                portalUserRoles :=
                  request.tables.portalUserRoles.insert ⟨userId, UserText.upperCase userRole⟩ } }
        -- a user with another role is not an OTHER
        if !equalsIgnoreCase ROLE_OTHER userRole then
          let _ ← deleteUserRoleNamed userId ROLE_OTHER
        SessionMgr.resetUserSessionForProfiles
        return none

/-- The roles that are not listed go, then the listed ones come. -/
def updateRoles (userId : Int) (rolesList : List String) : Serving Unit := do
  if rolesList.isEmpty then return ()
  else
    let request ← get
    let gjUserRoles := request.tables.rolesOf userId
    gjUserRoles.forM fun gjUserRole => do
      if !rolesList.any (equalsIgnoreCase gjUserRole.2.userRole ·) then
        let _ ← deleteUserRole gjUserRole
    rolesList.forM fun userRole => do
      if !gjUserRoles.any (equalsIgnoreCase ·.2.userRole userRole) then
        let _ ← addUserRole userId userRole

def setUserRoles (userId : Int) (roleList : List String) : Serving Unit :=
  updateRoles userId roleList

end Roles

section Users

variable [Platform] [UserText]

/-- `XPortalUserService.updateResource` and `XXPortalUserDao.update`: the record is edited
where it is, and the flush fails on a key that is in use. -/
def updatePortalUser (userId : Int) (row : XXPortalUser) : Serving Unit := do
  modify fun request =>
    { request with
      tables :=
        { request.tables with portalUsers := request.tables.portalUsers.replace userId row }
      session :=
        if request.managed && request.session.getUserId == some userId then
          { request.session with xXPortalUser := some (userId, row) }
        else request.session }
  let request ← get
  if request.tables.keepsKeys userId row then return ()
  else throw "PersistenceException"

/-- The address of an updated user: a random one for none, and none of another login. -/
def checkEmailAddress (guid : String) (userProfile : VXPortalUser) : Serving (Option String) := do
  if isEmptyText userProfile.emailAddress then return some guid
  else if userProfile.emailAddress.any UserText.validateEmail then
    let request ← get
    match request.tables.findByEmailAddress userProfile.emailAddress with
    | none => return userProfile.emailAddress
    | some (_, checkUser) =>
        match userProfile.loginId with
        | none => throw "Invalid user, please provide valid username."
        | some loginId =>
            if checkUser.loginId = some loginId then return userProfile.emailAddress
            else throw "The email address you've provided already exists in system."
  else throw "Please provide valid email address."

/-- The names of an updated user. -/
def editedNames (gjUser : XXPortalUser) (userProfile : VXPortalUser) : XXPortalUser :=
  let firstName :=
    if !isEmptyText userProfile.firstName && userProfile.firstName != gjUser.firstName then
      userProfile.firstName.map UserText.toCamelCaseAllWords
    else userProfile.firstName
  let lastName :=
    if userProfile.lastName.isSome && userProfile.lastName != gjUser.lastName then
      userProfile.lastName.map UserText.toCamelCaseAllWords
    else userProfile.lastName
  let publicScreenName :=
    if !isEmptyText userProfile.publicScreenName &&
        userProfile.publicScreenName != gjUser.publicScreenName then
      some (textOrNull firstName ++ " " ++ textOrNull lastName)
    else userProfile.publicScreenName
  { userProfile.toXXPortalUser with
    firstName := firstName
    lastName := lastName
    publicScreenName := publicScreenName }

/-- The user as it is updated. An address that passes its check always sets `updateUser`. -/
def updateUser (guid : String) (userProfile : VXPortalUser) :
    Serving (Option (Int × XXPortalUser)) := do
  let request ← get
  match request.tables.getPortalUser userProfile.id with
  | none => return none
  | some (userId, gjUser) =>
      checkAccess (some (userId, gjUser))
      let emailAddress ← checkEmailAddress guid userProfile
      let row :=
        { editedNames gjUser userProfile with
          emailAddress := emailAddress
          password := gjUser.password }
      updateRoles userId (userProfile.userRoleList.getD [])
      updatePortalUser userId row
      SessionMgr.resetUserSessionForProfiles
      return some (userId, row)

def updateUserWithPass (guid : String) (userProfile : VXPortalUser) :
    Serving (Option (Int × XXPortalUser)) := do
  let xXPortalUser ← updateUser guid userProfile
  match xXPortalUser with
  | none => return none
  | some (userId, row) =>
      match userProfile.password with
      | none => return xXPortalUser
      | some password =>
          if password.isEmpty then return xXPortalUser
          else if UserText.validatePassword password [row.firstName, row.lastName, row.loginId] then
            let row := { row with password := some (UserText.encrypt row.loginId password) }
            updatePortalUser userId row
            return some (userId, row)
          else throw "serverMsg.userMgrNewPassword"

/-- The view of a user, which is empty for other users than the caller's unless the caller
is an administrator. -/
def mapXXPortalUserVXPortalUser (user : Int × XXPortalUser) : Serving VXPortalUser := do
  let request ← get
  let userProfile : VXPortalUser :=
    { id := some user.1
      loginId := user.2.loginId
      emailAddress := user.2.emailAddress.filter UserText.validateEmail
      firstName := user.2.firstName
      lastName := user.2.lastName
      publicScreenName := user.2.publicScreenName
      status := user.2.status
      userSource := user.2.userSource
      userRoleList := some ((request.tables.rolesOf user.1).map (·.2.userRole)) }
  if request.session.userAdmin then return userProfile
  else
    match request.session.xXPortalUser with
    | none => throw nullPointer
    | some (callerId, _) =>
        if callerId = user.1 then return userProfile
        else return { userSource := user.2.userSource }

def getUserProfileByLoginId (loginId : Option String) : Serving (Option VXPortalUser) := do
  let request ← get
  match request.tables.findByLoginId loginId with
  | none => return none
  | some user =>
      let userProfile ← mapXXPortalUserVXPortalUser user
      return some userProfile

end Users

end UserMgr

namespace RangerRestUtil

variable [Platform] [UserText]

/-- `validateStringForUpdate` for names. -/
def validateStringForUpdate (value originalValue : Option String) (errorMessage : String) :
    Serving (Option String) := do
  match value with
  | none => return none
  | some text =>
      if isEmptyText value then return none
      else if originalValue.any (equalsIgnoreCase text ·) then return value
      else if UserText.matchesName (trim text) then return some (trim text)
      else throw errorMessage

/-- `String.split` at commas: no empty piece is last, unless it is the only one. -/
def splitRoles (role : String) : List String :=
  let pieces := (role.toList.splitOn ',').map String.ofList
  if pieces.length = 1 then pieces else (pieces.reverse.dropWhile (·.isEmpty)).reverse

/-- The login id may change in letter case. -/
def validateLoginId (gjUser : XXPortalUser) (userProfile : VXPortalUser) : Serving PUnit := do
  match userProfile.loginId with
  | none => return ()
  | some loginId =>
      match gjUser.loginId with
      | none => throw nullPointer
      | some current =>
          if equalsIgnoreCase current loginId then return ()
          else throw "Username can't be updated"

/-- The profile as it is cleaned up. -/
def validateVUserProfileForUpdate (gjUser : XXPortalUser) (userProfile : VXPortalUser) :
    Serving VXPortalUser := do
  validateLoginId gjUser userProfile
  let firstName ←
    validateStringForUpdate userProfile.firstName gjUser.firstName "Invalid first name"
  let firstName ← validateStringForUpdate firstName gjUser.firstName "Invalid first name"
  let lastName ← validateStringForUpdate userProfile.lastName gjUser.lastName "Invalid last name"
  let notes ← validateStringForUpdate userProfile.notes gjUser.notes "Invalid notes"
  let userRoleList := userProfile.userRoleList.map (·.flatMap splitRoles)
  if (userRoleList.getD []).all UserText.roles.contains then
    if firstName.any UserText.isValidName && lastName.any UserText.isValidName then
      return { userProfile with
        firstName := firstName
        lastName := lastName
        publicScreenName := some (textOrNull firstName ++ " " ++ textOrNull lastName)
        notes := notes
        userRoleList := userRoleList }
    else throw "Validation failure"
  else throw "Invalid role"

end RangerRestUtil

namespace UserREST

variable [Platform] [UserText]

def update (guid : String) (userProfile : VXPortalUser) : Serving Unit := do
  let request ← get
  let gjUser := request.tables.getPortalUser userProfile.id
  UserMgr.checkAccess gjUser
  match gjUser with
  | none => throw "serverMsg.userRestUser"
  | some (_, row) =>
      let userProfile ← RangerRestUtil.validateVUserProfileForUpdate row userProfile
      match ← UserMgr.updateUser guid userProfile with
      | none => return ()
      | some gjUser =>
          let _ ← UserMgr.mapXXPortalUserVXPortalUser gjUser

def setUserRoles (userId : Int) (roleList : List String) : Serving Unit := do
  let request ← get
  UserMgr.checkAccess (request.tables.getPortalUser (some userId))
  UserMgr.setUserRoles userId roleList

end UserREST

end Ranger

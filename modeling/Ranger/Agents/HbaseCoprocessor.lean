import Mathlib.Data.List.Dedup
import Ranger.Foundation.Outcome
import Ranger.Model

/-! # Authorization of column families and columns

A request to a region of a table names column families and columns of them. Each is put
to the policy engine by itself; what was allowed is remembered for a filter that decides
about the cells that are read.
-/

namespace Ranger

open Foundation

/-- What `Bytes.toString` makes of bytes that are not the UTF-8 encoding of a text. -/
class Malformed where
  text : ByteArray → String

/-- `Bytes.toString`. -/
def Bytes.toString [Malformed] (bytes : ByteArray) : String :=
  (String.fromUTF8? bytes).getD (Malformed.text bytes)

inductive Permission.Action where
  | read
  | write
  | exec
  | create
  | admin
  deriving DecidableEq

namespace HbaseAuthUtils

def ACCESS_TYPE_READ : String := "read"

def ACCESS_TYPE_WRITE : String := "write"

def ACCESS_TYPE_CREATE : String := "create"

def ACCESS_TYPE_ADMIN : String := "admin"

def getAccess : Permission.Action → String
  | .read => ACCESS_TYPE_READ
  | .write => ACCESS_TYPE_WRITE
  | .create => ACCESS_TYPE_CREATE
  | .admin => ACCESS_TYPE_ADMIN
  | .exec => "exec"

def isReadAccess (access : String) : Bool := getAccess .read == access

def isWriteAccess (access : String) : Bool := getAccess .write == access

end HbaseAuthUtils

structure User where
  name : String
  shortName : String
  groupNames : List String := []

inductive HbaseException where
  | accessDenied (message : String)
  | illegalState (message : String)
  deriving DecidableEq

/-- The session of an authorization, of which parts are set anew for each question. -/
structure AuthorizationSession where
  access : String
  user : User
  superUser : Bool
  remoteAddress : Option String := none
  table : Option String := none
  columnFamily : Option String := none
  column : Option String := none

namespace AuthorizationSession

variable (session : AuthorizationSession)

def isProvided (text : Option String) : Bool :=
  match text with
  | none => false
  | some text => !text.isEmpty

def incomplete (reason : String) : HbaseException :=
  .illegalState
    ("Internal error: Incomplete/inconsisten state: [" ++ reason ++ "]. Can't build auth request!")

def verifyBuildable : Except HbaseException Unit :=
  if session.access.isEmpty then .error (incomplete "access is null")
  else if isProvided session.columnFamily && !isProvided session.table then
    .error (incomplete "Table must be provided if column-family is provided")
  else if isProvided session.column && !isProvided session.columnFamily then
    .error (incomplete "Column family must be provided if column is provided")
  else .ok ()

def resource : RangerAccessResource :=
  ((({} : RangerAccessResource).setValue "table" session.table).setValue "column-family"
    session.columnFamily).setValue "column" session.column

def request : RangerAccessRequest :=
  { RangerAccessRequest.create session.resource session.access (some session.user.shortName)
      session.user.groupNames with
    clientIPAddress := session.remoteAddress }

/-- What the policy engine answers, unless the user is a super user. -/
def isAuthorized (authorizer : Authorizer) : Bool :=
  (match authorizer session.request with
    | none => false
    | some result => result.isAllowed) || session.superUser

/-- `buildRequest`, `authorize` and `isAuthorized`. -/
def authorize (authorizer : Authorizer) : Except HbaseException Bool := do
  session.verifyBuildable
  return session.isAuthorized authorizer

/-- Whether a family or a column of it is authorized. -/
def isAuthorizedFor (authorizer : Authorizer) (family : String) (column : Option String) : Bool :=
  { session with columnFamily := some family, column := column }.isAuthorized authorizer

end AuthorizationSession

/-- What a request names: families, with columns or without. -/
abbrev FamilyMap := AssocMap (Option ByteArray) (Option (List (Option ByteArray)))

/-- The environment a coprocessor runs in. -/
structure RegionCoprocessorEnvironment where
  tableName : Option ByteArray
  isMetaTable : Bool := false
  activeUser : Option User
  superUsers : List String := []
  remoteAddress : Option String := none

structure ColumnFamilyAccessResult where
  everythingIsAccessible : Bool
  somethingIsAccessible : Bool
  /-- Null columns imply access to all columns of a family. -/
  allowedColumns : Option (AssocMap String (Option (List String))) := none
  denialReason : Option String := none

namespace RangerAuthorizationCoprocessor

section Evaluation

variable [Malformed]

/-- The columns of a collection; a null one is read as an empty text. -/
def columnsOf : Option (List (Option ByteArray)) → List String
  | none => []
  | some columnCollection =>
      (columnCollection.map fun column => (column.map Bytes.toString).getD "").dedup

/-- A family without a name is ignored. -/
def addFamily (result : AssocMap String (List String))
    (anEntry : Option ByteArray × Option (List (Option ByteArray))) :
    AssocMap String (List String) :=
  match anEntry.1.map Bytes.toString with
  | none => result
  | some family => if family.isEmpty then result else result.put family (columnsOf anEntry.2)

def getColumnFamilies (families : Option FamilyMap) : AssocMap String (List String) :=
  match families with
  | none => ∅
  | some families => families.entries.foldl addFamily ∅

def isSpecialTable (tableNameStr : String) : Bool :=
  tableNameStr == "hbase:meta" || tableNameStr == "-ROOT-" || tableNameStr == ".META."

/-- The tables everybody may read, and those that a global create access lets write. -/
def canSkipAccessCheck (authorizer : Authorizer) (env : RegionCoprocessorEnvironment)
    (user : User) (access table : String) : Except HbaseException Bool :=
  if HbaseAuthUtils.isReadAccess access && isSpecialTable table then .ok true
  else if env.isMetaTable && HbaseAuthUtils.isReadAccess access then .ok true
  else if HbaseAuthUtils.isWriteAccess access && env.isMetaTable then
    AuthorizationSession.authorize
      { access := HbaseAuthUtils.getAccess .create
        user := user
        superUser := env.superUsers.contains user.shortName
        remoteAddress := env.remoteAddress } authorizer
  else .ok false

/-- The variables of the loops over families and columns. -/
structure Evaluated where
  everythingIsAccessible : Bool := true
  somethingIsAccessible : Bool := false
  denialReason : Option String := none
  accessResultsCache : AssocMap String (Option (List String)) := ∅

variable (authorizer : Authorizer) (operation : String) (session : AuthorizationSession)

/-- The beginning of the reason of a denial. -/
def insufficient : String :=
  "Insufficient permissions for user ‘" ++ session.user.name ++ "',action: " ++ operation ++
    ", tableName:" ++ session.table.getD "null"

/-- A turn of the loop over the columns of a family. -/
def visitColumn (family : String) (state : Evaluated × List String) (column : String) :
    Except HbaseException (Evaluated × List String) := do
  let authorized ← AuthorizationSession.authorize
    { session with columnFamily := some family, column := some column } authorizer
  if authorized then
    return ({ state.1 with somethingIsAccessible := true }, state.2 ++ [column])
  else
    return ({ state.1 with
      everythingIsAccessible := false
      denialReason := some (insufficient operation session ++ ", family:" ++ family ++
        ", column: " ++ column) }, state.2)

/-- A turn of the loop over the families. -/
def visitFamily (state : Evaluated) (anEntry : String × List String) :
    Except HbaseException Evaluated := do
  let (family, columns) := anEntry
  if columns.isEmpty then
    let authorized ← AuthorizationSession.authorize
      { session with columnFamily := some family, column := none } authorizer
    if authorized then
      return { state with
        somethingIsAccessible := true
        accessResultsCache := state.accessResultsCache.put family none }
    else
      return { state with
        everythingIsAccessible := false
        denialReason := some (insufficient operation session ++ ", family:" ++ family ++
          ", no columns found.") }
  else
    let (state, accessibleColumns) ←
      columns.foldlM (visitColumn authorizer operation session family) (state, [])
    if accessibleColumns.isEmpty then return state
    else
      return { state with
        accessResultsCache :=
          state.accessResultsCache.put family (some accessibleColumns) }

/-- The access to what a session names. -/
def evaluateFamilies (families : AssocMap String (List String)) :
    Except HbaseException ColumnFamilyAccessResult := do
  if families.isEmpty then
    let authorized ← session.authorize authorizer
    return {
      everythingIsAccessible := authorized
      somethingIsAccessible := authorized
      denialReason := some (if authorized then ""
        else insufficient operation session ++ ", no column families found.") }
  else
    let state ← families.entries.foldlM (visitFamily authorizer operation session) {}
    return {
      everythingIsAccessible := state.everythingIsAccessible
      somethingIsAccessible := state.somethingIsAccessible
      allowedColumns := some state.accessResultsCache
      denialReason := state.denialReason }

/-- The name of an action as it is written into a text. -/
def actionName : Permission.Action → String
  | .read => "READ"
  | .write => "WRITE"
  | .exec => "EXEC"
  | .create => "CREATE"
  | .admin => "ADMIN"

/-- The session of the questions about a table. -/
def sessionFor (action : Permission.Action) (env : RegionCoprocessorEnvironment) (user : User)
    (table : String) : AuthorizationSession where
  access := HbaseAuthUtils.getAccess action
  user := user
  superUser := env.superUsers.contains user.shortName
  remoteAddress := env.remoteAddress
  table := some table

def evaluateAccess (action : Permission.Action) (env : RegionCoprocessorEnvironment)
    (familyMap : Option FamilyMap) : Except HbaseException ColumnFamilyAccessResult := do
  let access := HbaseAuthUtils.getAccess action
  match env.tableName with
  | none =>
      throw (.accessDenied ("Insufficient permissions for operation '" ++ operation ++
        "',action: " ++ actionName action))
  | some tableBytes =>
      if tableBytes.isEmpty then
        throw (.accessDenied ("Insufficient permissions for operation '" ++ operation ++
          "',action: " ++ actionName action))
      let table := Bytes.toString tableBytes
      match env.activeUser with
      | none =>
          throw (.accessDenied ("No user associated with request (" ++ operation ++
            ") for action: " ++ access ++ "on table:" ++ table))
      | some user =>
          let skipped ← canSkipAccessCheck authorizer env user access table
          if skipped then
            return { everythingIsAccessible := true, somethingIsAccessible := true }
          else
            evaluateFamilies authorizer operation (sessionFor action env user table)
              (getColumnFamilies familyMap)

end Evaluation

end RangerAuthorizationCoprocessor

inductive ReturnCode where
  | include
  | nextCol
  deriving DecidableEq

/-- `RangerAuthorizationFilter.filterKeyValue`. -/
def RangerAuthorizationFilter.filterKeyValue [Malformed]
    (cache : Option (AssocMap String (Option (List String))))
    (familyBytes columnBytes : Option ByteArray) : ReturnCode :=
  match cache with
  | none => .nextCol
  | some cache =>
      if cache.isEmpty then .nextCol
      else
        match familyBytes with
        | none => .nextCol
        | some familyBytes =>
            if familyBytes.isEmpty then .nextCol
            else
              match cache.get? (Bytes.toString familyBytes) with
              | none => .nextCol
              | some columns =>
                  if (columns.getD []).isEmpty then .include
                  else
                    match columnBytes with
                    | none => .nextCol
                    | some columnBytes =>
                        if columnBytes.isEmpty then .nextCol
                        else if (columns.getD []).contains (Bytes.toString columnBytes) then
                          .include
                        else .nextCol

end Ranger

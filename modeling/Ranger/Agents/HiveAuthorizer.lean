import Mathlib.Data.List.Infix
import Ranger.Agents.Hadoop
import Ranger.Platform

/-! # Authorization of Hive operations

An operation names the objects it reads and writes. A request is made for each of them,
unless there is an equal one, and an object with columns becomes a request for each column
when it is put to the plugin.
-/

namespace Ranger

open Foundation

inductive HiveOperationType where
  | createdatabase | createfunction | createtable | createview | createtableAsSelect
  | alterdatabase | alterdatabaseOwner | alterindexProps | alterindexRebuild
  | alterpartitionBucketnum | alterpartitionFileformat | alterpartitionLocation
  | alterpartitionMergefiles | alterpartitionProtectmode | alterpartitionSerdeproperties
  | alterpartitionSerializer | altertableAddcols | altertableAddparts | altertableArchive
  | altertableBucketnum | altertableClusterSort | altertableCompact | altertableDropparts
  | altertableFileformat | altertableLocation | altertableMergefiles | altertablePartcoltype
  | altertableProperties | altertableProtectmode | altertableRename | altertableRenamecol
  | altertableRenamepart | altertableReplacecols | altertableSerdeproperties
  | altertableSerializer | altertableSkewed | altertableTouch | altertableUnarchive
  | altertableUpdatepartstats | altertableUpdatetablestats | altertblpartSkewedLocation
  | alterviewAs | alterviewProperties | alterviewRename | dropviewProperties | dropfunction
  | dropindex | droptable | dropview | dropdatabase | createindex | «import» | «export» | load
  | lockdb | locktable | unlockdb | unlocktable | query | showTablestatus | showCreatetable
  | showcolumns | showindexes | showpartitions | showTblproperties | desctable | analyzeTable
  | switchdatabase | descdatabase | truncatetable | grantPrivilege | revokePrivilege | add
  | delete | compile | createMacro | createrole | descfunction | dfs | dropMacro | droprole
  | explain | grantRole | msck | revokeRole | reset | set | showconf | showdatabases
  | showfunctions | showlocks | showtables | showCompactions | showGrant | showRoles
  | showRoleGrant | showRolePrincipals | showTransactions
  deriving DecidableEq

def HiveOperationType.name : HiveOperationType → String
  | .createdatabase => "CREATEDATABASE"
  | .createfunction => "CREATEFUNCTION"
  | .createtable => "CREATETABLE"
  | .createview => "CREATEVIEW"
  | .createtableAsSelect => "CREATETABLE_AS_SELECT"
  | .alterdatabase => "ALTERDATABASE"
  | .alterdatabaseOwner => "ALTERDATABASE_OWNER"
  | .alterindexProps => "ALTERINDEX_PROPS"
  | .alterindexRebuild => "ALTERINDEX_REBUILD"
  | .alterpartitionBucketnum => "ALTERPARTITION_BUCKETNUM"
  | .alterpartitionFileformat => "ALTERPARTITION_FILEFORMAT"
  | .alterpartitionLocation => "ALTERPARTITION_LOCATION"
  | .alterpartitionMergefiles => "ALTERPARTITION_MERGEFILES"
  | .alterpartitionProtectmode => "ALTERPARTITION_PROTECTMODE"
  | .alterpartitionSerdeproperties => "ALTERPARTITION_SERDEPROPERTIES"
  | .alterpartitionSerializer => "ALTERPARTITION_SERIALIZER"
  | .altertableAddcols => "ALTERTABLE_ADDCOLS"
  | .altertableAddparts => "ALTERTABLE_ADDPARTS"
  | .altertableArchive => "ALTERTABLE_ARCHIVE"
  | .altertableBucketnum => "ALTERTABLE_BUCKETNUM"
  | .altertableClusterSort => "ALTERTABLE_CLUSTER_SORT"
  | .altertableCompact => "ALTERTABLE_COMPACT"
  | .altertableDropparts => "ALTERTABLE_DROPPARTS"
  | .altertableFileformat => "ALTERTABLE_FILEFORMAT"
  | .altertableLocation => "ALTERTABLE_LOCATION"
  | .altertableMergefiles => "ALTERTABLE_MERGEFILES"
  | .altertablePartcoltype => "ALTERTABLE_PARTCOLTYPE"
  | .altertableProperties => "ALTERTABLE_PROPERTIES"
  | .altertableProtectmode => "ALTERTABLE_PROTECTMODE"
  | .altertableRename => "ALTERTABLE_RENAME"
  | .altertableRenamecol => "ALTERTABLE_RENAMECOL"
  | .altertableRenamepart => "ALTERTABLE_RENAMEPART"
  | .altertableReplacecols => "ALTERTABLE_REPLACECOLS"
  | .altertableSerdeproperties => "ALTERTABLE_SERDEPROPERTIES"
  | .altertableSerializer => "ALTERTABLE_SERIALIZER"
  | .altertableSkewed => "ALTERTABLE_SKEWED"
  | .altertableTouch => "ALTERTABLE_TOUCH"
  | .altertableUnarchive => "ALTERTABLE_UNARCHIVE"
  | .altertableUpdatepartstats => "ALTERTABLE_UPDATEPARTSTATS"
  | .altertableUpdatetablestats => "ALTERTABLE_UPDATETABLESTATS"
  | .altertblpartSkewedLocation => "ALTERTBLPART_SKEWED_LOCATION"
  | .alterviewAs => "ALTERVIEW_AS"
  | .alterviewProperties => "ALTERVIEW_PROPERTIES"
  | .alterviewRename => "ALTERVIEW_RENAME"
  | .dropviewProperties => "DROPVIEW_PROPERTIES"
  | .dropfunction => "DROPFUNCTION"
  | .dropindex => "DROPINDEX"
  | .droptable => "DROPTABLE"
  | .dropview => "DROPVIEW"
  | .dropdatabase => "DROPDATABASE"
  | .createindex => "CREATEINDEX"
  | .«import» => "IMPORT"
  | .«export» => "EXPORT"
  | .load => "LOAD"
  | .lockdb => "LOCKDB"
  | .locktable => "LOCKTABLE"
  | .unlockdb => "UNLOCKDB"
  | .unlocktable => "UNLOCKTABLE"
  | .query => "QUERY"
  | .showTablestatus => "SHOW_TABLESTATUS"
  | .showCreatetable => "SHOW_CREATETABLE"
  | .showcolumns => "SHOWCOLUMNS"
  | .showindexes => "SHOWINDEXES"
  | .showpartitions => "SHOWPARTITIONS"
  | .showTblproperties => "SHOW_TBLPROPERTIES"
  | .desctable => "DESCTABLE"
  | .analyzeTable => "ANALYZE_TABLE"
  | .switchdatabase => "SWITCHDATABASE"
  | .descdatabase => "DESCDATABASE"
  | .truncatetable => "TRUNCATETABLE"
  | .grantPrivilege => "GRANT_PRIVILEGE"
  | .revokePrivilege => "REVOKE_PRIVILEGE"
  | .add => "ADD"
  | .delete => "DELETE"
  | .compile => "COMPILE"
  | .createMacro => "CREATEMACRO"
  | .createrole => "CREATEROLE"
  | .descfunction => "DESCFUNCTION"
  | .dfs => "DFS"
  | .dropMacro => "DROPMACRO"
  | .droprole => "DROPROLE"
  | .explain => "EXPLAIN"
  | .grantRole => "GRANT_ROLE"
  | .msck => "MSCK"
  | .revokeRole => "REVOKE_ROLE"
  | .reset => "RESET"
  | .set => "SET"
  | .showconf => "SHOWCONF"
  | .showdatabases => "SHOWDATABASES"
  | .showfunctions => "SHOWFUNCTIONS"
  | .showlocks => "SHOWLOCKS"
  | .showtables => "SHOWTABLES"
  | .showCompactions => "SHOW_COMPACTIONS"
  | .showGrant => "SHOW_GRANT"
  | .showRoles => "SHOW_ROLES"
  | .showRoleGrant => "SHOW_ROLE_GRANT"
  | .showRolePrincipals => "SHOW_ROLE_PRINCIPALS"
  | .showTransactions => "SHOW_TRANSACTIONS"

inductive HivePrivilegeObjectType where
  | global | database | tableOrView | partition | column | localUri | dfsUri | commandParams
  | function
  deriving DecidableEq

inductive HivePrivObjectActionType where
  | other | insert | insertOverwrite | update | delete
  deriving DecidableEq

/-- An object of an operation. The columns may be absent, and null among others. -/
structure HivePrivilegeObject where
  type : HivePrivilegeObjectType
  dbname : Option String := none
  objectName : Option String := none
  columns : Option (List (Option String)) := none
  actionType : HivePrivObjectActionType := .other

inductive HiveObjectType where
  | none | database | table | view | partition | index | column | function | uri
  deriving DecidableEq

inductive HiveAccessType where
  | none | create | alter | drop | index | lock | select | update | use | all | admin
  deriving DecidableEq

def HiveAccessType.name : HiveAccessType → String
  | none => "NONE"
  | create => "CREATE"
  | alter => "ALTER"
  | drop => "DROP"
  | index => "INDEX"
  | lock => "LOCK"
  | select => "SELECT"
  | update => "UPDATE"
  | use => "USE"
  | all => "ALL"
  | admin => "ADMIN"

/-- `RangerAccessResourceImpl.equals`: the elements are equal as maps. -/
def RangerAccessResource.equals (resource other : RangerAccessResource) : Bool :=
  match resource.elements, other.elements with
  | none, none => true
  | some elements, some others => elements.equalTo others
  | _, _ => false

structure RangerHiveResource extends RangerAccessResource where
  objectType : HiveObjectType

namespace RangerHiveResource

def KEY_DATABASE : String := "database"

def KEY_TABLE : String := "table"

def KEY_UDF : String := "udf"

def KEY_COLUMN : String := "column"

/-- What is set of a resource depends on its type. -/
def elementsFor (objectType : HiveObjectType) (database tableOrUdf column : Option String) :
    RangerAccessResource :=
  let resource : RangerAccessResource := {}
  match objectType with
  | .database => resource.setValue KEY_DATABASE database
  | .function => (resource.setValue KEY_DATABASE database).setValue KEY_UDF tableOrUdf
  | .column =>
      ((resource.setValue KEY_DATABASE database).setValue KEY_TABLE tableOrUdf).setValue
        KEY_COLUMN column
  | .table | .view | .index | .partition =>
      (resource.setValue KEY_DATABASE database).setValue KEY_TABLE tableOrUdf
  | .none | .uri => resource

def create (objectType : HiveObjectType) (database : Option String)
    (tableOrUdf column : Option String := none) : RangerHiveResource where
  toRangerAccessResource := elementsFor objectType database tableOrUdf column
  objectType := objectType

variable (resource : RangerHiveResource)

def getDatabase : Option String := resource.getValue KEY_DATABASE

def getTable : Option String := resource.getValue KEY_TABLE

def getColumn : Option String := resource.getValue KEY_COLUMN

end RangerHiveResource

/-- A request about a resource of Hive, of which the plugin reads what all requests have. -/
structure RangerHiveAccessRequest where
  hiveResource : RangerHiveResource
  hiveAccessType : HiveAccessType
  action : String
  user : Option String
  userGroups : List String
  clientIPAddress : Option String

namespace RangerHiveAccessRequest

/-- The access type in the words of the policies. -/
def accessType : HiveAccessType → String
  | .use => ANY_ACCESS
  | .admin => ADMIN_ACCESS
  | hiveAccessType => hiveAccessType.name.toLower

def toRangerAccessRequest (request : RangerHiveAccessRequest) : RangerAccessRequest :=
  { RangerAccessRequest.create request.hiveResource.toRangerAccessResource
      (accessType request.hiveAccessType) request.user request.userGroups with
    clientIPAddress := request.clientIPAddress }

end RangerHiveAccessRequest

inductive HiveException where
  | accessControl (message : String)
  | nullPointer
  deriving DecidableEq

/-- An authorizer in a session. The file systems are asked about files of a user. -/
structure RangerHiveAuthorizer where
  policyEngine : RangerBasePlugin.PolicyEngine
  serviceDef : RangerServiceDef
  ugi : Option UserGroupInformation
  isURIAccessAllowed : String → FsAction → Option String → Bool
  ipAddress : Option String := none

namespace RangerHiveAuthorizer

def COLUMN_SEP : Char := ','

/-- `name.toLowerCase().contains(part)`, of the name of an operation. -/
def nameContains (hiveOpType : HiveOperationType) (part : String) : Bool :=
  decide (part.toList <:+: hiveOpType.name.toList.map Char.toLower)

/-- `StringUtil.isEmpty` of a list. -/
def isEmptyList {α : Type} : Option (List α) → Bool
  | none => true
  | some list => list.isEmpty

def getObjectType (hiveObj : HivePrivilegeObject) (hiveOpType : HiveOperationType) :
    HiveObjectType :=
  match hiveObj.type with
  | .database => .database
  | .partition => .partition
  | .tableOrView =>
      if nameContains hiveOpType "index" then .index
      else if !isEmptyList hiveObj.columns then .column
      else if nameContains hiveOpType "view" then .view
      else .table
  | .function => .function
  | .dfsUri | .localUri => .uri
  | .commandParams | .global | .column => .none

/-- `StringUtils.join` of the columns. -/
def joinColumns (columns : Option (List (Option String))) : Option String :=
  columns.map fun columns =>
    String.ofList ([COLUMN_SEP].intercalate (columns.map fun column => (column.getD "").toList))

def getHiveResource (hiveOpType : HiveOperationType) (hiveObj : HivePrivilegeObject) :
    Option RangerHiveResource :=
  let objectType := getObjectType hiveObj hiveOpType
  match objectType with
  | .database => some (.create objectType hiveObj.dbname)
  | .table | .view | .partition | .index | .function =>
      some (.create objectType hiveObj.dbname hiveObj.objectName)
  | .column =>
      some (.create objectType hiveObj.dbname hiveObj.objectName (joinColumns hiveObj.columns))
  | .uri => some (.create objectType hiveObj.objectName)
  | .none => none

def getAccessType (hiveObj : HivePrivilegeObject) (hiveOpType : HiveOperationType)
    (isInput : Bool) : HiveAccessType :=
  match hiveObj.actionType with
  | .insert | .insertOverwrite | .update | .delete => .update
  | .other =>
      match hiveOpType with
      | .createdatabase => if hiveObj.type = .database then .create else .none
      | .createfunction => if hiveObj.type = .function then .create else .none
      | .createtable | .createview | .createtableAsSelect =>
          if hiveObj.type = .tableOrView then if isInput then .select else .create else .none
      | .alterdatabase | .alterdatabaseOwner | .alterindexProps | .alterindexRebuild
      | .alterpartitionBucketnum | .alterpartitionFileformat | .alterpartitionLocation
      | .alterpartitionMergefiles | .alterpartitionProtectmode | .alterpartitionSerdeproperties
      | .alterpartitionSerializer | .altertableAddcols | .altertableAddparts
      | .altertableArchive | .altertableBucketnum | .altertableClusterSort | .altertableCompact
      | .altertableDropparts | .altertableFileformat | .altertableLocation
      | .altertableMergefiles | .altertablePartcoltype | .altertableProperties
      | .altertableProtectmode | .altertableRename | .altertableRenamecol
      | .altertableRenamepart | .altertableReplacecols | .altertableSerdeproperties
      | .altertableSerializer | .altertableSkewed | .altertableTouch | .altertableUnarchive
      | .altertableUpdatepartstats | .altertableUpdatetablestats | .altertblpartSkewedLocation
      | .alterviewAs | .alterviewProperties | .alterviewRename | .dropviewProperties => .alter
      | .dropfunction | .dropindex | .droptable | .dropview | .dropdatabase => .drop
      | .createindex => .index
      | .«import» | .«export» | .load => if isInput then .select else .update
      | .lockdb | .locktable | .unlockdb | .unlocktable => .lock
      | .query | .showTablestatus | .showCreatetable | .showcolumns | .showindexes
      | .showpartitions | .showTblproperties | .desctable | .analyzeTable => .select
      | .switchdatabase | .descdatabase => .use
      | .truncatetable => .update
      -- the access check of a grant or revoke is performed at the admin side
      | .grantPrivilege | .revokePrivilege => .none
      | _ => .none

def existsByResourceAndAccessType (requests : List RangerHiveAccessRequest)
    (resource : RangerHiveResource) (accessType : HiveAccessType) : Bool :=
  requests.any fun request =>
    decide (request.hiveAccessType = accessType) &&
      request.hiveResource.toRangerAccessResource.equals resource.toRangerAccessResource

section Operation

variable (authorizer : RangerHiveAuthorizer) (hiveOpType : HiveOperationType)
  (ugi : UserGroupInformation)

/-- What a user is told who lacks a privilege. -/
def permissionDenied (privilege : String) (path : Option String) : HiveException :=
  .accessControl ("Permission denied: user [" ++ ugi.shortUserName ++ "] does not have [" ++
    privilege ++ "] privilege on [" ++ path.getD "null" ++ "]")

def requestFor (resource : RangerHiveResource) (accessType : HiveAccessType) :
    RangerHiveAccessRequest where
  hiveResource := resource
  hiveAccessType := accessType
  action := hiveOpType.name
  user := some ugi.shortUserName
  userGroups := ugi.groupNames
  clientIPAddress := authorizer.ipAddress

/-- What is asked of the files of an object. -/
def permissionFor (isInput : Bool) : FsAction := if isInput then .read else .write

/-- A turn of the loop over the inputs, or over the outputs. -/
def visit (isInput : Bool) (requests : List RangerHiveAccessRequest)
    (hiveObj : HivePrivilegeObject) : Except HiveException (List RangerHiveAccessRequest) :=
  match getHiveResource hiveOpType hiveObj with
  | none => .error .nullPointer
  | some resource =>
      if resource.objectType = .uri then
        let permission := permissionFor isInput
        if authorizer.isURIAccessAllowed ugi.shortUserName permission hiveObj.objectName then
          .ok requests
        else .error (permissionDenied ugi permission.name hiveObj.objectName)
      else
        let accessType := getAccessType hiveObj hiveOpType isInput
        if accessType = .none then .ok requests
        else if existsByResourceAndAccessType requests resource accessType then .ok requests
        else .ok (requests ++ [requestFor authorizer hiveOpType ugi resource accessType])

/-- The requests for the inputs and the outputs. -/
def collect (inputHObjs outputHObjs : Option (List HivePrivilegeObject)) :
    Except HiveException (List RangerHiveAccessRequest) := do
  let requests ← (inputHObjs.getD []).foldlM (visit authorizer hiveOpType ugi true) []
  (outputHObjs.getD []).foldlM (visit authorizer hiveOpType ugi false) requests

/-- A request for a column, unless it is blank. -/
def columnRequest (request : RangerHiveAccessRequest) (column : String) :
    Option RangerHiveAccessRequest :=
  let column := trim column
  if column.isEmpty then none
  else
    some { request with
      hiveResource := .create .column request.hiveResource.getDatabase
        request.hiveResource.getTable (some column) }

/-- The requests for the columns of a resource. -/
def columnRequests (request : RangerHiveAccessRequest) : List RangerHiveAccessRequest :=
  (split COLUMN_SEP (request.hiveResource.getColumn.getD "").toList).filterMap fun column =>
    columnRequest request (String.ofList column)

/-- The loop over the results for columns, with the last one seen. -/
def visitResults (result : Option RangerAccessResult) :
    List RangerAccessResult → Option RangerAccessResult
  | [] => result
  | colResult :: rest =>
      if colResult.isAllowed then visitResults (some colResult) rest else some colResult

def hasColumns (resource : RangerHiveResource) : Bool :=
  decide (resource.objectType = .column) &&
    (resource.getColumn.getD "").toList.contains COLUMN_SEP

/-- The result for a request, null when there is none. -/
def resultFor (request : RangerHiveAccessRequest) : Option RangerAccessResult :=
  if hasColumns request.hiveResource then
    match RangerBasePlugin.areAccessesAllowed authorizer.policyEngine
        ((columnRequests request).map (·.toRangerAccessRequest)) with
    | none => none
    | some colResults => visitResults none colResults
  else RangerBasePlugin.isAccessAllowed authorizer.policyEngine request.toRangerAccessRequest

/-- A turn of the loop over the requests. -/
def checkRequest (request : RangerHiveAccessRequest) : Except HiveException Unit :=
  match resultFor authorizer request with
  | none => .ok ()
  | some result =>
      if result.isAllowed then .ok ()
      else
        .error (permissionDenied ugi request.hiveAccessType.name
          (request.hiveResource.getAsString authorizer.serviceDef))

/-- No operation is taken for one on metadata: the cases are commented out. -/
def isMetaDataOperation : HiveOperationType → Bool
  | .showdatabases | .showtables | .descdatabase => false
  | _ => false

/-- The request for an operation on metadata. -/
def checkMetaData : Except HiveException Unit :=
  let request := { requestFor authorizer hiveOpType ugi (.create .database none) .use with
    action := "OTHER" }
  match RangerBasePlugin.isAccessAllowed authorizer.policyEngine request.toRangerAccessRequest with
  | none =>
      .error (.accessControl ("Permission denied: user [" ++ ugi.shortUserName ++
        "] does not have [" ++ hiveOpType.name ++ "] privilege"))
  | some result =>
      if result.isAllowed then .ok ()
      else
        .error (permissionDenied ugi hiveOpType.name
          (request.hiveResource.getAsString authorizer.serviceDef))

/-- The DFS command is never allowed. -/
def handleDfsCommand : HiveException :=
  .accessControl ("Permission denied: user [" ++ ugi.shortUserName ++
    "] does not have privilege for [" ++ hiveOpType.name ++ "] command")

end Operation

def checkPrivileges (authorizer : RangerHiveAuthorizer) (hiveOpType : HiveOperationType)
    (inputHObjs outputHObjs : Option (List HivePrivilegeObject)) : Except HiveException Unit :=
  match authorizer.ugi with
  | none => .error (.accessControl "Permission denied: user information not available")
  | some ugi =>
      if hiveOpType = .dfs then .error (handleDfsCommand hiveOpType ugi)
      else do
        let requests ← collect authorizer hiveOpType ugi inputHObjs outputHObjs
        if isMetaDataOperation hiveOpType then checkMetaData authorizer hiveOpType ugi
        else requests.forM (checkRequest authorizer ugi)

end RangerHiveAuthorizer

end Ranger

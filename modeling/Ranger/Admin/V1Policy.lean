import Ranger.Foundation.Collect
import Ranger.Admin.ServiceStore

/-! # Policies of the first API

`ServiceUtil` writes a policy as the first API shows it and reads it back. There a
policy has one text for every kind of resource, one flag for recursion, and lists of
users, groups and permissions with one address.
-/

namespace Ranger

open Foundation

inductive PermFor where
  | user
  | group
  deriving DecidableEq

/-- One permission of a user or group; `name` is that of the user or group. -/
structure VXPermMap where
  permFor : PermFor
  permGroup : String
  name : String
  permType : Nat
  ipAddress : Option String

structure VXPermObj where
  userList : List String := []
  groupList : List String := []
  permList : List (Option String) := []
  ipAddress : Option String := some ""

structure VXPolicy where
  id : Option Int
  policyName : String
  repositoryName : String
  repositoryType : String
  isEnabled : Bool
  isAuditEnabled : Bool
  resourceName : Option String := none
  tables : Option String := none
  columnFamilies : Option String := none
  columns : Option String := none
  databases : Option String := none
  udfs : Option String := none
  tableType : Option String := none
  columnType : Option String := none
  topologies : Option String := none
  services : Option String := none
  isRecursive : Option Bool := some false
  permMapList : List VXPermObj := []

/-- `String.split` at a comma: empty pieces at the end go, unless there is one piece only. -/
def splitAtCommas (text : String) : List String :=
  match text.toList.splitOn ',' with
  | [_] => [text]
  | pieces => ((pieces.reverse.dropWhile (·.isEmpty)).reverse).map String.ofList

namespace ServiceUtil

section Tables

def POLICY_INCLUSION : Int := 0

def POLICY_EXCLUSION : Int := 1

def ASSET_HBASE : Int := 2

def mapServiceTypeToAssetType : List (String × Int) :=
  [("hdfs", 1), ("hbase", ASSET_HBASE), ("hive", 3), ("knox", 5), ("storm", 6)]

def mapAccessTypeToPermType : List (String × Nat) :=
  [("Unknown", 0), ("Reset", 1), ("read", 2), ("write", 3), ("create", 4), ("delete", 5),
    ("admin", 6), ("Obfuscate", 7), ("Mask", 8), ("execute", 9), ("select", 10), ("update", 11),
    ("drop", 12), ("alter", 13), ("index", 14), ("lock", 15), ("all", 16), ("allow", 17),
    ("submitTopology", 18), ("fileUpload", 19), ("getNimbusConf", 20), ("getClusterInfo", 21),
    ("fileDownload", 22), ("killTopology", 23), ("rebalance", 24), ("activate", 25),
    ("deactivate", 26), ("getTopologyConf", 27), ("getTopology", 28), ("getUserTopology", 29),
    ("getTopologyInfo", 30), ("uploadNewCredentials", 31)]

/-- The labels of the permission types, each at its number. -/
def permTypeLabels : List String :=
  ["Unknown", "Reset", "Read", "Write", "Create", "Delete", "Admin", "Obfuscate", "Mask",
    "Execute", "Select", "Update", "Drop", "Alter", "Index", "Lock", "All", "Allow",
    "submitTopology", "fileUpload", "getNimbusConf", "getClusterInfo", "fileDownload",
    "killTopology", "rebalance", "activate", "deactivate", "getTopologyConf", "getTopology",
    "getUserTopology", "getTopologyInfo", "uploadNewCredentials"]

def getLabelFor_XAPermType (elementValue : Nat) : Option String := permTypeLabels[elementValue]?

def toVxPolicyIncExc : Int → String
  | 0 => "Inclusion"
  | 1 => "Exclusion"
  | _ => ""

/-- `RangerCommonEnums.getLabelFor_PolicyType`. -/
def getLabelFor_PolicyType : Int → Option String
  | 0 => some "Inclusion"
  | 1 => some "Exclusion"
  | _ => none

variable [Platform]

/-- The position of the label, letter case ignored; the unknown type is at zero. -/
def getEnumFor_XAPermType : Option String → Nat
  | none => 0
  | some label => (permTypeLabels.findIdx? (equalsIgnoreCase label)).getD 0

/-- An access type the table does not have has no permission type, and setting none on a
`VXPermMap` throws. The hash map is searched in its own order. -/
def toPermType (accessType : String) : Option Nat :=
  ((Platform.hashOrder (mapAccessTypeToPermType.map (·.1))).find?
    (equalsIgnoreCase · accessType)).bind fun key => List.lookup key mapAccessTypeToPermType

def toAssetType (serviceType : String) : Int :=
  (mapServiceTypeToAssetType.lookup (Platform.lowerCase serviceType)).getD (-1)

end Tables

section Resources

/-- The values with commas between them, nothing for no values. -/
def getResourceString : List String → Option String
  | [] => none
  | value :: rest => some (rest.foldl (fun ret value => ret ++ "," ++ value) value)

/-- The paths of a `StringBuilder` are separated by commas. -/
def appendPath (paths : String) (path : String) : String :=
  (if paths.isEmpty then paths else paths ++ ",") ++ path

/-- `getResourceName`, by the asset type. -/
def getResourceName (assetType : Int) (policy : VXPolicy) : String :=
  let pieces := fun text : Option String => splitAtCommas (text.getD "")
  match assetType with
  | 1 => policy.resourceName.getD ""
  | 2 =>
      (pieces policy.columns).foldl (fun sb column =>
        (pieces policy.columnFamilies).foldl (fun sb columnFamily =>
          (pieces policy.tables).foldl (fun sb table =>
            appendPath sb ("/" ++ table ++ "/" ++ columnFamily ++ "/" ++ column)) sb) sb) ""
  | 3 =>
      (pieces policy.columns).foldl (fun sb column =>
        (pieces policy.tables).foldl (fun sb table =>
          (pieces policy.databases).foldl (fun sb database =>
            appendPath sb ("/" ++ database ++ "/" ++ table ++ "/" ++ column)) sb) sb) ""
  | 5 =>
      (pieces policy.services).foldl (fun sb service =>
        (pieces policy.topologies).foldl (fun sb topology =>
          appendPath sb ("/" ++ topology ++ "/" ++ service)) sb) ""
  | 6 => policy.topologies.getD ""
  | _ => ""

variable [Platform]

def updateResourceName (policy : VXPolicy) : VXPolicy :=
  { policy with
    resourceName := some (getResourceName (toAssetType policy.repositoryType) policy) }

/-- One turn of the loop of `toVXPolicy` over the resources. -/
def addResource (ret : VXPolicy) (resType : String) (res : RangerPolicyResource) : VXPolicy :=
  let resString := getResourceString res.values
  let incExc := some
    (toVxPolicyIncExc (if res.isExcludes then POLICY_EXCLUSION else POLICY_INCLUSION))
  if equalsIgnoreCase resType "path" then
    { ret with resourceName := resString, isRecursive := some res.isRecursive }
  else if equalsIgnoreCase resType "table" then
    { ret with tables := resString, tableType := incExc }
  else if equalsIgnoreCase resType "column-family" then { ret with columnFamilies := resString }
  else if equalsIgnoreCase resType "column" then
    { ret with columns := resString, columnType := incExc }
  else if equalsIgnoreCase resType "database" then { ret with databases := resString }
  else if equalsIgnoreCase resType "udf" then { ret with udfs := resString }
  else if equalsIgnoreCase resType "topology" then { ret with topologies := resString }
  else if equalsIgnoreCase resType "service" then { ret with services := resString }
  else ret

end Resources

section Items

variable [Platform]

/-- The loop over the conditions of an item: the address so far, until there is one. The
type is compared as an object, so that besides its letters it counts whether the string at
a position is an interned one. -/
def ipAddressOf : (Nat → Bool) → Option String → List RangerPolicyItemCondition → Option String
  | _, ipAddress, [] => ipAddress
  | interned, ipAddress, condition :: rest =>
      let ipAddress :=
        if interned 0 && condition.type == "ipaddress" then
          match condition.values with
          | [] => ipAddress
          | value :: _ => some value
        else ipAddress
      if isEmptyValue ipAddress then ipAddressOf (fun next => interned (next + 1)) ipAddress rest
      else ipAddress

/-- The permission types of an item, none when one of its allowed accesses has none. -/
def permTypesOf (policyItem : RangerPolicyItem) : Option (List Nat) := do
  let permTypes ← (policyItem.accesses.filter (·.isAllowed)).mapM fun access =>
    toPermType access.type
  if policyItem.delegateAdmin then
    let admin ← toPermType "Admin"
    return permTypes ++ [admin]
  else return permTypes

/-- The permissions of an item for one of its users or groups. -/
def permMapsFor (permFor : PermFor) (permGroup : Nat) (policyItem : RangerPolicyItem)
    (ipAddress : Option String) (name : String) : Option (List VXPermMap) :=
  (permTypesOf policyItem).map fun permTypes => permTypes.map fun permType =>
    { permFor := permFor
      permGroup := toString permGroup
      name := name
      permType := permType
      ipAddress := ipAddress }

/-- `getVXPermMapList`: the users and the groups of every item, each in a group of its own.
The conditions of an item are at the number of its users' group. -/
def getVXPermMapList (interned : Nat → Nat → Bool) :
    Nat → List RangerPolicyItem → Option (List VXPermMap)
  | _, [] => some []
  | permGroup, policyItem :: rest => do
      let ipAddress := ipAddressOf (interned permGroup) none policyItem.conditions
      let users ← policyItem.users.mapM (permMapsFor .user permGroup policyItem ipAddress)
      let groups ← policyItem.groups.mapM
        (permMapsFor .group (permGroup + 1) policyItem ipAddress)
      let others ← getVXPermMapList interned (permGroup + 2) rest
      return users.flatten ++ (groups.flatten ++ others)

/-- A list that takes every element once. -/
def addOnce {α : Type} [BEq α] (listed : List α) (element : α) : List α :=
  if listed.contains element then listed else listed ++ [element]

/-- One turn of the loop of `mapPermMapToPermObj` over the permissions of a group. -/
def addPermMap (permObj : VXPermObj) (permMap : VXPermMap) : VXPermObj where
  userList :=
    if permMap.permFor = .user then addOnce permObj.userList permMap.name else permObj.userList
  groupList :=
    if permMap.permFor = .group then addOnce permObj.groupList permMap.name
    else permObj.groupList
  permList := addOnce permObj.permList (getLabelFor_XAPermType permMap.permType)
  ipAddress := permMap.ipAddress

def mapPermMapToPermObj (permMapList : List VXPermMap) : List VXPermObj :=
  let sortedPermMap := AssocMap.collect (·.permGroup) permMapList
  (Platform.hashOrder sortedPermMap.keys).map fun permGroup =>
    ((sortedPermMap.get? permGroup).getD []).foldl addPermMap {}

/-- `toVXPolicy`, without an answer when it throws. -/
def toVXPolicy (interned : Nat → Nat → Bool) (policy : RangerPolicy) (service : RangerService) :
    Option VXPolicy := do
  let ret : VXPolicy :=
    { id := policy.id
      policyName := policy.name
      repositoryName := policy.service
      repositoryType := service.type
      isEnabled := policy.isEnabled
      isAuditEnabled := policy.isAuditEnabled }
  let ret := (Platform.hashOrder policy.resources.keys).foldl (fun ret resType =>
    match policy.resources.get? resType with
    | none => ret
    | some res => addResource ret resType res) ret
  let permMapList ← getVXPermMapList interned 0 policy.policyItems
  return { updateResourceName ret with permMapList := mapPermMapToPermObj permMapList }

end Items

section Back

def toRangerResourceList (resourceString : Option String) (resourceType : String)
    (isExcludes isRecursive : Bool) (resources : AssocMap String RangerPolicyResource) :
    AssocMap String RangerPolicyResource :=
  match resourceString with
  | none => resources
  | some text =>
      let resource := (resources.get? resourceType).getD
        { values := [], isExcludes := isExcludes, isRecursive := isRecursive }
      resources.put resourceType
        { resource with values := resource.values ++ splitAtCommas text }

/-- The flag of an inclusion type. -/
def isExclusion (policyType : Option String) : Bool :=
  policyType.isSome && policyType == getLabelFor_PolicyType POLICY_EXCLUSION

/-- The levels of `toRangerPolicy` in their order, each with its text and whether it excludes. -/
def levels (vXPolicy : VXPolicy) : List (String × Option String × Bool) :=
  [("path", vXPolicy.resourceName, false),
    ("table", vXPolicy.tables, isExclusion vXPolicy.tableType),
    ("column-family", vXPolicy.columnFamilies, false),
    ("column", vXPolicy.columns, isExclusion vXPolicy.columnType),
    ("database", vXPolicy.databases, false), ("udf", vXPolicy.udfs, false),
    ("topology", vXPolicy.topologies, false), ("service", vXPolicy.services, false)]

/-- The resources of `toRangerPolicy`. -/
def toResources (vXPolicy : VXPolicy) : AssocMap String RangerPolicyResource :=
  (levels vXPolicy).foldl (fun ret level =>
    toRangerResourceList level.2.1 level.1 level.2.2 (vXPolicy.isRecursive.getD false) ret) ∅

variable [Platform]

/-- A permission that is not the unknown one. -/
def isKnownPerm (perm : Option String) : Bool := getEnumFor_XAPermType perm != 0

def isAdminPerm (perm : String) : Bool := equalsIgnoreCase perm "Admin"

/-- The item of a permission object. Of a permission for administration only HBase
keeps the access. The users and groups are kept as they are: the name that is looked up
for an empty one is contained in it. -/
def toPolicyItem (assetType : Int) (vXPermObj : VXPermObj) : RangerPolicyItem :=
  let perms := (vXPermObj.permList.filter isKnownPerm).reduceOption
  { users := vXPermObj.userList
    groups := vXPermObj.groupList
    accesses := (perms.filter fun perm => !isAdminPerm perm || assetType == ASSET_HBASE).map
      fun perm => ⟨perm, true⟩
    delegateAdmin := perms.any isAdminPerm
    conditions :=
      match vXPermObj.ipAddress with
      | none => []
      | some ipAddress => if ipAddress.isEmpty then [] else [⟨"ipaddress", [ipAddress]⟩] }

def toRangerPolicy (vXPolicy : VXPolicy) (service : RangerService) : RangerPolicy where
  id := vXPolicy.id
  service := service.name
  name := vXPolicy.policyName
  isEnabled := vXPolicy.isEnabled
  isAuditEnabled := vXPolicy.isAuditEnabled
  resources := toResources vXPolicy
  policyItems := vXPolicy.permMapList.map (toPolicyItem (toAssetType service.type))

/-- The policy that is read through the API and written back. -/
def writtenBack (interned : Nat → Nat → Bool) (policy : RangerPolicy) (service : RangerService) :
    Option RangerPolicy :=
  (toVXPolicy interned policy service).map (toRangerPolicy · service)

end Back

end ServiceUtil

end Ranger

import Ranger.Agents.Hadoop
import Ranger.Foundation.Walk

/-! # Enforcement of HDFS permissions

One call checks an inode, its parent, an ancestor and the directories below the inode,
each for an action of its own. An action consists of access types, which are put to the
plugin one by one for the path of the inode.
-/

namespace Ranger

open Foundation

namespace RangerHadoopConstants

def READ_ACCCESS_TYPE : String := "read"

def WRITE_ACCCESS_TYPE : String := "write"

def EXECUTE_ACCCESS_TYPE : String := "execute"

def HDFS_ROOT_FOLDER_PATH_ALT : String := ""

def HDFS_ROOT_FOLDER_PATH : String := "/"

end RangerHadoopConstants

structure FsPermission where
  stickyBit : Bool

structure INodeAttributes where
  userName : Option String
  fsPermission : Option FsPermission := none

/-- A file or a directory, as it is in the snapshot that is looked at. -/
inductive INode where
  | file (fullPathName : String) (attributes : INodeAttributes)
  | directory (fullPathName : String) (attributes : INodeAttributes)
      (snapshotINode : Option INodeAttributes) (childrenList : List INode)

namespace INode

def getFullPathName : INode → String
  | file fullPathName _ => fullPathName
  | directory fullPathName _ _ _ => fullPathName

def attributes : INode → INodeAttributes
  | file _ attributes => attributes
  | directory _ attributes _ _ => attributes

def isDirectory : INode → Bool
  | file _ _ => false
  | directory _ _ _ _ => true

def getSnapshotINode : INode → Option INodeAttributes
  | file _ _ => none
  | directory _ _ snapshotINode _ => snapshotINode

def getChildrenList : INode → List INode
  | file _ _ => []
  | directory _ _ _ childrenList => childrenList

mutual

/-- How many inodes there are from an inode downwards. -/
def count : INode → Nat
  | file _ _ => 1
  | directory _ _ _ childrenList => 1 + countAll childrenList

def countAll : List INode → Nat
  | [] => 0
  | inode :: rest => count inode + countAll rest

end

theorem sum_count_filter_le (keep : INode → Bool) (inodes : List INode) :
    ((inodes.filter keep).map count).sum ≤ countAll inodes := by
  induction inodes with
  | nil => exact Nat.le_refl 0
  | cons inode rest ih =>
      rw [List.filter_cons, countAll]
      split
      · rw [List.map_cons, List.sum_cons]
        exact Nat.add_le_add_left ih _
      · exact Nat.le_trans ih (Nat.le_add_left _ _)

/-- The directories in a directory, as they are put onto the stack. -/
def subdirectories (inode : INode) : List INode :=
  (inode.getChildrenList.filter isDirectory).reverse

theorem sum_count_subdirectories (inode : INode) :
    (inode.subdirectories.map count).sum < inode.count := by
  unfold subdirectories
  rw [List.map_reverse, List.sum_reverse]
  apply Nat.lt_of_le_of_lt (sum_count_filter_le isDirectory _)
  cases inode with
  | file => exact Nat.one_pos
  | directory =>
      rw [getChildrenList, count]
      omega

/-- The walk from a directory to those below it. -/
def descent : Descent INode where
  next := subdirectories
  size := count
  smaller := sum_count_subdirectories

end INode

/-- A request of a user for an access type on a path. The owner of the path and the action
go along with it; no policy is about them. -/
structure RangerHdfsAccessRequest extends RangerAccessRequest where
  ownerUser : Option String
  action : Option String

def RangerHdfsAccessRequest.create (path : String) (pathOwner : Option String)
    (access : Option FsAction) (accessType : String) (user : Option String)
    (groups : Option (List String)) (remoteIp : Option String) : RangerHdfsAccessRequest where
  resource := ({} : RangerAccessResource).setValue "path" (some path)
  accessType := RangerAccessRequest.setAccessType accessType
  user := user
  userGroups := groups.getD []
  clientIPAddress := remoteIp
  ownerUser := pathOwner
  action := access.map FsAction.name

/-- The arguments of a permission check. -/
structure PermissionCheck where
  ugi : Option UserGroupInformation
  inodeAttrs : List (Option INodeAttributes)
  inodes : List (Option INode)
  path : String
  ancestorIndex : Int
  doCheckOwner : Bool := false
  ancestorAccess : Option FsAction := none
  parentAccess : Option FsAction := none
  access : Option FsAction := none
  subAccess : Option FsAction := none
  ignoreEmptyDir : Bool := false

structure AccessControlException where
  message : String

/-- What an enforcer is built on. -/
structure RangerAccessControlEnforcer where
  plugin : Option Authorizer
  remoteIp : Option String := none
  hadoopAuthEnabled : Bool := false
  defaultEnforcer : Option (PermissionCheck → Except AccessControlException Unit) := none

namespace RangerAccessControlEnforcer

open RangerHadoopConstants

def access2ActionListMapper : FsAction → List String
  | .none => []
  | .all => [READ_ACCCESS_TYPE, WRITE_ACCCESS_TYPE, EXECUTE_ACCCESS_TYPE]
  | .read => [READ_ACCCESS_TYPE]
  | .readWrite => [READ_ACCCESS_TYPE, WRITE_ACCCESS_TYPE]
  | .readExecute => [READ_ACCCESS_TYPE, EXECUTE_ACCCESS_TYPE]
  | .write => [WRITE_ACCCESS_TYPE]
  | .writeExecute => [WRITE_ACCCESS_TYPE, EXECUTE_ACCCESS_TYPE]
  | .execute => [EXECUTE_ACCCESS_TYPE]

/-- The loop over the access types of an action, with the verdict so far. -/
def allowTypes (answer : String → Option RangerAccessResult) (ret : Bool) : List String → Bool
  | [] => ret
  | accessType :: rest =>
      match answer accessType with
      | none => allowTypes answer ret rest
      | some result => if result.isAllowed then allowTypes answer true rest else false

section Inode

variable (plugin : Authorizer) (remoteIp user : Option String) (groups : Option (List String))

/-- What the plugin says about an access type on a path. -/
def request (path : String) (pathOwner : Option String) (access : Option FsAction)
    (accessType : String) : Option RangerAccessResult :=
  plugin (RangerHdfsAccessRequest.create path pathOwner access accessType user groups
    remoteIp).toRangerAccessRequest

/-- The path of an inode in a request. -/
def pathOf (inode : INode) : String :=
  if inode.getFullPathName == HDFS_ROOT_FOLDER_PATH_ALT then HDFS_ROOT_FOLDER_PATH
  else inode.getFullPathName

def isAccessAllowed (inode : INode) (inodeAttribs : Option INodeAttributes)
    (access : Option FsAction) : Bool :=
  let pathOwner := (inodeAttribs.bind (·.userName)).or inode.attributes.userName
  let accessTypes := access2ActionListMapper (access.getD .none)
  allowTypes (request plugin remoteIp user groups (pathOf inode) pathOwner access) false
    accessTypes

end Inode

section Checks

variable (enforcer : RangerAccessControlEnforcer) (plugin : Authorizer) (check : PermissionCheck)

/-- The last of the first inodes that exists, if any. -/
def lastExisting (inodes : List (Option INode)) : Nat → Int
  | 0 => -1
  | index + 1 =>
      match (inodes[index]?).join with
      | some _ => index
      | none => lastExisting inodes index

/-- The index of the ancestor, after it has been moved to an inode that exists. -/
def ancestorIndexOf : Int :=
  let ancestorIndex : Int :=
    if check.ancestorIndex ≥ check.inodes.length then check.inodes.length - 1
    else check.ancestorIndex
  if ancestorIndex < 0 then ancestorIndex
  else lastExisting check.inodes (ancestorIndex + 1).toNat

def ancestorOf : Option INode :=
  if (check.inodes.length : Int) > ancestorIndexOf check ∧ ancestorIndexOf check ≥ 0 then
    (check.inodes[(ancestorIndexOf check).toNat]?).join
  else none

def parentOf : Option INode :=
  if check.inodes.length > 1 then (check.inodes[check.inodes.length - 2]?).join else none

def inodeOf : Option INode := (check.inodes[check.inodes.length - 1]?).join

def userOf : Option String := check.ugi.map (·.shortUserName)

def groupsOf : Option (List String) := check.ugi.map (·.groupNames)

def isAllowed (inode : INode) (inodeAttribs : Option INodeAttributes) (access : Option FsAction) :
    Bool :=
  isAccessAllowed plugin enforcer.remoteIp (userOf check) (groupsOf check) inode inodeAttribs access

/-- Only the owner of the inode or of its parent writes to a sticky parent. -/
def checkStickyBit : Bool :=
  match check.parentAccess, parentOf check, inodeOf check with
  | some parentAccess, some parent, some inode =>
      if parentAccess.implies .write then
        match parent.attributes.fsPermission with
        | some permission =>
            if permission.stickyBit then
              parent.attributes.userName == userOf check || inode.attributes.userName == userOf check
            else true
        | none => true
      else true
  | _, _, _ => true

def checkAncestorAccess : Bool :=
  match check.ancestorAccess, ancestorOf check with
  | some ancestorAccess, some ancestor =>
      enforcer.isAllowed plugin check ancestor
        (check.inodeAttrs[(ancestorIndexOf check).toNat]?).join (some ancestorAccess)
  | _, _ => true

def checkParentAccess : Bool :=
  match check.parentAccess, parentOf check with
  | some parentAccess, some parent =>
      enforcer.isAllowed plugin check parent
        (if check.inodeAttrs.length > 1 then
          (check.inodeAttrs[check.inodeAttrs.length - 2]?).join
        else none)
        (some parentAccess)
  | _, _ => true

/-- The attributes of the inode. -/
def inodeAttribsOf : Option INodeAttributes :=
  (check.inodeAttrs[check.inodeAttrs.length - 1]?).join

def checkINodeAccess : Bool :=
  match check.access, inodeOf check with
  | some access, some inode =>
      enforcer.isAllowed plugin check inode (inodeAttribsOf check) (some access)
  | _, _ => true

/-- What is checked of a directory on the stack: the access to the inode, not the one to
what is below it. -/
def checkDirectory (dir : INode) : Bool :=
  if dir.getChildrenList.isEmpty && check.ignoreEmptyDir then true
  else enforcer.isAllowed plugin check dir dir.getSnapshotINode check.access

def checkSubAccess : Bool :=
  match check.subAccess, inodeOf check with
  | some _, some inode =>
      if inode.isDirectory then INode.descent.walk (enforcer.checkDirectory plugin check) [inode]
      else true
  | _, _ => true

def checkOwnerAccess : Bool :=
  if check.doCheckOwner then userOf check == (inodeAttribsOf check).bind (·.userName) else true

/-- Whether Ranger looks at a call. -/
def applies : Bool :=
  (check.access.isSome || check.ancestorAccess.isSome || check.parentAccess.isSome ||
    check.subAccess.isSome) && !check.inodes.isEmpty

/-- The checks in their order, each made when those before it have passed. -/
def accessGranted : Bool :=
  match enforcer.plugin with
  | none => false
  | some plugin =>
      applies check && (checkStickyBit check && enforcer.checkAncestorAccess plugin check &&
        enforcer.checkParentAccess plugin check && enforcer.checkINodeAccess plugin check &&
        enforcer.checkSubAccess plugin check && checkOwnerAccess check)

/-- The arguments as they are handed on. -/
def handedOn : PermissionCheck :=
  if enforcer.plugin.isSome && applies check then
    { check with ancestorIndex := ancestorIndexOf check }
  else check

def permissionDenied : AccessControlException where
  message := "Permission denied: principal\x7buser=" ++ (userOf check).getD "null" ++
    ",groups: " ++ (match groupsOf check with
      | none => "null"
      | some groups => "[" ++ ", ".intercalate groups ++ "]") ++
    "\x7d, access=" ++ (check.access.map FsAction.name).getD "null" ++ ", " ++ check.path

def checkPermission : Except AccessControlException Unit :=
  if enforcer.accessGranted check then .ok ()
  else
    match enforcer.hadoopAuthEnabled, enforcer.defaultEnforcer with
    | true, some defaultEnforcer => defaultEnforcer (enforcer.handedOn check)
    | _, _ => .error (permissionDenied check)

end Checks

end RangerAccessControlEnforcer

end Ranger

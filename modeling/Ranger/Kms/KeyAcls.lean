import Ranger.Agents.Hadoop
import Mathlib.Data.List.Infix

/-! # Access control lists of the key server

The server asks whether a user may do an operation, and whether a user may do an operation
on a key. The lists are read from a file, and read again when the file has changed; or the
operations are left to the policies of a plugin.
-/

namespace Ranger

open Foundation

/-- `KMSACLsType.Type`. -/
inductive KMSACLsType where
  | create
  | delete
  | rollover
  | get
  | getKeys
  | getMetadata
  | setKeyMaterial
  | generateEek
  | decryptEek
  deriving DecidableEq

namespace KMSACLsType

def values : List KMSACLsType :=
  [create, delete, rollover, get, getKeys, getMetadata, setKeyMaterial, generateEek, decryptEek]

def name : KMSACLsType → String
  | create => "CREATE"
  | delete => "DELETE"
  | rollover => "ROLLOVER"
  | get => "GET"
  | getKeys => "GET_KEYS"
  | getMetadata => "GET_METADATA"
  | setKeyMaterial => "SET_KEY_MATERIAL"
  | generateEek => "GENERATE_EEK"
  | decryptEek => "DECRYPT_EEK"

def getAclConfigKey (type : KMSACLsType) : String := "hadoop.kms." ++ "acl." ++ type.name

def getBlacklistConfigKey (type : KMSACLsType) : String :=
  "hadoop.kms." ++ "blacklist." ++ type.name

end KMSACLsType

/-- `KeyAuthorizationKeyProvider.KeyOpType`. -/
inductive KeyOpType where
  | all
  | read
  | management
  | generateEek
  | decryptEek
  deriving DecidableEq

namespace KeyOpType

def values : List KeyOpType := [all, read, management, generateEek, decryptEek]

def name : KeyOpType → String
  | all => "ALL"
  | read => "READ"
  | management => "MANAGEMENT"
  | generateEek => "GENERATE_EEK"
  | decryptEek => "DECRYPT_EEK"

def valueOf (text : String) : Option KeyOpType := values.find? fun type => type.name = text

end KeyOpType

/-- `KMS.KMSOp`. -/
inductive KMSOp where
  | createKey
  | deleteKey
  | rollNewVersion
  | getKeys
  | getKeysMetadata
  | getKeyVersions
  | getMetadata
  | getKeyVersion
  | getCurrentKey
  | generateEek
  | decryptEek
  deriving DecidableEq

def KMSOp.name : KMSOp → String
  | createKey => "CREATE_KEY"
  | deleteKey => "DELETE_KEY"
  | rollNewVersion => "ROLL_NEW_VERSION"
  | getKeys => "GET_KEYS"
  | getKeysMetadata => "GET_KEYS_METADATA"
  | getKeyVersions => "GET_KEY_VERSIONS"
  | getMetadata => "GET_METADATA"
  | getKeyVersion => "GET_KEY_VERSION"
  | getCurrentKey => "GET_CURRENT_KEY"
  | generateEek => "GENERATE_EEK"
  | decryptEek => "DECRYPT_EEK"

/-- What an access control list says of a user. -/
structure AccessControlList where
  isUserAllowed : UserGroupInformation → Bool
  isUserInList : UserGroupInformation → Bool

/-- `KeyAuthorizationKeyProvider.KeyACLs`. An assertion that fails gives the message of an
`AuthorizationException`. -/
structure KeyACLs where
  hasAccess : KMSACLsType → UserGroupInformation → Bool
  assertAccess : KMSACLsType → UserGroupInformation → KMSOp → Option String → Except String Unit
  hasAccessToKey : String → UserGroupInformation → KeyOpType → Bool
  isACLPresent : String → KeyOpType → Bool

/-- The message about a user who may not do an operation. -/
def unauthorizedMessage (ugi : UserGroupInformation) (operation : KMSOp) :
    Option String → String
  | some key => "User:" ++ ugi.shortUserName ++ " not allowed to do '" ++ operation.name ++
      "' on '" ++ key ++ "'"
  | none => "User:" ++ ugi.shortUserName ++ " not allowed to do '" ++ operation.name ++ "'"

structure KMSACLs where
  acls : KMSACLsType → AccessControlList
  blacklistedAcls : KMSACLsType → Option AccessControlList
  keyAcls : AssocMap String (AssocMap KeyOpType AccessControlList) := ∅
  defaultKeyAcls : AssocMap KeyOpType AccessControlList := ∅

namespace KMSACLs

def KEY_ACL_PREFIX : String := "key.acl."

def DEFAULT_KEY_ACL_PREFIX : String := "default.key.acl."

/-- The name between the prefix and the last dot of a property, and the operation behind. -/
def keyAclOf (property : String) : Option (String × KeyOpType) :=
  let text := property.toList
  let keyNameStarts := KEY_ACL_PREFIX.toList.length
  let keyNameEnds := (text.reverse.dropWhile (· != '.')).length - 1
  if keyNameStarts ≥ keyNameEnds then none
  else
    (KeyOpType.valueOf (String.ofList (text.drop (keyNameEnds + 1)))).map fun keyOp =>
      (String.ofList ((text.take keyNameEnds).drop keyNameStarts), keyOp)

section Loading

variable (aclOf : String → AccessControlList)

def setKMSACLs (conf : AssocMap String String) (this : KMSACLs) : KMSACLs :=
  { this with
    acls := fun aclType => aclOf ((conf.get? aclType.getAclConfigKey).getD "*")
    blacklistedAcls := fun aclType => (conf.get? aclType.getBlacklistConfigKey).map aclOf }

/-- The list of a property, under its key and operation. -/
def putKeyAcl (keyAcls : AssocMap String (AssocMap KeyOpType AccessControlList))
    (property : String × String) : AssocMap String (AssocMap KeyOpType AccessControlList) :=
  match keyAclOf property.1 with
  | none => keyAcls
  | some (keyName, aclType) =>
      keyAcls.put keyName (((keyAcls.get? keyName).getD ∅).put aclType (aclOf property.2))

/-- The properties that contain the prefix, wherever it stands. -/
def getValByRegex (conf : AssocMap String String) : List (String × String) :=
  conf.entries.filter fun property => KEY_ACL_PREFIX.toList <:+: property.1.toList

def putDefault (conf : AssocMap String String)
    (defaultKeyAcls : AssocMap KeyOpType AccessControlList) (keyOp : KeyOpType) :
    AssocMap KeyOpType AccessControlList :=
  if defaultKeyAcls.containsKey keyOp then defaultKeyAcls
  else
    match conf.get? (DEFAULT_KEY_ACL_PREFIX ++ keyOp.name) with
    | none => defaultKeyAcls
    | some aclStr => defaultKeyAcls.put keyOp (aclOf aclStr)

/-- The lists of keys are read anew; the default lists that are there stay. -/
def setKeyACLs (conf : AssocMap String String) (this : KMSACLs) : KMSACLs :=
  { this with
    keyAcls := (getValByRegex conf).foldl (putKeyAcl aclOf) ∅
    defaultKeyAcls := KeyOpType.values.foldl (putDefault aclOf conf) this.defaultKeyAcls }

/-- The file that is read when the server starts. -/
def new (conf : AssocMap String String) : KMSACLs :=
  setKeyACLs aclOf conf (setKMSACLs aclOf conf
    { acls := fun _ => aclOf "*", blacklistedAcls := fun _ => none })

/-- A reload reads the file twice. -/
def run (this : KMSACLs) (confs : AssocMap String String × AssocMap String String) : KMSACLs :=
  setKeyACLs aclOf confs.2 (setKMSACLs aclOf confs.1 this)

end Loading

def hasAccess (this : KMSACLs) (type : KMSACLsType) (ugi : UserGroupInformation) : Bool :=
  (this.acls type).isUserAllowed ugi &&
    match this.blacklistedAcls type with
    | none => true
    | some blacklist => !blacklist.isUserInList ugi

def assertAccess (this : KMSACLs) (aclType : KMSACLsType) (ugi : UserGroupInformation)
    (operation : KMSOp) (key : Option String) : Except String Unit :=
  if this.hasAccess aclType ugi then .ok () else .error (unauthorizedMessage ugi operation key)

def hasAccessToKey (this : KMSACLs) (keyName : String) (ugi : UserGroupInformation)
    (opType : KeyOpType) : Bool :=
  let keyAcl := (this.keyAcls.get? keyName).getD this.defaultKeyAcls
  match keyAcl.get? opType with
  | none => false
  | some acl => acl.isUserAllowed ugi

def isACLPresent (this : KMSACLs) (keyName : String) (opType : KeyOpType) : Bool :=
  this.keyAcls.containsKey keyName || this.defaultKeyAcls.containsKey opType

/-- The lists as the server asks for them. -/
def keyACLs (this : KMSACLs) : KeyACLs where
  hasAccess := this.hasAccess
  assertAccess := this.assertAccess
  hasAccessToKey := this.hasAccessToKey
  isACLPresent := this.isACLPresent

section Reloads

variable (aclOf : String → AccessControlList)

/-- The lists after some reloads. -/
def afterReloads (first : AssocMap String String)
    (reloads : List (AssocMap String String × AssocMap String String)) : KMSACLs :=
  reloads.foldl (run aclOf) (new aclOf first)

/-- The files the lists of keys were read from. -/
def keyFiles (first : AssocMap String String)
    (reloads : List (AssocMap String String × AssocMap String String)) :
    List (AssocMap String String) :=
  first :: reloads.map Prod.snd

/-- A file names a key. -/
def names (conf : AssocMap String String) (keyName : String) : Bool :=
  (getValByRegex conf).any fun property => (keyAclOf property.1).any fun about => about.1 = keyName

/-- The list a file gives an operation on a key, the last one where there are several. -/
def settingOf (conf : AssocMap String String) (keyName : String) (opType : KeyOpType) :
    Option String :=
  ((getValByRegex conf).reverse.find? fun property =>
    keyAclOf property.1 = some (keyName, opType)).map Prod.snd

/-- The first default list of an operation in some files. -/
def firstDefault (files : List (AssocMap String String)) (opType : KeyOpType) : Option String :=
  files.findSome? fun conf => conf.get? (DEFAULT_KEY_ACL_PREFIX ++ opType.name)

theorem get?_putDefaults (conf : AssocMap String String) (types : List KeyOpType)
    (defaults : AssocMap KeyOpType AccessControlList) (opType : KeyOpType) :
    (types.foldl (putDefault aclOf conf) defaults).get? opType =
      (defaults.get? opType).or (if opType ∈ types then
        (conf.get? (DEFAULT_KEY_ACL_PREFIX ++ opType.name)).map aclOf else none) := by
  induction types generalizing defaults with
  | nil => simp
  | cons first rest ih =>
      have turn : (putDefault aclOf conf defaults first).get? opType =
          (defaults.get? opType).or (if opType = first then
            (conf.get? (DEFAULT_KEY_ACL_PREFIX ++ opType.name)).map aclOf else none) := by
        unfold putDefault
        by_cases same : opType = first
        · subst same
          cases known : defaults.get? opType with
          | some acl =>
              have there : defaults.containsKey opType = true :=
                AssocMap.containsKey_iff.mpr (AssocMap.isSome_get?_iff.mp (by rw [known]; rfl))
              rw [if_pos there, known]
              rfl
          | none =>
              have absent : ¬defaults.containsKey opType = true := fun there =>
                AssocMap.get?_eq_none_iff.mp known (AssocMap.containsKey_iff.mp there)
              rw [if_neg absent, if_pos rfl]
              cases conf.get? (DEFAULT_KEY_ACL_PREFIX ++ opType.name) with
              | none => exact known
              | some aclStr => exact (AssocMap.get?_put _ _ _ _).trans (if_pos rfl)
        · rw [if_neg same, Option.or_none]
          split
          · rfl
          · split
            · rfl
            · exact (AssocMap.get?_put _ _ _ _).trans (if_neg same)
      rw [List.foldl_cons, ih, turn, Option.or_assoc]
      congr 1
      by_cases same : opType = first
      · subst same
        cases conf.get? (DEFAULT_KEY_ACL_PREFIX ++ opType.name) <;> simp
      · simp [same]

theorem mem_values (opType : KeyOpType) : opType ∈ KeyOpType.values := by
  cases opType <;> decide

theorem get?_defaultKeyAcls (first : AssocMap String String)
    (reloads : List (AssocMap String String × AssocMap String String)) (opType : KeyOpType) :
    (afterReloads aclOf first reloads).defaultKeyAcls.get? opType =
      (firstDefault (keyFiles first reloads) opType).map aclOf := by
  have read : ∀ (conf : AssocMap String String) (this : KMSACLs),
      (setKeyACLs aclOf conf this).defaultKeyAcls.get? opType =
        (this.defaultKeyAcls.get? opType).or
          ((conf.get? (DEFAULT_KEY_ACL_PREFIX ++ opType.name)).map aclOf) := by
    intro conf this
    have defaults := get?_putDefaults aclOf conf KeyOpType.values this.defaultKeyAcls
      opType
    rw [if_pos (mem_values opType)] at defaults
    rw [← defaults]
    unfold setKeyACLs
    dsimp only
  have later : ∀ (reloads : List (AssocMap String String × AssocMap String String))
      (this : KMSACLs), (reloads.foldl (run aclOf) this).defaultKeyAcls.get? opType =
        (this.defaultKeyAcls.get? opType).or
          ((firstDefault (reloads.map Prod.snd) opType).map aclOf) := by
    intro reloads
    induction reloads with
    | nil => exact fun this => (Option.or_none).symm
    | cons confs rest ih =>
        intro this
        rw [List.foldl_cons, ih]
        unfold run firstDefault
        rw [read, Option.or_assoc, List.map_cons, List.findSome?_cons]
        generalize confs.2.get? (DEFAULT_KEY_ACL_PREFIX ++ opType.name) = found
        congr 1
        cases found <;> rfl
  unfold afterReloads keyFiles firstDefault new
  have nothing : (∅ : AssocMap KeyOpType AccessControlList).get? opType = none := rfl
  rw [later, read, List.findSome?_cons]
  unfold setKMSACLs
  dsimp only
  rw [nothing, Option.none_or]
  generalize first.get? (DEFAULT_KEY_ACL_PREFIX ++ opType.name) = found
  cases found <;> rfl

/-- The lists of keys a file gives. -/
theorem get?_putKeyAcls (properties : List (String × String)) (keyName : String) :
    (((properties.foldl (putKeyAcl aclOf) ∅).get? keyName).isSome =
        properties.any fun property => (keyAclOf property.1).any fun about => about.1 = keyName) ∧
      ∀ opType, ((properties.foldl (putKeyAcl aclOf) ∅).get? keyName).bind (·.get? opType) =
        ((properties.reverse.find? fun property =>
          keyAclOf property.1 = some (keyName, opType)).map Prod.snd).map aclOf := by
  induction properties using List.reverseRecOn with
  | nil => exact ⟨rfl, fun opType => rfl⟩
  | append_singleton properties last ih =>
      obtain ⟨there, lists⟩ := ih
      rw [List.foldl_append, List.foldl_cons, List.foldl_nil, List.any_append]
      generalize properties.foldl (putKeyAcl aclOf) ∅ = keyAcls at there lists ⊢
      unfold putKeyAcl
      cases about : keyAclOf last.1 with
      | none => simp [about, there, lists]
      | some named =>
          obtain ⟨name, type⟩ := named
          by_cases same : name = keyName
          · subst same
            refine ⟨by simp [about, AssocMap.get?_put], fun opType => ?_⟩
            rw [List.reverse_append, AssocMap.get?_put, if_pos rfl, Option.bind_some,
              AssocMap.get?_put]
            by_cases own : opType = type
            · simp [about, own]
            · have other : type ≠ opType := fun this => own this.symm
              have before := lists opType
              rw [if_neg own]
              cases known : keyAcls.get? name with
              | none =>
                  rw [known] at before
                  simpa [about, other] using before
              | some acls =>
                  rw [known] at before
                  simpa [about, other] using before
          · have other : keyName ≠ name := fun this => same this.symm
            refine ⟨?_, fun opType => ?_⟩
            · simp [about, AssocMap.get?_put, other, same, there]
            · simp [about, AssocMap.get?_put, other, same, lists]

theorem keyAcls_afterReloads (first : AssocMap String String)
    (reloads : List (AssocMap String String × AssocMap String String)) :
    (afterReloads aclOf first reloads).keyAcls =
      (getValByRegex ((keyFiles first reloads).getLastD first)).foldl (putKeyAcl aclOf) ∅ := by
  induction reloads using List.reverseRecOn with
  | nil => rfl
  | append_singleton reloads last ih =>
      unfold afterReloads keyFiles
      rw [List.foldl_append, List.map_append, ← List.cons_append, List.map_cons, List.map_nil]
      rw [List.getLastD_concat]
      rfl

/-- **Reloaded lists.** After any reloads a key that the last file names has the lists of
that file alone, and every other key has the default list of an operation that was read
first since the server was started, whatever the later files say. -/
theorem keyAccess_afterReloads (first : AssocMap String String)
    (reloads : List (AssocMap String String × AssocMap String String)) (keyName : String)
    (ugi : UserGroupInformation) (opType : KeyOpType) :
    let files := keyFiles first reloads
    let last := files.getLastD first
    let list := if names last keyName then settingOf last keyName opType
      else firstDefault files opType
    ((afterReloads aclOf first reloads).hasAccessToKey keyName ugi opType =
        list.any fun aclStr => (aclOf aclStr).isUserAllowed ugi) ∧
      (afterReloads aclOf first reloads).isACLPresent keyName opType =
        (names last keyName || (firstDefault files opType).isSome) := by
  intro files last list
  have defaults := get?_defaultKeyAcls aclOf first reloads opType
  obtain ⟨there, lists⟩ := get?_putKeyAcls aclOf (getValByRegex last) keyName
  rw [← keyAcls_afterReloads] at there lists
  constructor
  · unfold hasAccessToKey
    have own := lists opType
    dsimp only [list]
    cases known : (afterReloads aclOf first reloads).keyAcls.get? keyName with
    | none =>
        rw [known] at there
        have unnamed : names last keyName = false := there.symm
        rw [Option.getD_none, defaults, unnamed, if_neg Bool.false_ne_true]
        cases firstDefault (keyFiles first reloads) opType <;> rfl
    | some acls =>
        rw [known] at there own
        have named : names last keyName = true := there.symm
        rw [Option.getD_some, named, if_pos rfl]
        change acls.get? opType = (settingOf last keyName opType).map aclOf at own
        rw [own]
        cases settingOf last keyName opType <;> rfl
  · unfold isACLPresent
    congr 1
    · rw [Bool.eq_iff_iff, AssocMap.containsKey_iff, ← AssocMap.isSome_get?_iff, there]
      rfl
    · rw [Bool.eq_iff_iff, AssocMap.containsKey_iff, ← AssocMap.isSome_get?_iff, defaults,
        Option.isSome_map]

end Reloads

end KMSACLs

/-- The authorizer that asks a plugin, unless the user is in a black list. There is no
plugin before the first authorizer was made. -/
structure RangerKmsAuthorizer where
  kmsPlugin : Option RangerBasePlugin.PolicyEngine
  blacklistedAcls : KMSACLsType → Option AccessControlList

namespace RangerKmsAuthorizer

def getRangerAccessType : KMSACLsType → String
  | .create => "create"
  | .delete => "delete"
  | .rollover => "rollover"
  | .get => "get"
  | .getKeys => "getkeys"
  | .getMetadata => "getmetadata"
  | .setKeyMaterial => "setkeymaterial"
  | .generateEek => "generateeek"
  | .decryptEek => "decrypteek"

/-- `RangerKMSAccessRequest`. -/
def accessRequest (keyName accessType : String) (ugi : UserGroupInformation) :
    RangerAccessRequest where
  resource := RangerAccessResource.setValue {} "keyname" (some keyName)
  accessType := accessType
  user := ugi.shortUserName
  userGroups := ugi.groupNames

def setKMSACLs (aclOf : String → AccessControlList) (conf : AssocMap String String)
    (this : RangerKmsAuthorizer) : RangerKmsAuthorizer :=
  { this with
    blacklistedAcls := fun aclType => (conf.get? aclType.getBlacklistConfigKey).map aclOf }

/-- `hasAccess` of a key by its name; without a name it is the empty one. -/
def hasAccess (this : RangerKmsAuthorizer) (type : KMSACLsType) (ugi : UserGroupInformation)
    (keyName : String) : Bool :=
  let ret := match this.blacklistedAcls type with
    | none => true
    | some blacklist => !blacklist.isUserInList ugi
  match this.kmsPlugin with
  | none => ret
  | some plugin =>
      if ret then
        let request := accessRequest keyName (getRangerAccessType type) ugi
        match RangerBasePlugin.isAccessAllowed plugin request with
        | none => false
        | some result => result.isAllowed
      else false

def assertAccess (this : RangerKmsAuthorizer) (aclType : KMSACLsType)
    (ugi : UserGroupInformation) (operation : KMSOp) (key : Option String) :
    Except String Unit :=
  let key := key.getD ""
  if this.hasAccess aclType ugi key then .ok ()
  else .error (unauthorizedMessage ugi operation (some key))

/-- The authorizer as the server asks it. Keys have no lists of their own. -/
def keyACLs (this : RangerKmsAuthorizer) : KeyACLs where
  hasAccess type ugi := this.hasAccess type ugi ""
  assertAccess := this.assertAccess
  hasAccessToKey _ _ _ := true
  isACLPresent _ _ := true

end RangerKmsAuthorizer

end Ranger

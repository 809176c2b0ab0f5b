import Ranger.Foundation.Interaction
import Ranger.Kms.KeyAcls
import Ranger.Kms.KeyStoreProvider

/-! # The key server

The server checks that a user may do an operation, and hands it to a provider. The provider
it hands it to may check once more, by the lists of the key the operation is about, before
it asks the provider behind it. Whom the lists and the provider answer meanwhile is open:
a request is a program that asks them.
-/

namespace Ranger

open Foundation

/-- A version of a key as it is sent. Its name may be missing, and its material taken out. -/
structure KMSKeyVersion where
  name : Option String
  versionName : String
  material : Option (List UInt8)
  deriving DecidableEq

/-- `KeyProviderCryptoExtension.EncryptedKeyVersion`. -/
structure EncryptedKeyVersion where
  encryptionKeyName : Option String
  encryptionKeyVersionName : String
  encryptedKeyIv : List UInt8
  encryptedKeyVersion : KMSKeyVersion
  deriving DecidableEq

/-- A call of a `KeyProviderCryptoExtension`. Material that is not given is generated. -/
inductive ProviderCall where
  | createKey (name : String) (material : Option (List UInt8)) (options : Options)
  | rollNewVersion (name : String) (material : Option (List UInt8))
  | deleteKey (name : String)
  | flush
  | getKeyVersion (versionName : String)
  | getKeys
  | getKeyVersions (name : String)
  | getMetadata (name : String)
  | getKeysMetadata (names : List String)
  | getCurrentKey (name : String)
  | generateEncryptedKey (encryptionKeyName : String)
  | decryptEncryptedKey (encryptedKeyVersion : EncryptedKeyVersion)
  | warmUpEncryptedKeys (names : List String)

/-- What a call returns. -/
def ProviderCall.Result : ProviderCall → Type
  | createKey .. => KeyVersion
  | rollNewVersion .. => KeyVersion
  | deleteKey _ => Unit
  | flush => Unit
  | getKeyVersion _ => Option KeyVersion
  | getKeys => List String
  | getKeyVersions _ => List KeyVersion
  | getMetadata _ => Option Metadata
  | getKeysMetadata _ => List (Option Metadata)
  | getCurrentKey _ => Option KeyVersion
  | generateEncryptedKey _ => EncryptedKeyVersion
  | decryptEncryptedKey _ => KeyVersion
  | warmUpEncryptedKeys _ => Unit

/-- What a request asks: the lists, and the provider. -/
inductive KMSQuestion where
  | hasAccess (type : KMSACLsType) (ugi : UserGroupInformation)
  | assertAccess (type : KMSACLsType) (ugi : UserGroupInformation) (operation : KMSOp)
      (key : Option String)
  | hasAccessToKey (aclName : String) (ugi : UserGroupInformation) (opType : KeyOpType)
  | isACLPresent (aclName : String) (opType : KeyOpType)
  | provider (call : ProviderCall)

def KMSQuestion.Answer : KMSQuestion → Type
  | hasAccess .. => Bool
  | assertAccess .. => Except String Unit
  | hasAccessToKey .. => Bool
  | isACLPresent .. => Bool
  | provider call => Except KmsException call.Result

/-- Why a request fails. -/
inductive KMSFailure where
  | authorization (message : String)
  | illegalArgument (message : String)
  | provider (exception : KmsException)
  | nullPointer
  | arrayIndexOutOfBounds
  | uriSyntax
  | io (cause : KMSFailure)

abbrev KMSWork (α : Type) := Asking KMSFailure KMSQuestion KMSQuestion.Answer α

namespace KMSWork

def ask (question : KMSQuestion) : KMSWork question.Answer := Asking.request question

def ofExcept {α : Type} : Except KMSFailure α → KMSWork α
  | .ok value => pure value
  | .error failure => throw failure

def hasAccess (type : KMSACLsType) (ugi : UserGroupInformation) : KMSWork Bool :=
  ask (.hasAccess type ugi)

def hasAccessToKey (aclName : String) (ugi : UserGroupInformation) (opType : KeyOpType) :
    KMSWork Bool :=
  ask (.hasAccessToKey aclName ugi opType)

def isACLPresent (aclName : String) (opType : KeyOpType) : KMSWork Bool :=
  ask (.isACLPresent aclName opType)

/-- `KMS.assertAccess`. -/
def assertAccess (type : KMSACLsType) (ugi : UserGroupInformation) (operation : KMSOp)
    (key : Option String) : KMSWork Unit := do
  let answer : Except String Unit ← ask (.assertAccess type ugi operation key)
  match answer with
  | .ok _ => pure ()
  | .error message => throw (.authorization message)

/-- The provider behind all checks. -/
def provider (call : ProviderCall) : KMSWork call.Result := do
  let answer : Except KmsException call.Result ← ask (.provider call)
  match answer with
  | .ok result => pure result
  | .error exception => throw (.provider exception)

end KMSWork

open KMSWork

namespace KeyAuthorizationKeyProvider

def KEY_ACL_NAME : String := "key.acl.name"

/-- The name of the list a key is under: its own name, unless its metadata says another. -/
def aclNameOf (keyName : String) (metadata : Metadata) : String :=
  (metadata.attributes.lookup KEY_ACL_NAME).getD keyName

/-- `hasAccessToKey` of the operation, or of all operations. -/
def hasAccessToKeyOrAll (aclName : String) (ugi : UserGroupInformation) (opType : KeyOpType) :
    KMSWork Bool := do
  if ← hasAccessToKey aclName ugi opType then pure true
  else hasAccessToKey aclName ugi .all

/-- The options of a key that may be created name its list. -/
def authorizeCreateKey (keyName : String) (options : Options) (ugi : UserGroupInformation) :
    KMSWork Options := do
  let aclName := (options.attributes.lookup KEY_ACL_NAME).getD ""
  let unauthorized : KMSFailure :=
    .authorization ("User [" ++ ugi.shortUserName ++ "] is not authorized to create key !!")
  if aclName.isEmpty then
    if ← isACLPresent keyName .management then
      -- a map cannot be built with the name twice
      if (options.attributes.lookup KEY_ACL_NAME).isSome then
        throw (.illegalArgument ("Multiple entries with same key: " ++ KEY_ACL_NAME ++ "=" ++
          keyName ++ " and " ++ KEY_ACL_NAME ++ "="))
      if ← hasAccessToKeyOrAll keyName ugi .management then
        pure { options with attributes := options.attributes ++ [(KEY_ACL_NAME, keyName)] }
      else throw unauthorized
    else throw unauthorized
  else
    if ← isACLPresent aclName .management then
      if ← hasAccessToKeyOrAll aclName ugi .management then pure options
      else throw unauthorized
    else throw unauthorized

def checkAccess (aclName : String) (ugi : UserGroupInformation) (opType : KeyOpType) :
    KMSWork Unit := do
  let unauthorized : KMSFailure :=
    .authorization ("User [" ++ ugi.shortUserName ++ "] is not authorized to perform [" ++
      opType.name ++ "] on key with ACL name [" ++ aclName ++ "]!!")
  if ← isACLPresent aclName .management then
    if ← hasAccessToKeyOrAll aclName ugi opType then pure ()
    else throw unauthorized
  else throw unauthorized

/-- A key that has no metadata is not checked. -/
def doAccessCheck (ugi : UserGroupInformation) (keyName : String) (opType : KeyOpType) :
    KMSWork Unit := do
  let metadata : Option Metadata ← provider (.getMetadata keyName)
  match metadata with
  | none => pure ()
  | some metadata => checkAccess (aclNameOf keyName metadata) ugi opType

def verifyKeyVersionBelongsToKey (ekv : EncryptedKeyVersion) : KMSWork Unit := do
  let kv : Option KeyVersion ← provider (.getKeyVersion ekv.encryptionKeyVersionName)
  match kv with
  | none => throw .nullPointer
  | some kv =>
      if some kv.name = ekv.encryptionKeyName then pure ()
      else
        throw (.illegalArgument ("KeyVersion '" ++ ekv.encryptionKeyVersionName ++
          "' does not belong to the key '" ++ ekv.encryptionKeyName.getD "null" ++ "'"))

/-- What the provider does for a user. -/
def perform (ugi : UserGroupInformation) : (call : ProviderCall) → KMSWork call.Result
  | .createKey name material options => do
      let options ← authorizeCreateKey name options ugi
      provider (.createKey name material options)
  | .rollNewVersion name material => do
      doAccessCheck ugi name .management
      provider (.rollNewVersion name material)
  | .deleteKey name => do
      doAccessCheck ugi name .management
      provider (.deleteKey name)
  | .flush => provider .flush
  | .getKeyVersion versionName => do
      let keyVersion : Option KeyVersion ← provider (.getKeyVersion versionName)
      match keyVersion with
      | none => pure ()
      | some keyVersion => doAccessCheck ugi keyVersion.name .read
      return keyVersion
  | .getKeys => provider .getKeys
  | .getKeyVersions name => do
      doAccessCheck ugi name .read
      provider (.getKeyVersions name)
  | .getMetadata name => do
      doAccessCheck ugi name .read
      provider (.getMetadata name)
  | .getKeysMetadata names => do
      names.forM fun name => doAccessCheck ugi name .read
      provider (.getKeysMetadata names)
  | .getCurrentKey name => do
      doAccessCheck ugi name .read
      provider (.getCurrentKey name)
  | .generateEncryptedKey encryptionKeyName => do
      doAccessCheck ugi encryptionKeyName .generateEek
      provider (.generateEncryptedKey encryptionKeyName)
  | .decryptEncryptedKey encryptedKeyVersion => do
      verifyKeyVersionBelongsToKey encryptedKeyVersion
      -- the name is that of a version, which is not null
      doAccessCheck ugi (encryptedKeyVersion.encryptionKeyName.getD "") .decryptEek
      provider (.decryptEncryptedKey encryptedKeyVersion)
  | .warmUpEncryptedKeys names => do
      names.forM fun name => doAccessCheck ugi name .generateEek
      provider (.warmUpEncryptedKeys names)

end KeyAuthorizationKeyProvider

/-- What is answered. -/
inductive KMSResponse where
  | ok
  | keyVersion (json : Option KMSKeyVersion)
  | keyVersions (json : List KMSKeyVersion)
  | metadata (name : String) (json : Option Metadata)
  | keysMetadata (json : List (String × Option Metadata))
  | keyNames (json : List String)
  | encryptedKeys (json : List EncryptedKeyVersion)

/-- The body of a request to create a key. -/
structure CreateKeyJson where
  name : Option String
  cipher : Option String := none
  material : Option String := none
  length : Option Int := none
  description : Option String := none
  attributes : Option (List (String × String)) := none

/-- The body of a request to decrypt a key. -/
structure DecryptJson where
  name : Option String
  iv : Option String
  material : Option String

inductive KMSRequest where
  | createKey (jsonKey : CreateKeyJson)
  | deleteKey (name : String)
  | rolloverKey (name : String) (material : Option String)
  | getKeysMetadata (keyNames : List String)
  | getKeyNames
  | getMetadata (name : String)
  | getCurrentVersion (name : String)
  | getKeyVersion (versionName : String)
  | generateEncryptedKeys (name : String) (edekOp : Option String) (numKeys : Int)
  | decryptEncryptedKey (versionName : String) (eekOp : Option String) (json : DecryptJson)
  | getKeyVersions (name : String)

/-- The text the server is given by its libraries and its configuration. -/
structure KMSSettings where
  decodeBase64 : String → List UInt8
  uriParses : String → Bool
  defaultCipher : String
  defaultBitLength : Int
  keyAuthorization : Bool

namespace KMS

def checkNotNull {α : Type} (value : Option α) (field : String) : KMSWork α :=
  match value with
  | none => throw (.illegalArgument ("Parameter '" ++ field ++ "' cannot be null"))
  | some value => pure value

def checkNotEmpty (text : Option String) (field : String) : KMSWork String := do
  let text ← checkNotNull text field
  if text.isEmpty then
    throw (.illegalArgument ("Parameter '" ++ field ++ "' cannot be empty"))
  else pure text

def removeKeyMaterial (keyVersion : KeyVersion) : KMSKeyVersion :=
  ⟨some keyVersion.name, keyVersion.versionName, none⟩

/-- `KMSServerJSONUtils.toJSON` of a version. -/
def toJSON (keyVersion : KeyVersion) : KMSKeyVersion :=
  ⟨some keyVersion.name, keyVersion.versionName, some keyVersion.material⟩

/-- `KMSServerJSONUtils.toJSON` of the metadata of some keys. -/
def metadataToJSON :
    List String → List (Option Metadata) → KMSWork (List (String × Option Metadata))
  | [], _ => pure []
  | _ :: _, [] => throw .arrayIndexOutOfBounds
  | name :: names, metadata :: rest => do
      let json ← metadataToJSON names rest
      pure ((name, metadata) :: json)

section Requests

variable (settings : KMSSettings) (user : UserGroupInformation)

/-- The provider of the server, which checks the lists of keys if it is set up so. -/
def perform (call : ProviderCall) : KMSWork call.Result :=
  if settings.keyAuthorization then KeyAuthorizationKeyProvider.perform user call
  else provider call

/-- The answer with a version that was made. -/
def answerMade (keyVersion : KeyVersion) : KMSWork KMSKeyVersion := do
  if ← hasAccess .get user then pure (toJSON keyVersion)
  else pure (removeKeyMaterial keyVersion)

/-- Material that is given must be allowed to be set. -/
def assertMaterial (operation : KMSOp) (name : String) (material : Option String) :
    KMSWork Unit :=
  if material.isSome then assertAccess .setKeyMaterial user operation (some name) else pure ()

def createKey (jsonKey : CreateKeyJson) : KMSWork KMSResponse := do
  let name ← checkNotEmpty jsonKey.name "name"
  assertAccess .create user .createKey (some name)
  assertMaterial user .createKey name jsonKey.material
  let length := jsonKey.length.getD 0
  let options : Options :=
    { cipher := jsonKey.cipher.getD settings.defaultCipher
      bitLength := if length ≠ 0 then length else settings.defaultBitLength
      description := jsonKey.description
      attributes := jsonKey.attributes.getD [] }
  let keyVersion : KeyVersion ← perform settings user
    (.createKey name (jsonKey.material.map settings.decodeBase64) options)
  perform settings user .flush
  let json ← answerMade user keyVersion
  if settings.uriParses ("v1/key/" ++ name) then pure (.keyVersion (some json))
  else throw .uriSyntax

def deleteKey (name : String) : KMSWork KMSResponse := do
  assertAccess .delete user .deleteKey (some name)
  let name ← checkNotEmpty (some name) "name"
  perform settings user (.deleteKey name)
  perform settings user .flush
  pure .ok

def rolloverKey (name : String) (material : Option String) : KMSWork KMSResponse := do
  assertAccess .rollover user .rollNewVersion (some name)
  let name ← checkNotEmpty (some name) "name"
  assertMaterial user .rollNewVersion name material
  let keyVersion : KeyVersion ← perform settings user
    (.rollNewVersion name (material.map settings.decodeBase64))
  perform settings user .flush
  let json ← answerMade user keyVersion
  pure (.keyVersion (some json))

def getKeysMetadata (keyNames : List String) : KMSWork KMSResponse := do
  assertAccess .getMetadata user .getKeysMetadata none
  let keysMeta : List (Option Metadata) ← perform settings user (.getKeysMetadata keyNames)
  let json ← metadataToJSON keyNames keysMeta
  pure (.keysMetadata json)

def getKeyNames : KMSWork KMSResponse := do
  assertAccess .getKeys user .getKeys none
  let json : List String ← perform settings user .getKeys
  pure (.keyNames json)

def getMetadata (name : String) : KMSWork KMSResponse := do
  let name ← checkNotEmpty (some name) "name"
  assertAccess .getMetadata user .getMetadata (some name)
  let metadata : Option Metadata ← perform settings user (.getMetadata name)
  pure (.metadata name metadata)

def getCurrentVersion (name : String) : KMSWork KMSResponse := do
  let name ← checkNotEmpty (some name) "name"
  assertAccess .get user .getCurrentKey (some name)
  let keyVersion : Option KeyVersion ← perform settings user (.getCurrentKey name)
  pure (.keyVersion (keyVersion.map toJSON))

def getKeyVersion (versionName : String) : KMSWork KMSResponse := do
  let versionName ← checkNotEmpty (some versionName) "versionName"
  assertAccess .get user .getKeyVersion none
  let keyVersion : Option KeyVersion ← perform settings user (.getKeyVersion versionName)
  pure (.keyVersion (keyVersion.map toJSON))

def wrongOp : KMSFailure :=
  .illegalArgument "Wrong eek_op value, it must be generate or decrypt"

/-- The keys of a request, one after another. -/
def generate (name : String) : Nat → KMSWork (List EncryptedKeyVersion)
  | 0 => pure []
  | numKeys + 1 => do
      let edek : EncryptedKeyVersion ← perform settings user (.generateEncryptedKey name)
      let rest ← generate name numKeys
      pure (edek :: rest)

/-- Whatever is thrown while keys are generated is thrown as the cause of an `IOException`. -/
def generateEncryptedKeys (name : String) (edekOp : Option String) (numKeys : Int) :
    KMSWork KMSResponse := do
  let name ← checkNotEmpty (some name) "name"
  let edekOp ← checkNotNull edekOp "eekOp"
  if edekOp = "generate" then
    assertAccess .generateEek user .generateEek (some name)
    let retEdeks ← tryCatch (generate settings user name numKeys.toNat) fun failure =>
      throw (.io failure)
    pure (.encryptedKeys retEdeks)
  else throw wrongOp

def decryptEncryptedKey (versionName : String) (eekOp : Option String) (json : DecryptJson) :
    KMSWork KMSResponse := do
  let versionName ← checkNotEmpty (some versionName) "versionName"
  let eekOp ← checkNotNull eekOp "eekOp"
  if eekOp = "decrypt" then
    assertAccess .decryptEek user .decryptEek json.name
    let ivStr ← checkNotNull json.iv "iv"
    let encMaterialStr ← checkNotNull json.material "material"
    let retKeyVersion : KeyVersion ← perform settings user (.decryptEncryptedKey
      { encryptionKeyName := json.name
        encryptionKeyVersionName := versionName
        encryptedKeyIv := settings.decodeBase64 ivStr
        encryptedKeyVersion := ⟨none, "EEK", some (settings.decodeBase64 encMaterialStr)⟩ })
    pure (.keyVersion (some (toJSON retKeyVersion)))
  else throw wrongOp

def getKeyVersions (name : String) : KMSWork KMSResponse := do
  let name ← checkNotEmpty (some name) "name"
  assertAccess .get user .getKeyVersions (some name)
  let ret : List KeyVersion ← perform settings user (.getKeyVersions name)
  pure (.keyVersions (ret.map toJSON))

/-- A request of a user. -/
def serve : KMSRequest → KMSWork KMSResponse
  | .createKey jsonKey => createKey settings user jsonKey
  | .deleteKey name => deleteKey settings user name
  | .rolloverKey name material => rolloverKey settings user name material
  | .getKeysMetadata keyNames => getKeysMetadata settings user keyNames
  | .getKeyNames => getKeyNames settings user
  | .getMetadata name => getMetadata settings user name
  | .getCurrentVersion name => getCurrentVersion settings user name
  | .getKeyVersion versionName => getKeyVersion settings user versionName
  | .generateEncryptedKeys name edekOp numKeys =>
      generateEncryptedKeys settings user name edekOp numKeys
  | .decryptEncryptedKey versionName eekOp json =>
      decryptEncryptedKey settings user versionName eekOp json
  | .getKeyVersions name => getKeyVersions settings user name

end Requests

end KMS

/-- The status of a response to a request that failed. -/
inductive KMSStatus where
  | badRequest
  | forbidden
  | internalServerError
  deriving DecidableEq

/-- The status, and whether the failure is audited: a refusal was audited before. -/
def KMSExceptionsProvider.toResponse : KMSFailure → KMSStatus × Bool
  | .authorization _ => (.forbidden, false)
  | .illegalArgument _ => (.badRequest, true)
  | .provider (.io _) => (.internalServerError, true)
  | .provider (.illegalArgument _) => (.badRequest, true)
  | .provider .classCast => (.internalServerError, true)
  | .nullPointer => (.internalServerError, true)
  | .arrayIndexOutOfBounds => (.internalServerError, true)
  | .uriSyntax => (.internalServerError, true)
  | .io _ => (.internalServerError, true)

end Ranger

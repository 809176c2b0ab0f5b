import Ranger.Foundation.AssocMap
import Ranger.Platform

/-! # Keys of encryption zones

A provider keeps the metadata of keys under their names and the material of their versions
in a key store, whose aliases are in lower case. The key store is written to a table when
the provider is flushed; what is deleted is taken out of the table at once.
-/

namespace Ranger

open Foundation

/-- The metadata of a key. -/
structure Metadata where
  cipher : String
  bitLength : Int
  description : Option String := none
  attributes : List (String × String) := []
  created : Nat
  versions : Int
  deriving DecidableEq

/-- `Metadata.addVersion` returns the number of versions and counts one more. -/
def Metadata.addVersion (metadata : Metadata) : Metadata :=
  { metadata with versions := intSucc metadata.versions }

/-- The options a key is created with. -/
structure Options where
  cipher : String
  bitLength : Int
  description : Option String := none
  attributes : List (String × String) := []

/-- The metadata of a key that is created with the options. -/
def Options.metadata (options : Options) (date : Nat) : Metadata where
  cipher := options.cipher
  bitLength := options.bitLength
  description := options.description
  attributes := options.attributes
  created := date
  versions := 1

structure KeyVersion where
  name : String
  versionName : String
  material : List UInt8
  deriving DecidableEq

namespace KeyProvider

def buildVersionName (name : String) (version : Int) : String := name ++ "@" ++ toString version

/-- The name in front of the last separator, if there is one. -/
def getBaseName (versionName : String) : Option String :=
  match versionName.toList.reverse.dropWhile (· != '@') with
  | [] => none
  | _ :: name => some (String.ofList name.reverse)

end KeyProvider

/-- What is sealed in a key store: the material of a version, or the metadata of a key. -/
inductive Key where
  | secretKeySpec (material : List UInt8) (algorithm : String)
  | keyMetadata (metadata : Metadata)
  deriving DecidableEq

/-- A key that is recovered with the password it was sealed with. -/
structure SealedObject where
  key : Key
  password : String
  deriving DecidableEq

namespace RangerKeyStore

structure SecretKeyEntry where
  date : Nat
  sealedKey : SealedObject
  cipher_field : String
  bit_length : Int
  description : Option String
  attributes : List (String × String)
  version : Int

end RangerKeyStore

/-- A row of the table, which is found by its alias. The encoded key is followed by a hash
that tells whether it was written with the same password. -/
structure XXRangerKeyStore where
  createdDate : Nat
  encoded : SealedObject
  digest : String
  cipher : String
  bitLength : Int
  description : Option String
  version : Int
  attributes : List (String × String)
  deriving DecidableEq

inductive KmsException where
  | io (message : String)
  | illegalArgument (message : String)
  | classCast
  deriving DecidableEq

abbrev KeyTable := AssocMap String XXRangerKeyStore

/-- A provider with its key store and the table behind it. -/
structure RangerKeyStoreProvider where
  entries : AssocMap String RangerKeyStore.SecretKeyEntry := ∅
  table : KeyTable := ∅
  masterKey : String
  changed : Bool := false
  cache : AssocMap String Metadata := ∅

namespace RangerKeyStore

open KeyProvider

section Store

variable [Platform]

def convertAlias (keyAlias : String) : String := Platform.lowerCase keyAlias

def engineContainsAlias (entries : AssocMap String SecretKeyEntry) (keyAlias : String) : Bool :=
  entries.containsKey (convertAlias keyAlias)

/-- Null when there is no entry; an error when it is sealed with another password. -/
def engineGetKey (entries : AssocMap String SecretKeyEntry) (keyAlias password : String) :
    Except Unit (Option Key) :=
  match entries.get? (convertAlias keyAlias) with
  | none => .ok none
  | some entry =>
      if entry.sealedKey.password = password then .ok (some entry.sealedKey.key) else .error ()

/-- The entry for a key. -/
def entryFor (key : Key) (password : String) (metadata : Metadata) (date : Nat) :
    SecretKeyEntry where
  date := date
  sealedKey := ⟨key, password⟩
  cipher_field := metadata.cipher
  bit_length := metadata.bitLength
  description := metadata.description
  attributes := metadata.attributes
  version := metadata.versions

def mapObjectToEntity (entry : SecretKeyEntry) (password : String) : XXRangerKeyStore where
  createdDate := entry.date
  encoded := entry.sealedKey
  digest := password
  cipher := entry.cipher_field
  bitLength := entry.bit_length
  description := entry.description
  version := entry.version
  attributes := entry.attributes

/-- The entry of a row that is loaded. -/
def entryOf (row : XXRangerKeyStore) : SecretKeyEntry where
  date := row.createdDate
  sealedKey := row.encoded
  cipher_field := row.cipher
  bit_length := row.bitLength
  description := row.description
  attributes := row.attributes
  version := row.version

/-- Every entry is written to the table. A write that fails is caught and goes unnoticed. -/
def engineStore (stored : String → Bool) (password : String)
    (entries : AssocMap String SecretKeyEntry) (table : KeyTable) : KeyTable :=
  entries.entries.foldl (fun table entry =>
    if stored entry.1 then table.put entry.1 (mapObjectToEntity entry.2 password) else table) table

/-- A row is loaded unless it was written with another password. -/
def loadRow (password : String) (entries : AssocMap String SecretKeyEntry)
    (row : String × XXRangerKeyStore) : Except KmsException (AssocMap String SecretKeyEntry) :=
  if row.2.digest = password then .ok (entries.put row.1 (entryOf row.2))
  else .error (.io "Keystore was tampered with, or password was incorrect")

/-- The rows are read into an empty store; without rows it is left as it is. -/
def engineLoad (rows : Option KeyTable) (password : String)
    (entries : AssocMap String SecretKeyEntry) :
    Except KmsException (AssocMap String SecretKeyEntry) :=
  match rows with
  | none => .ok entries
  | some rows =>
      if rows.isEmpty then .ok entries
      else rows.entries.foldlM (loadRow password) ∅

end Store

end RangerKeyStore

namespace RangerKeyStoreProvider

open KeyProvider RangerKeyStore

section Provider

variable [Platform] (provider : RangerKeyStoreProvider)

/-- A provider over a table, which may not be readable. -/
def new (readable : Bool) (table : KeyTable) (masterKey : String) :
    Except KmsException RangerKeyStoreProvider := do
  let entries ← engineLoad (if readable then some table else none) masterKey ∅
  return { entries := entries, table := table, masterKey := masterKey }

def contains (keyAlias : String) : Bool := engineContainsAlias provider.entries keyAlias

/-- `engineSetKeyEntry` fails when the key cannot be sealed. -/
def setKeyEntry (sealable : Bool) (keyAlias : String) (key : Key) (metadata : Metadata)
    (date : Nat) : Option RangerKeyStoreProvider :=
  if sealable then
    some { provider with
      entries := provider.entries.put (convertAlias keyAlias)
        (entryFor key provider.masterKey metadata date) }
  else none

def innerSetKeyVersion (date : Nat) (sealable : Bool) (name versionName : String)
    (material : List UInt8) (metadata : Metadata) :
    Except KmsException KeyVersion × RangerKeyStoreProvider :=
  if material.isEmpty then (.error (.illegalArgument "Empty key"), provider)
  else
    match provider.setKeyEntry sealable versionName (.secretKeySpec material metadata.cipher)
        metadata date with
    | none => (.error (.io ("Can't store key " ++ versionName)), provider)
    | some provider => (.ok ⟨name, versionName, material⟩, { provider with changed := true })

/-- The length of material in bits. -/
def bitsOf (material : List UInt8) : Int := Int.bmod (8 * material.length) 4294967296

def wrongLength (required : Int) (material : List UInt8) : KmsException :=
  .io ("Wrong key length. Required " ++ toString required ++ ", but got " ++
    toString (bitsOf material))

def createKey (date : Nat) (sealable : Bool) (name : String) (material : List UInt8)
    (options : Options) : Except KmsException KeyVersion × RangerKeyStoreProvider :=
  if provider.contains name || provider.cache.containsKey name then
    (.error (.io ("Key " ++ name ++ " already exists")), provider)
  else
    let metadata := options.metadata date
    if options.bitLength ≠ bitsOf material then
      (.error (wrongLength options.bitLength material), provider)
    else
      let provider := { provider with cache := provider.cache.put name metadata }
      provider.innerSetKeyVersion date sealable name (buildVersionName name 0) material metadata

/-- The metadata that is cached under the exact name, or found in the key store. -/
def getMetadata (name : String) :
    Except KmsException (Option Metadata) × RangerKeyStoreProvider :=
  match provider.cache.get? name with
  | some metadata => (.ok (some metadata), provider)
  | none =>
      if provider.contains name then
        match engineGetKey provider.entries name provider.masterKey with
        | .error _ => (.error (.io ("Can't recover key for " ++ name)), provider)
        | .ok (some (.keyMetadata metadata)) =>
            (.ok (some metadata), { provider with cache := provider.cache.put name metadata })
        | .ok _ => (.error .classCast, provider)
      else (.ok none, provider)

/-- An entry is taken out of the key store, and out of the table unless that fails. -/
def deleteEntry (deleted : String → Bool) (keyAlias : String) : RangerKeyStoreProvider :=
  if provider.contains keyAlias then
    { provider with
      table := if deleted (convertAlias keyAlias) then provider.table.remove (convertAlias keyAlias)
        else provider.table
      entries := provider.entries.remove (convertAlias keyAlias) }
  else provider

def deleteKey (deleted : String → Bool) (name : String) :
    Except KmsException Unit × RangerKeyStoreProvider :=
  match provider.getMetadata name with
  | (.error error, provider) => (.error error, provider)
  | (.ok none, provider) => (.error (.io ("Key " ++ name ++ " does not exist")), provider)
  | (.ok (some metadata), provider) =>
      let provider := (List.range metadata.versions.toNat).foldl (fun provider version =>
        deleteEntry provider deleted (buildVersionName name version)) provider
      let provider := provider.deleteEntry deleted name
      (.ok (), { provider with cache := provider.cache.remove name, changed := true })

def rollNewVersion (date : Nat) (sealable : Bool) (name : String) (material : List UInt8) :
    Except KmsException KeyVersion × RangerKeyStoreProvider :=
  match provider.getMetadata name with
  | (.error error, provider) => (.error error, provider)
  | (.ok none, provider) => (.error (.io ("Key " ++ name ++ " not found")), provider)
  | (.ok (some metadata), provider) =>
      if metadata.bitLength ≠ bitsOf material then
        (.error (wrongLength metadata.bitLength material), provider)
      else
        -- the version is added to the metadata in the cache
        let provider := { provider with cache := provider.cache.put name metadata.addVersion }
        provider.innerSetKeyVersion date sealable name (buildVersionName name metadata.versions)
          material metadata.addVersion

/-- The loop over the cached metadata. -/
def setMetadata (date : Nat) (sealable : String → Bool) :
    List (String × Metadata) → RangerKeyStoreProvider →
      Except KmsException Unit × RangerKeyStoreProvider
  | [], provider => (.ok (), provider)
  | (name, metadata) :: rest, provider =>
      match provider.setKeyEntry (sealable name) name (.keyMetadata metadata) metadata date with
      | none => (.error (.io ("Can't set metadata key " ++ name)), provider)
      | some provider => setMetadata date sealable rest provider

def flush (date : Nat) (sealable stored : String → Bool) :
    Except KmsException Unit × RangerKeyStoreProvider :=
  if provider.changed then
    match setMetadata date sealable provider.cache.entries provider with
    | (.error error, provider) => (.error error, provider)
    | (.ok _, provider) =>
        (.ok (), { provider with
          table := engineStore stored provider.masterKey provider.entries provider.table
          changed := false })
  else (.ok (), provider)

def getKeyVersion (versionName : String) : Except KmsException (Option KeyVersion) :=
  if provider.contains versionName then
    match engineGetKey provider.entries versionName provider.masterKey with
    | .error _ => .error (.io "Can't recover key null")
    | .ok none => .ok none
    | .ok (some (.keyMetadata _)) => .error .classCast
    | .ok (some (.secretKeySpec material _)) =>
        match getBaseName versionName with
        | none => .error (.io ("No version in key path " ++ versionName))
        | some name => .ok (some ⟨name, versionName, material⟩)
  else .ok none

/-- The aliases that are names of keys. -/
def getKeys : List String :=
  provider.entries.keys.filter fun keyAlias => !keyAlias.toList.contains '@'

end Provider

/-- A call of a provider, with the time, the keys that can be sealed, and the writes to the
table that succeed. -/
inductive Call where
  | createKey (date : Nat) (sealable : Bool) (name : String) (material : List UInt8)
      (options : Options)
  | rollNewVersion (date : Nat) (sealable : Bool) (name : String) (material : List UInt8)
  | deleteKey (deleted : String → Bool) (name : String)
  | flush (date : Nat) (sealable stored : String → Bool)
  | getMetadata (name : String)

namespace Call

/-- The name a call is about. -/
def name? : Call → Option String
  | createKey _ _ name _ _ => some name
  | rollNewVersion _ _ name _ => some name
  | deleteKey _ name => some name
  | flush _ _ _ => none
  | getMetadata name => some name

variable [Platform]

/-- What a call returns, with the version it may have made, and what it leaves behind. -/
def perform (provider : RangerKeyStoreProvider) :
    Call → Except KmsException (Option KeyVersion) × RangerKeyStoreProvider
  | createKey date sealable name material options =>
      let (result, provider) := provider.createKey date sealable name material options
      (result.map some, provider)
  | rollNewVersion date sealable name material =>
      let (result, provider) := provider.rollNewVersion date sealable name material
      (result.map some, provider)
  | deleteKey deleted name =>
      let (result, provider) := provider.deleteKey deleted name
      (result.map fun _ => none, provider)
  | flush date sealable stored =>
      let (result, provider) := provider.flush date sealable stored
      (result.map fun _ => none, provider)
  | getMetadata name =>
      let (result, provider) := provider.getMetadata name
      (result.map fun _ => none, provider)

end Call

end RangerKeyStoreProvider

end Ranger

import Ranger.Admin.PasswordUtils
import Ranger.Admin.PortalUsers
import Ranger.Admin.ServiceRows
import Ranger.Foundation.Scan

/-! # Services and their configurations

A service is stored as a row, with a row for each configuration. It is read back through a
mapper into a new object, where the password is replaced by a placeholder, and an update takes
the placeholder for the password that is stored.
-/

namespace Ranger

open Foundation

namespace ServiceConfigs

/-- A map of configurations; a value may be null. -/
abbrev Configs := AssocMap String (Option String)

structure XXServiceConfigDef where
  name : String
  isMandatory : Bool
  deriving DecidableEq

/-- The name and the configurations of a service type. -/
structure XXServiceDef where
  name : Option String
  configs : List XXServiceConfigDef
  deriving DecidableEq

structure XXService where
  guid : Option String
  createTime : Option Int
  updateTime : Option Int
  addedByUserId : Option Int
  updatedByUserId : Option Int
  version : Option Int
  type : Int
  name : Option String
  policyVersion : Option Int
  policyUpdateTime : Option Int
  description : Option String
  isEnabled : Bool
  deriving DecidableEq

structure XXServiceConfigMap where
  serviceId : Int
  configKey : String
  configValue : Option String
  deriving DecidableEq

/-- A service as the store gives and takes it. -/
structure RangerService where
  id : Option Int := none
  guid : Option String := none
  /-- The constructor sets it. -/
  isEnabled : Option Bool := some true
  createTime : Option Int := none
  updateTime : Option Int := none
  version : Option Int := none
  type : Option String := none
  name : Option String := none
  description : Option String := none
  configs : Option Configs := some ∅
  policyVersion : Option Int := none
  policyUpdateTime : Option Int := none

/-- The tables of services, and the others. -/
structure ServiceTables (σ : Type) where
  serviceDefs : Table XXServiceDef
  services : Table XXService
  configMaps : Table XXServiceConfigMap
  others : σ

/-- What the calls do to the other tables. -/
class OtherTables (σ : Type) where
  /-- The user of a configuration is found by its name, or created. -/
  findOrCreateXUser : String → σ → Except String σ
  createObjectDataHistory : RangerService → σ → Except String σ
  /-- The default policy of a service, for the user of its configurations; the service gets
  the version of its policies and their time. -/
  createDefaultPolicy : Int × XXService → Option String → σ →
    Except String (σ × Option Int × Option Int)

/-- Other tables that take everything. -/
@[reducible] def OtherTables.unit : OtherTables Unit where
  findOrCreateXUser _ _ := .ok ()
  createObjectDataHistory _ _ := .ok ()
  createDefaultPolicy _ _ _ := .ok ((), some 1, some 0)

/-- What a call reads of the session, the clock and the generator of guids. -/
structure Calling where
  isUserAdmin : Bool
  currentUserId : Option Int
  utcDate : Int
  guid : String
  deriving DecidableEq

def CONFIG_KEY_PASSWORD : String := "password"

def HIDDEN_PASSWORD_STR : String := "*****"

/-- `StringUtil.getValidUserName`: the text in front of the first slash, or else of the first
at sign. -/
def getValidUserName (str : String) : String :=
  let chars := str.toList
  if chars.contains '/' then String.ofList (chars.takeWhile (· != '/'))
  else if chars.contains '@' then String.ofList (chars.takeWhile (· != '@'))
  else str

section Rows

variable {σ : Type} (tables : ServiceTables σ)

/-- `XXServiceDefDao.findByName`, which fails on a name that several have. -/
def findServiceDef (name : Option String) : Except String (Option (Int × XXServiceDef)) :=
  match name with
  | none => .ok none
  | some _ =>
      match tables.serviceDefs.rows.entries.filter (·.2.name == name) with
      | [] => .ok none
      | [xServiceDef] => .ok (some xServiceDef)
      | _ => .error "NonUniqueResultException"

/-- `XXServiceDao.findByName`; the names are unique. -/
def findService (name : Option String) : Option (Int × XXService) :=
  if name.isNone then none else tables.services.find? (·.name == name)

/-- `XXServiceConfigDefDao.findByServiceDefName`. -/
def findConfigDefs (name : Option String) : List XXServiceConfigDef :=
  if name.isNone then []
  else (tables.serviceDefs.rowsWhere (·.name == name)).flatMap (·.configs)

/-- `XXServiceConfigMapDao.findByServiceId`. -/
def configMapsOf (serviceId : Int) : List XXServiceConfigMap :=
  tables.configMaps.rowsWhere (·.serviceId == serviceId)

end Rows

variable [Platform]

/-- `StringUtils.equalsIgnoreCase`. -/
def sameIgnoringCase : Option String → Option String → Bool
  | none, none => true
  | some first, some second => equalsIgnoreCase first second
  | _, _ => false

def isPasswordKey (configKey : String) : Bool := equalsIgnoreCase configKey CONFIG_KEY_PASSWORD

def isHidden (configValue : Option String) : Bool :=
  sameIgnoringCase configValue (some HIDDEN_PASSWORD_STR)

theorem isPasswordKey_password : isPasswordKey CONFIG_KEY_PASSWORD = true :=
  equalsIgnoreCase_refl _

theorem isHidden_hidden : isHidden (some HIDDEN_PASSWORD_STR) = true := equalsIgnoreCase_refl _

omit [Platform] in
theorem not_isEmptyText_hidden : isEmptyText (some HIDDEN_PASSWORD_STR) = false := by decide

/-- The entries of a map, as they are iterated. -/
def entriesOf (configs : Configs) : List (String × Option String) :=
  (Platform.hashOrder configs.keys).filterMap fun key =>
    (configs.get? key).map fun value => (key, value)

namespace RangerServiceService

variable {σ : Type} (tables : ServiceTables σ)

/-- The configurations as they are shown, without the password. -/
def shownConfigs (svcConfigMapList : List XXServiceConfigMap) : Configs :=
  AssocMap.putAll ∅ (svcConfigMapList.map fun svcConfMap =>
    (svcConfMap.configKey,
      if isPasswordKey svcConfMap.configKey then some HIDDEN_PASSWORD_STR
      else svcConfMap.configValue))

/-- `populateViewBean` and `mapEntityToViewBean`, into a new object. -/
def populateViewBean (id : Int) (xService : XXService) : Except String RangerService :=
  match tables.serviceDefs.get? xService.type with
  | none => .error nullPointer
  | some xServiceDef =>
      .ok
        { id := some id
          createTime := xService.createTime
          updateTime := xService.updateTime
          type := xServiceDef.name
          guid := xService.guid
          version := xService.version
          name := xService.name
          description := xService.description
          policyVersion := xService.policyVersion
          policyUpdateTime := xService.policyUpdateTime
          configs := some (shownConfigs (configMapsOf tables id)) }

/-- `mapViewToEntityBean`, into an entity with these audit fields. -/
def mapViewToEntityBean (guid : String) (vObj : RangerService) (createTime updateTime : Option Int)
    (addedByUserId updatedByUserId : Option Int) : Except String XXService := do
  match ← findServiceDef tables vObj.type with
  | none => .error ("No ServiceDefinition found with name :" ++ textOrNull vObj.type)
  | some (type, _) =>
      match vObj.isEnabled with
      -- the column of the flag is not nullable
      | none => .error "PersistenceException"
      | some isEnabled =>
          return {
            guid := if isEmptyValue vObj.guid then some guid else vObj.guid
            createTime := createTime
            updateTime := updateTime
            addedByUserId := addedByUserId
            updatedByUserId := updatedByUserId
            version := vObj.version
            type := type
            name := vObj.name
            policyVersion := vObj.policyVersion
            policyUpdateTime := vObj.policyUpdateTime
            description := vObj.description
            isEnabled := isEnabled }

/-- `getConfigsWithDecryptedPassword`. The query for the configuration fails if there are
several. -/
def getConfigsWithDecryptedPassword [Ciphers] (service : RangerService) :
    Except String Configs :=
  match service.configs with
  | none => .error nullPointer
  | some configs =>
      let pwd := (configs.get? CONFIG_KEY_PASSWORD).join
      if !isEmptyText pwd && isHidden pwd then
        match service.id with
        | none => .ok configs
        | some id =>
            match (configMapsOf tables id).filter (·.configKey == CONFIG_KEY_PASSWORD) with
            | [] => .ok configs
            | [pwdConfig] => do
                let encryptedPwd := pwdConfig.configValue
                let decryptedPwd ← PasswordUtils.decryptPassword encryptedPwd
                let again ← PasswordUtils.encryptPassword decryptedPwd
                if sameIgnoringCase (some again) encryptedPwd then
                  return configs.put CONFIG_KEY_PASSWORD decryptedPwd
                else return configs
            | _ => .error "NonUniqueResultException"
      else .ok configs

end RangerServiceService

namespace ServiceDBStore

section Checks

variable {σ : Type} (tables : ServiceTables σ)

/-- `validateRequiredConfigParams`: the configurations that have a value. -/
def validateRequiredConfigParams (service : RangerService) (configs : Option Configs) :
    Except String (Option Configs) :=
  match configs with
  | none => .ok none
  | some configs =>
      match (findConfigDefs tables service.type).find? fun svcConfDef =>
          svcConfDef.isMandatory && isEmptyText (configs.get? svcConfDef.name).join with
      | some svcConfDef => .error ("Please provide value of mandatory: " ++ svcConfDef.name)
      | none =>
          .ok (some (AssocMap.putAll ∅
            ((entriesOf configs).filter fun config => !isEmptyText config.2)))

/-- The log of an update compares the configurations, and a missing value with none. -/
def getTransactionLog (service : RangerService) (id : Int) (existing : XXService) :
    Except String Unit := do
  let oldService ← RangerServiceService.populateViewBean tables id existing
  if (service.configs.getD ∅).entries.any fun config =>
      config.2.isNone && (oldService.configs.getD ∅).containsKey config.1 then
    .error nullPointer
  else .ok ()

end Checks

section Writing

variable {σ : Type} [OtherTables σ] [Ciphers]

/-- The tables that configurations are written to, and the user they name. -/
structure Writing (σ : Type) where
  configMaps : Table XXServiceConfigMap
  others : σ
  userName : Option String := none

/-- A password is stored encrypted if it can be decrypted. -/
def encrypted (configValue : Option String) : Except String (Option String) := do
  let encryptedPwd ← PasswordUtils.encryptPassword configValue
  let decryptedPwd ← PasswordUtils.decryptPassword (some encryptedPwd)
  return if decryptedPwd = configValue then some encryptedPwd else configValue

/-- The value that `createService` stores for a configuration. -/
def createdValue (configKey : String) (configValue : Option String) :
    Except String (Option String) :=
  if isPasswordKey configKey then encrypted configValue else .ok configValue

/-- The value that `updateService` stores for a configuration. -/
def updatedValue (oldPassword : Option String) (configKey : String)
    (configValue : Option String) : Except String (Option String) :=
  if isPasswordKey configKey then
    if isHidden configValue then .ok oldPassword else encrypted configValue
  else .ok configValue

section Config

omit [Ciphers]

/-- The user that a configuration names is found or created. -/
def userOfConfig (config : String × Option String) (writing : Writing σ) :
    Except String (Writing σ) :=
  if equalsIgnoreCase config.1 "username" then
    match config.2 with
    | none => .error nullPointer
    | some configValue =>
        (OtherTables.findOrCreateXUser (getValidUserName configValue) writing.others).map
          fun others =>
            { writing with others := others, userName := some (getValidUserName configValue) }
  else .ok writing

def writeConfig (stored : String → Option String → Except String (Option String))
    (serviceId : Int) (writing : Writing σ) (config : String × Option String) :
    Except String (Writing σ) := do
  let writing ← userOfConfig config writing
  let configValue ← stored config.1 config.2
  return { writing with
    configMaps := writing.configMaps.insert ⟨serviceId, config.1, configValue⟩ }

theorem configMaps_userOfConfig {config : String × Option String} {writing next : Writing σ}
    (found : userOfConfig config writing = .ok next) : next.configMaps = writing.configMaps := by
  unfold userOfConfig at found
  split at found
  · split at found
    · cases found
    · obtain ⟨others, _, rfl⟩ := Outcome.map_eq_ok.mp found
      rfl
  · cases found
    rfl

end Config

def createService (calling : Calling) (service : RangerService) (tables : ServiceTables σ) :
    Except String (RangerService × ServiceTables σ) := do
  if !calling.isUserAdmin then
    .error "Sorry, you don't have permission to perform the operation"
  else
    match ← validateRequiredConfigParams tables service service.configs with
    | none => .error "ConfigParams cannot be null."
    | some validConfigs =>
        let service := { service with version := some 1 }
        let xService ← RangerServiceService.mapViewToEntityBean tables calling.guid service
          (some calling.utcDate) (some calling.utcDate) calling.currentUserId
          calling.currentUserId
        -- the name of a service is a unique key
        if (findService tables service.name).isSome then .error "PersistenceException"
        else
          let id := tables.services.next
          let tables := { tables with services := tables.services.insert xService }
          let writing ← (entriesOf validConfigs).foldlM (writeConfig createdValue id)
            { configMaps := tables.configMaps, others := tables.others }
          let tables := { tables with configMaps := writing.configMaps }
          let createdService ← RangerServiceService.populateViewBean tables id xService
          let others ← OtherTables.createObjectDataHistory createdService writing.others
          let (others, policyVersion, policyUpdateTime) ←
            OtherTables.createDefaultPolicy (id, xService) writing.userName others
          let xService :=
            { xService with policyVersion := policyVersion, policyUpdateTime := policyUpdateTime }
          return (createdService,
            { tables with services := tables.services.replace id xService, others := others })

/-- The password that is stored: the last one of the rows. -/
def oldPassword (dbConfigMaps : List XXServiceConfigMap) : Option String :=
  dbConfigMaps.foldl (fun oldPassword dbConfigMap =>
    if isPasswordKey dbConfigMap.configKey then dbConfigMap.configValue else oldPassword) none

def updateService (calling : Calling) (service : RangerService) (tables : ServiceTables σ) :
    Except String (RangerService × ServiceTables σ) := do
  match service.id.bind fun id => (tables.services.get? id).map fun row => (id, row) with
  | none => .error ("no service exists with ID=" ++ textOrNull (service.id.map toString))
  | some (id, existing) =>
      let renamed := !sameIgnoringCase service.name existing.name
      match (if renamed then findService tables service.name else none) with
      | some (other, _) =>
          .error ("another service already exists with name '" ++ textOrNull service.name ++
            "'. ID=" ++ toString other)
      | none =>
          match ← validateRequiredConfigParams tables service service.configs with
          | none => .error "ConfigParams cannot be null."
          | some validConfigs =>
              getTransactionLog tables service id existing
              let version :=
                match service.version with
                | none => 1
                | some version => longSucc version
              let service := { service with version := some version }
              let xUpdService ← RangerServiceService.mapViewToEntityBean tables calling.guid
                service (existing.createTime <|> some calling.utcDate) (some calling.utcDate)
                (existing.addedByUserId <|> calling.currentUserId) calling.currentUserId
              -- the name of a service is a unique key
              if service.name ≠ existing.name ∧ (findService tables service.name).isSome then
                .error "PersistenceException"
              else
                let tables := { tables with services := tables.services.replace id xUpdService }
                let dbConfigMaps := configMapsOf tables id
                let configMaps := tables.configMaps.removeWhere (·.serviceId == id)
                let writing ← (entriesOf validConfigs).foldlM
                  (writeConfig (updatedValue (oldPassword dbConfigMaps)) id)
                  { configMaps := configMaps, others := tables.others }
                let tables := { tables with configMaps := writing.configMaps }
                let updService ← RangerServiceService.populateViewBean tables id xUpdService
                let others ← OtherTables.createObjectDataHistory updService writing.others
                return (updService, { tables with others := others })

end Writing

section Reading

variable {σ : Type} (tables : ServiceTables σ)

/-- `getService` and `RangerServiceService.read`. -/
def getService (id : Int) : Except String RangerService :=
  match tables.services.get? id with
  | none => .error "Data Not Found for given Id"
  | some resource => RangerServiceService.populateViewBean tables id resource

end Reading

end ServiceDBStore

omit [Platform] in
/-- The type of a name is the only one that has the name. -/
theorem entries_of_findServiceDef {σ : Type} {tables : ServiceTables σ} {name : Option String}
    {found : Int × XXServiceDef} (unique : findServiceDef tables name = .ok (some found)) :
    tables.serviceDefs.get? found.1 = some found.2 ∧
      ∀ entry ∈ tables.serviceDefs.rows.entries, entry.2.name = name → entry = found := by
  have only : tables.serviceDefs.rows.entries.filter (·.2.name == name) = [found] := by
    unfold findServiceDef at unique
    split at unique
    · cases unique
    · split at unique
      · cases unique
      · next same =>
          cases unique
          exact same
      · cases unique
  have listed : found ∈ tables.serviceDefs.rows.entries.filter (·.2.name == name) :=
    only ▸ List.mem_singleton_self found
  refine ⟨Table.get?_eq_some_iff.mpr (List.mem_of_mem_filter listed), fun entry member named => ?_⟩
  have among : entry ∈ tables.serviceDefs.rows.entries.filter (·.2.name == name) :=
    List.mem_filter.mpr ⟨member, beq_iff_eq.mpr named⟩
  exact List.mem_singleton.mp (only ▸ among)

section Entries

theorem perm_entriesOf (configs : Configs) : (entriesOf configs).Perm configs.entries := by
  have listed : configs.keys.filterMap (fun key =>
      (configs.get? key).map fun value => (key, value)) = configs.entries := by
    unfold AssocMap.keys
    rw [List.filterMap_map]
    refine (List.filterMap_congr fun entry member => ?_).trans List.filterMap_some
    have found : configs.get? entry.1 = some entry.2 := AssocMap.get?_eq_some_iff.mpr member
    exact congrArg (Option.map _) found
  rw [← listed]
  exact (Platform.hashOrder_perm configs.keys).filterMap _

theorem nodup_entriesOf (configs : Configs) : ((entriesOf configs).map Prod.fst).Nodup :=
  ((perm_entriesOf configs).map Prod.fst).nodup_iff.mpr configs.nodup

theorem entriesOf_putAll {entries : List (String × Option String)}
    (distinct : (entries.map Prod.fst).Nodup) :
    (entriesOf (AssocMap.putAll ∅ entries)).Perm entries :=
  (perm_entriesOf _).trans (List.Perm.of_eq (AssocMap.entries_putAll_of_nodup ∅ distinct))

/-- The configurations that an update or a creation writes are those with a value. -/
theorem perm_validConfigs {σ : Type} {tables : ServiceTables σ} {service : RangerService}
    {configs : Configs} {validConfigs : Configs}
    (valid : ServiceDBStore.validateRequiredConfigParams tables service (some configs) =
      .ok (some validConfigs)) :
    (entriesOf validConfigs).Perm
      (configs.entries.filter fun config => !isEmptyText config.2) := by
  unfold ServiceDBStore.validateRequiredConfigParams at valid
  dsimp only at valid
  split at valid
  · cases valid
  · cases valid
    have some := (perm_entriesOf configs).filter fun config => !isEmptyText config.2
    refine (entriesOf_putAll ?_).trans some
    exact (nodup_entriesOf configs).sublist (List.filter_sublist.map _)

end Entries

section Written

variable {σ : Type} [OtherTables σ]

/-- The row that is stored for a configuration. -/
structure Stores (stored : String → Option String → Except String (Option String))
    (serviceId : Int) (config : String × Option String) (row : XXServiceConfigMap) : Prop where
  serviceId : row.serviceId = serviceId
  configKey : row.configKey = config.1
  configValue : stored config.1 config.2 = .ok row.configValue

/-- The rows that a loop writes are those of its configurations, in their order. -/
theorem stores_of_foldlM {stored : String → Option String → Except String (Option String)}
    {serviceId : Int} {configs : List (String × Option String)}
    {start final : ServiceDBStore.Writing σ}
    (returned : configs.foldlM (ServiceDBStore.writeConfig stored serviceId) start = .ok final) :
    ∃ rows, List.Forall₂ (Stores stored serviceId) configs rows ∧
      final.configMaps = rows.foldl Table.insert start.configMaps := by
  induction configs generalizing start with
  | nil =>
      cases returned
      exact ⟨[], .nil, rfl⟩
  | cons config rest ih =>
      rw [List.foldlM_cons] at returned
      obtain ⟨next, wrote, behind⟩ := Outcome.bind_eq_ok.mp returned
      obtain ⟨rows, listed, placed⟩ := ih behind
      obtain ⟨named, user, value⟩ := Outcome.bind_eq_ok.mp wrote
      obtain ⟨configValue, stores, same⟩ := Outcome.bind_eq_ok.mp value
      cases same
      refine ⟨⟨serviceId, config.1, configValue⟩ :: rows, .cons ⟨rfl, rfl, stores⟩ listed, ?_⟩
      rw [placed, List.foldl_cons, ServiceDBStore.configMaps_userOfConfig user]

/-- A service as it is read; every service that is read is enabled. -/
structure Views (tables : ServiceTables σ) (id : Int) (xService : XXService)
    (service : RangerService) : Prop where
  type : ∃ xServiceDef, tables.serviceDefs.get? xService.type = some xServiceDef ∧
    service.type = xServiceDef.name
  sameId : service.id = some id
  isEnabled : service.isEnabled = some true
  guid : service.guid = xService.guid
  version : service.version = xService.version
  name : service.name = xService.name
  policyVersion : service.policyVersion = xService.policyVersion
  policyUpdateTime : service.policyUpdateTime = xService.policyUpdateTime
  description : service.description = xService.description
  configs : service.configs = some (RangerServiceService.shownConfigs (configMapsOf tables id))

omit [OtherTables σ] in
theorem views_of_populateViewBean {tables : ServiceTables σ} {id : Int} {xService : XXService}
    {service : RangerService}
    (viewed : RangerServiceService.populateViewBean tables id xService = .ok service) :
    Views tables id xService service := by
  unfold RangerServiceService.populateViewBean at viewed
  split at viewed
  · cases viewed
  · next xServiceDef found =>
      cases viewed
      exact ⟨⟨xServiceDef, found, rfl⟩, rfl, rfl, rfl, rfl, rfl, rfl, rfl, rfl, rfl⟩

/-- The rows that a call has stored for the configurations with a value. -/
structure WritesConfigs (stored : String → Option String → Except String (Option String))
    (serviceId : Int) (service : RangerService) (rows : List XXServiceConfigMap)
    (before after : Table XXServiceConfigMap) : Prop where
  stores : ∃ configs entries, service.configs = some configs ∧
    entries.Perm (configs.entries.filter fun config => !isEmptyText config.2) ∧
    List.Forall₂ (Stores stored serviceId) entries rows
  placed : after = rows.foldl Table.insert before

/-- The row that a call makes of a service, for a type of a name that is used once. -/
structure MapsService (tables : ServiceTables σ) (calling : Calling) (service : RangerService)
    (entity : XXService) : Prop where
  type : ∃ xServiceDef, findServiceDef tables service.type = .ok (some (entity.type, xServiceDef))
  isEnabled : service.isEnabled = some entity.isEnabled
  guid : entity.guid = if isEmptyValue service.guid then some calling.guid else service.guid
  name : entity.name = service.name
  policyVersion : entity.policyVersion = service.policyVersion
  policyUpdateTime : entity.policyUpdateTime = service.policyUpdateTime
  description : entity.description = service.description

omit [Platform] [OtherTables σ] in
theorem mapsService_of_mapViewToEntityBean {tables : ServiceTables σ} {calling : Calling}
    {service : RangerService} {createTime updateTime addedByUserId updatedByUserId : Option Int}
    {entity : XXService}
    (mapped : RangerServiceService.mapViewToEntityBean tables calling.guid service createTime
      updateTime addedByUserId updatedByUserId = .ok entity) :
    MapsService tables calling service entity ∧ entity.createTime = createTime ∧
      entity.addedByUserId = addedByUserId := by
  obtain ⟨found, named, rest⟩ := Outcome.bind_eq_ok.mp mapped
  cases found with
  | none => cases rest
  | some type =>
      dsimp only at rest
      split at rest
      · cases rest
      · next isEnabled given =>
          cases rest
          exact ⟨⟨⟨type.2, named⟩, given, rfl, rfl, rfl, rfl, rfl⟩, rfl, rfl⟩

theorem writesConfigs_of_foldlM {tables : ServiceTables σ} {service : RangerService}
    {validConfigs : Configs}
    (valid : ServiceDBStore.validateRequiredConfigParams tables service service.configs =
      .ok (some validConfigs))
    {stored : String → Option String → Except String (Option String)} {serviceId : Int}
    {start final : ServiceDBStore.Writing σ}
    (wrote : (entriesOf validConfigs).foldlM (ServiceDBStore.writeConfig stored serviceId) start =
      .ok final) :
    ∃ rows, WritesConfigs stored serviceId service rows start.configMaps final.configMaps := by
  obtain ⟨rows, stores, placed⟩ := stores_of_foldlM wrote
  cases given : service.configs with
  | none =>
      rw [given] at valid
      cases valid
  | some configs =>
      rw [given] at valid
      exact ⟨rows, ⟨configs, entriesOf validConfigs, given, perm_validConfigs valid, stores⟩,
        placed⟩

omit [Platform] in
/-- The configurations of a service behind what was written for one. -/
theorem rowsWhere_of_writesConfigs
    {stored : String → Option String → Except String (Option String)} {serviceId : Int}
    {service : RangerService} {rows : List XXServiceConfigMap}
    {before after : Table XXServiceConfigMap}
    (writes : WritesConfigs stored serviceId service rows before after) (other : Int) :
    after.rowsWhere (·.serviceId == other) =
      before.rowsWhere (·.serviceId == other) ++ if other = serviceId then rows else [] := by
  obtain ⟨_, entries, _, _, stores⟩ := writes.stores
  have own : ∀ row ∈ rows, row.serviceId = serviceId := by
    intro row member
    obtain ⟨config, _, stored⟩ := Scan.exists_of_mem stores member
    exact stored.serviceId
  rw [writes.placed, Table.rowsWhere_foldl_insert]
  refine congrArg (before.rowsWhere (·.serviceId == other) ++ ·) ?_
  split
  · next same => exact List.filter_eq_self.mpr fun row member => by simp [own row member, same]
  · next apart =>
      refine List.filter_eq_nil_iff.mpr fun row member => ?_
      simpa [own row member] using Ne.symm apart

variable [Ciphers]

/-- What an update that returns has done. -/
structure Updates (calling : Calling) (service : RangerService) (id : Int)
    (tables after : ServiceTables σ) (existing entity : XXService)
    (rows : List XXServiceConfigMap) : Prop where
  given : service.id = some id
  found : tables.services.get? id = some existing
  maps : MapsService tables calling service entity
  createTime : entity.createTime = (existing.createTime <|> some calling.utcDate)
  addedByUserId : entity.addedByUserId = (existing.addedByUserId <|> calling.currentUserId)
  writes : WritesConfigs
    (ServiceDBStore.updatedValue (ServiceDBStore.oldPassword (configMapsOf tables id))) id service
    rows (tables.configMaps.removeWhere (·.serviceId == id)) after.configMaps
  services : after.services = tables.services.replace id entity
  serviceDefs : after.serviceDefs = tables.serviceDefs

theorem updates_of_updateService {calling : Calling} {service updService : RangerService}
    {tables after : ServiceTables σ}
    (returned : ServiceDBStore.updateService calling service tables = .ok (updService, after)) :
    ∃ id existing entity rows, updService.id = some id ∧
      Updates calling service id tables after existing entity rows := by
  unfold ServiceDBStore.updateService at returned
  split at returned
  · cases returned
  · next id existing located =>
      obtain ⟨given, asked, located⟩ := Option.bind_eq_some_iff.mp located
      obtain ⟨row, found, same⟩ := Option.map_eq_some_iff.mp located
      obtain ⟨rfl, rfl⟩ := Prod.mk.inj same
      dsimp only at returned
      split at returned
      · cases returned
      · obtain ⟨validConfigs, valid, returned⟩ := Outcome.bind_eq_ok.mp returned
        cases validConfigs with
        | none => cases returned
        | some validConfigs =>
            obtain ⟨_, _, returned⟩ := Outcome.bind_eq_ok.mp returned
            obtain ⟨entity, mapped, returned⟩ := Outcome.bind_eq_ok.mp returned
            split at returned
            · cases returned
            · obtain ⟨writing, wrote, returned⟩ := Outcome.bind_eq_ok.mp returned
              obtain ⟨updated, viewed, returned⟩ := Outcome.bind_eq_ok.mp returned
              obtain ⟨others, _, returned⟩ := Outcome.bind_eq_ok.mp returned
              cases returned
              obtain ⟨rows, writes⟩ := writesConfigs_of_foldlM valid wrote
              obtain ⟨maps, createTime, addedByUserId⟩ :=
                mapsService_of_mapViewToEntityBean mapped
              exact ⟨given, row, entity, rows, (views_of_populateViewBean viewed).sameId, asked,
                found, ⟨maps.type, maps.isEnabled, maps.guid, maps.name, maps.policyVersion,
                  maps.policyUpdateTime, maps.description⟩,
                createTime, addedByUserId, ⟨writes.stores, writes.placed⟩, rfl, rfl⟩

omit [OtherTables σ] in
/-- Behind an update a service has the configurations that were written. -/
theorem configMapsOf_of_updates {calling : Calling} {service : RangerService} {id : Int}
    {tables after : ServiceTables σ} {existing entity : XXService} {rows : List XXServiceConfigMap}
    (updates : Updates calling service id tables after existing entity rows) (other : Int) :
    configMapsOf after other = if other = id then rows else configMapsOf tables other := by
  unfold configMapsOf
  rw [rowsWhere_of_writesConfigs updates.writes, Table.rowsWhere_removeWhere]
  split
  · next same =>
      subst same
      refine (congrArg (· ++ rows) (List.filter_eq_nil_iff.mpr fun row member => ?_)).trans
        (List.nil_append rows)
      obtain ⟨_, _, passes⟩ := Table.mem_rowsWhere.mp member
      rw [passes]
      decide
  · next apart =>
      rw [List.append_nil]
      refine List.filter_eq_self.mpr fun row member => ?_
      obtain ⟨_, _, passes⟩ := Table.mem_rowsWhere.mp member
      rw [eq_of_beq passes]
      simpa using apart

/-- What a creation that returns has done; the service is under the id. -/
structure Creates (calling : Calling) (service : RangerService) (id : Int)
    (tables after : ServiceTables σ) (entity : XXService) (rows : List XXServiceConfigMap) :
    Prop where
  fresh : id = tables.services.next
  maps : MapsService tables calling service entity
  writes : WritesConfigs ServiceDBStore.createdValue id service rows tables.configMaps
    after.configMaps
  services : ∃ policyVersion policyUpdateTime, after.services =
    (tables.services.insert entity).replace id
      { entity with policyVersion := policyVersion, policyUpdateTime := policyUpdateTime }
  serviceDefs : after.serviceDefs = tables.serviceDefs

theorem creates_of_createService {calling : Calling} {service createdService : RangerService}
    {tables after : ServiceTables σ}
    (returned : ServiceDBStore.createService calling service tables =
      .ok (createdService, after)) :
    ∃ id entity rows, createdService.id = some id ∧
      Creates calling service id tables after entity rows := by
  unfold ServiceDBStore.createService at returned
  split at returned
  · cases returned
  · obtain ⟨validConfigs, valid, returned⟩ := Outcome.bind_eq_ok.mp returned
    cases validConfigs with
    | none => cases returned
    | some validConfigs =>
        dsimp only at returned
        obtain ⟨entity, mapped, returned⟩ := Outcome.bind_eq_ok.mp returned
        split at returned
        · cases returned
        · obtain ⟨writing, wrote, returned⟩ := Outcome.bind_eq_ok.mp returned
          obtain ⟨created, viewed, returned⟩ := Outcome.bind_eq_ok.mp returned
          obtain ⟨others, _, returned⟩ := Outcome.bind_eq_ok.mp returned
          obtain ⟨policy, _, returned⟩ := Outcome.bind_eq_ok.mp returned
          cases returned
          obtain ⟨rows, writes⟩ := writesConfigs_of_foldlM valid wrote
          obtain ⟨maps, _, _⟩ := mapsService_of_mapViewToEntityBean mapped
          exact ⟨tables.services.next, entity, rows, (views_of_populateViewBean viewed).sameId, rfl,
            ⟨maps.type, maps.isEnabled, maps.guid, maps.name, maps.policyVersion,
              maps.policyUpdateTime, maps.description⟩,
            ⟨writes.stores, writes.placed⟩, ⟨policy.2.1, policy.2.2, rfl⟩, rfl⟩

end Written

end ServiceConfigs

end Ranger

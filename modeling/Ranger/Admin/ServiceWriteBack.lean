import Ranger.Admin.ServiceConfigs

/-! # Writing back a service as it was read

What is read of a service has all that is stored but the password and the flag: the mapper
leaves the flag as the constructor of the view sets it. A service that is written back as it was
read is enabled, and each of its passwords becomes the last one.
-/

namespace Ranger

open Foundation

namespace ServiceConfigs

/-- The keys and values of configurations. -/
def configEntries (rows : List XXServiceConfigMap) : List (String × Option String) :=
  rows.map fun row => (row.configKey, row.configValue)

/-- A service is as it was but for its version, its update time and its updater, and so are its
configurations and the other services. -/
structure Unchanged {σ : Type} (id : Int) (existing : XXService) (before after : ServiceTables σ) :
    Prop where
  service : ∃ entity, after.services.get? id = some entity ∧
    entity =
      { existing with
        version := entity.version
        updateTime := entity.updateTime
        updatedByUserId := entity.updatedByUserId }
  configs : (configEntries (configMapsOf after id)).Perm (configEntries (configMapsOf before id))
  elsewhere : ∀ other, other ≠ id → after.services.get? other = before.services.get? other ∧
    configMapsOf after other = configMapsOf before other

section Model

variable [Platform]

/-- A service that can be read and written back: it is enabled, its passwords are the same, and
nothing of it is missing that an update fills in. -/
structure Restorable (calling : Calling) (existing : XXService) (rows : List XXServiceConfigMap) :
    Prop where
  isEnabled : existing.isEnabled = true
  passwords : ∀ row ∈ rows, ∀ other ∈ rows, isPasswordKey row.configKey = true →
    isPasswordKey other.configKey = true → row.configValue = other.configValue
  guid : isEmptyValue existing.guid = true → existing.guid = some calling.guid
  createTime : existing.createTime.isSome = true
  addedByUserId : existing.addedByUserId.isSome = true ∨ calling.currentUserId = none

section Entity

omit [Platform]

theorem eq_withAudit_iff (entity existing : XXService) :
    entity =
        { existing with
          version := entity.version
          updateTime := entity.updateTime
          updatedByUserId := entity.updatedByUserId } ↔
      (entity.guid = existing.guid ∧ entity.createTime = existing.createTime ∧
        entity.addedByUserId = existing.addedByUserId ∧ entity.type = existing.type ∧
        entity.name = existing.name) ∧ entity.policyVersion = existing.policyVersion ∧
        entity.policyUpdateTime = existing.policyUpdateTime ∧
        entity.description = existing.description ∧ entity.isEnabled = existing.isEnabled := by
  cases entity
  simp [and_assoc]

theorem guid_eq_iff {guid : Option String} {generated : String} :
    (if isEmptyValue guid then some generated else guid) = guid ↔
      (isEmptyValue guid = true → guid = some generated) := by
  split
  · next empty => exact ⟨fun same _ => same.symm, fun same => (same empty).symm⟩
  · next given => exact iff_of_true rfl fun empty => absurd empty given

theorem filledIn_eq_iff {α : Type} {value other : Option α} :
    (value <|> other) = value ↔ value.isSome = true ∨ other = none := by
  cases value with
  | none => simp
  | some held => simp

/-- The type of a name that is used once is the one that has the name. -/
theorem type_of_findServiceDef {σ : Type} {tables : ServiceTables σ} {name : Option String}
    {found : Int × XXServiceDef} (unique : findServiceDef tables name = .ok (some found))
    {type : Int} {xServiceDef : XXServiceDef}
    (stored : tables.serviceDefs.get? type = some xServiceDef) (named : name = xServiceDef.name) :
    found.1 = type :=
  have listed := Table.get?_eq_some_iff.mp stored
  (congrArg Prod.fst ((entries_of_findServiceDef unique).2 _ listed named.symm)).symm

end Entity

section Configs

/-- What is stored for a configuration that was shown. -/
theorem updatedValue_shown [Ciphers] (oldPassword : Option String) {configKey : String}
    {configValue : Option String}
    (hidden : isPasswordKey configKey = true → isHidden configValue = true) :
    ServiceDBStore.updatedValue oldPassword configKey configValue =
      .ok (if isPasswordKey configKey then oldPassword else configValue) := by
  unfold ServiceDBStore.updatedValue
  split
  · next password => rw [if_pos (hidden password)]
  · rfl

/-- The password of rows is that of one of them. -/
theorem exists_oldPassword {rows : List XXServiceConfigMap}
    (password : ∃ row ∈ rows, isPasswordKey row.configKey = true) :
    ∃ row ∈ rows, isPasswordKey row.configKey = true ∧
      row.configValue = ServiceDBStore.oldPassword rows := by
  unfold ServiceDBStore.oldPassword
  induction rows using List.reverseRecOn with
  | nil =>
      obtain ⟨row, member, _⟩ := password
      cases member
  | append_singleton rows last ih =>
      rw [List.foldl_append, List.foldl_cons, List.foldl_nil]
      by_cases isPassword : isPasswordKey last.configKey = true
      · exact ⟨last, List.mem_append_right _ (List.mem_singleton_self last), isPassword,
          (if_pos isPassword).symm⟩
      · obtain ⟨row, member, held⟩ := password
        rcases List.mem_append.mp member with earlier | own
        · obtain ⟨other, there, isOther, value⟩ := ih ⟨row, earlier, held⟩
          exact ⟨other, List.mem_append_left _ there, isOther,
            value.trans (if_neg isPassword).symm⟩
        · rw [List.mem_singleton.mp own] at held
          exact absurd held isPassword

/-- Passwords are the same if each is that of the rows. -/
theorem passwords_iff {rows : List XXServiceConfigMap} :
    (∀ row ∈ rows, isPasswordKey row.configKey = true →
        row.configValue = ServiceDBStore.oldPassword rows) ↔
      ∀ row ∈ rows, ∀ other ∈ rows, isPasswordKey row.configKey = true →
        isPasswordKey other.configKey = true → row.configValue = other.configValue := by
  constructor
  · intro last row member other there password held
    exact (last row member password).trans (last other there held).symm
  · intro same row member password
    obtain ⟨other, there, held, value⟩ := exists_oldPassword ⟨row, member, password⟩
    exact (same row member other there password held).trans value

/-- The entries of a view. -/
def shownEntry (row : XXServiceConfigMap) : String × Option String :=
  (row.configKey,
    if isPasswordKey row.configKey then some HIDDEN_PASSWORD_STR else row.configValue)

theorem entries_shownConfigs {rows : List XXServiceConfigMap}
    (distinct : (rows.map (·.configKey)).Nodup) :
    (RangerServiceService.shownConfigs rows).entries = rows.map shownEntry := by
  have keys : ((rows.map shownEntry).map Prod.fst).Nodup := by
    rw [List.map_map]
    exact distinct
  exact AssocMap.entries_putAll_of_nodup ∅ keys

omit [Platform] in
/-- Rows whose values are known have these values. -/
theorem configEntries_of_stores
    {stored : String → Option String → Except String (Option String)} {serviceId : Int}
    {entries : List (String × Option String)} {rows : List XXServiceConfigMap}
    (stores : List.Forall₂ (Stores stored serviceId) entries rows)
    {value : String × Option String → Option String}
    (known : ∀ config ∈ entries, stored config.1 config.2 = .ok (value config)) :
    configEntries rows = entries.map fun config => (config.1, value config) := by
  induction stores with
  | nil => rfl
  | @cons config row rest rows store _ ih =>
      have same := store.configValue.symm.trans (known config List.mem_cons_self)
      have behind := ih fun other member => known other (List.mem_cons_of_mem _ member)
      unfold configEntries at behind ⊢
      rw [List.map_cons, List.map_cons, behind, store.configKey, Except.ok.inj same]

/-- The rows that are stored for the configurations of a view. -/
theorem perm_writtenBack [Ciphers] {serviceId : Int} {service : RangerService}
    {rows written : List XXServiceConfigMap} {before after : Table XXServiceConfigMap}
    (shown : service.configs = some (RangerServiceService.shownConfigs rows))
    (distinct : (rows.map (·.configKey)).Nodup)
    (nonBlank : ∀ row ∈ rows, isEmptyText row.configValue = false) {oldPassword : Option String}
    (writes : WritesConfigs (ServiceDBStore.updatedValue oldPassword) serviceId service written
      before after) :
    (configEntries written).Perm (rows.map fun row =>
      (row.configKey, if isPasswordKey row.configKey then oldPassword else row.configValue)) := by
  obtain ⟨configs, entries, given, perm, stores⟩ := writes.stores
  obtain rfl := Option.some.inj (shown.symm.trans given)
  have valued : ((rows.map shownEntry).filter fun config => !isEmptyText config.2) =
      rows.map shownEntry := by
    refine List.filter_eq_self.mpr fun config member => ?_
    obtain ⟨row, listed, rfl⟩ := List.mem_map.mp member
    unfold shownEntry
    split
    · rw [not_isEmptyText_hidden]
      rfl
    · rw [nonBlank row listed]
      rfl
  rw [entries_shownConfigs distinct, valued] at perm
  have known : ∀ config ∈ entries,
      ServiceDBStore.updatedValue oldPassword config.1 config.2 =
        .ok (if isPasswordKey config.1 then oldPassword else config.2) := by
    intro config member
    obtain ⟨row, listed, rfl⟩ := List.mem_map.mp (perm.mem_iff.mp member)
    refine updatedValue_shown oldPassword fun password => ?_
    unfold shownEntry at password ⊢
    rw [if_pos password]
    exact isHidden_hidden
  rw [configEntries_of_stores stores known]
  refine (perm.map _).trans (List.Perm.of_eq ?_)
  rw [List.map_map]
  refine List.map_congr_left fun row _ => ?_
  unfold shownEntry
  dsimp only [Function.comp_apply]
  split
  · rfl
  · rfl

/-- Passwords that are all replaced are the same ones if each was the new one. -/
theorem perm_restored_iff {rows : List XXServiceConfigMap}
    (distinct : (rows.map (·.configKey)).Nodup) (oldPassword : Option String) :
    (rows.map fun row =>
        (row.configKey, if isPasswordKey row.configKey then oldPassword else row.configValue)).Perm
      (configEntries rows) ↔
      ∀ row ∈ rows, isPasswordKey row.configKey = true → row.configValue = oldPassword := by
  constructor
  · intro perm row member password
    have listed := perm.mem_iff.mpr (List.mem_map_of_mem member)
    obtain ⟨other, there, same⟩ := List.mem_map.mp listed
    obtain rfl := List.inj_on_of_nodup_map distinct there member (congrArg Prod.fst same)
    have value := congrArg Prod.snd same
    dsimp only at value
    rw [if_pos password] at value
    exact value.symm
  · intro passwords
    refine List.Perm.of_eq (List.map_congr_left fun row member => ?_)
    split
    · next password => rw [passwords row member password]
    · rfl

end Configs

variable {σ : Type} [OtherTables σ] [Ciphers]

/-- A service is read, and written back as it was read. -/
def writeBack (calling : Calling) (id : Int) (tables : ServiceTables σ) :
    Except String (RangerService × ServiceTables σ) := do
  let service ← ServiceDBStore.getService tables id
  ServiceDBStore.updateService calling service tables

omit [OtherTables σ] in
/-- The row of a service that is written back is as it was exactly if the service is enabled and
nothing of it is missing. -/
theorem entity_eq_withAudit_iff {calling : Calling} {id : Int} {tables after : ServiceTables σ}
    {existing entity : XXService} {service : RangerService} {rows : List XXServiceConfigMap}
    (views : Views tables id existing service)
    (updates : Updates calling service id tables after existing entity rows) :
    entity =
        { existing with
          version := entity.version
          updateTime := entity.updateTime
          updatedByUserId := entity.updatedByUserId } ↔
      (isEmptyValue existing.guid = true → existing.guid = some calling.guid) ∧
        existing.createTime.isSome = true ∧
        (existing.addedByUserId.isSome = true ∨ calling.currentUserId = none) ∧
        existing.isEnabled = true := by
  have type : entity.type = existing.type := by
    rcases updates.maps.type with ⟨xServiceDef, unique⟩
    rcases views.type with ⟨storedDef, there, named⟩
    exact type_of_findServiceDef unique there named
  have enabled : entity.isEnabled = true :=
    Option.some.inj (updates.maps.isEnabled.symm.trans views.isEnabled)
  rw [eq_withAudit_iff, updates.maps.guid, views.guid, guid_eq_iff, updates.createTime,
    filledIn_eq_iff, updates.addedByUserId, filledIn_eq_iff, enabled]
  have name := updates.maps.name.trans views.name
  have policyVersion := updates.maps.policyVersion.trans views.policyVersion
  have policyUpdateTime := updates.maps.policyUpdateTime.trans views.policyUpdateTime
  have description := updates.maps.description.trans views.description
  constructor
  · rintro ⟨⟨guid, createTime, addedByUserId, _, _⟩, _, _, _, isEnabled⟩
    exact ⟨guid, createTime.resolve_right (Option.some_ne_none _), addedByUserId,
      isEnabled.symm⟩
  · rintro ⟨guid, createTime, addedByUserId, isEnabled⟩
    exact ⟨⟨guid, .inl createTime, addedByUserId, type, name⟩, policyVersion,
      policyUpdateTime, description, isEnabled.symm⟩

/-- A service that is written back is as it was exactly if it is enabled, its passwords are
the same and nothing of it is missing. -/
theorem writeBack_unchanged_iff {calling : Calling} {id : Int} {tables after : ServiceTables σ}
    {existing : XXService} {updService : RangerService}
    (stored : tables.services.get? id = some existing)
    (distinct : ((configMapsOf tables id).map (·.configKey)).Nodup)
    (nonBlank : ∀ row ∈ configMapsOf tables id, isEmptyText row.configValue = false)
    (returned : writeBack calling id tables = .ok (updService, after)) :
    Unchanged id existing tables after ↔
      Restorable calling existing (configMapsOf tables id) := by
  obtain ⟨service, read, wrote⟩ := Outcome.bind_eq_ok.mp returned
  unfold ServiceDBStore.getService at read
  rw [stored] at read
  have views := views_of_populateViewBean read
  obtain ⟨other, found, entity, rows, _, updates⟩ := updates_of_updateService wrote
  obtain rfl : id = other := Option.some.inj (views.sameId.symm.trans updates.given)
  obtain rfl : existing = found := Option.some.inj (stored.symm.trans updates.found)
  -- the row of the service
  have placed : after.services.get? id = some entity := by
    rw [updates.services, Table.get?_replace_self (Table.mem_ids_of_get? stored)]
  have row := entity_eq_withAudit_iff views updates
  -- the configurations
  have seen := configMapsOf_of_updates updates
  have own : configMapsOf after id = rows := (seen id).trans (if_pos rfl)
  have configs := perm_writtenBack views.configs distinct nonBlank updates.writes
  have kept :=
    (perm_restored_iff distinct (ServiceDBStore.oldPassword (configMapsOf tables id))).trans
      passwords_iff
  constructor
  · intro unchanged
    obtain ⟨other, there, same⟩ := unchanged.service
    obtain rfl : entity = other := Option.some.inj (placed.symm.trans there)
    have ⟨guid, createTime, addedByUserId, isEnabled⟩ := row.mp same
    refine ⟨isEnabled, kept.mp (configs.symm.trans ?_), guid, createTime, addedByUserId⟩
    rw [← own]
    exact unchanged.configs
  · intro restorable
    have same := row.mpr ⟨restorable.guid, restorable.createTime, restorable.addedByUserId,
      restorable.isEnabled⟩
    refine ⟨⟨entity, placed, same⟩, ?_, fun other apart => ⟨?_, ?_⟩⟩
    · rw [own]
      exact configs.trans (kept.mpr restorable.passwords)
    · rw [updates.services, Table.get?_replace_of_ne apart]
    · exact (seen other).trans (if_neg apart)

end Model

section Slip

attribute [local instance] Platform.ascii Ciphers.plain OtherTables.unit

def adminCalling : Calling where
  isUserAdmin := true
  currentUserId := some 1
  utcDate := 9
  guid := "g2"

/-- A service with a password. -/
def hdfsService (isEnabled : Bool) : XXService where
  guid := some "g1"
  createTime := some 3
  updateTime := some 4
  addedByUserId := some 1
  updatedByUserId := some 1
  version := some 1
  type := 1
  name := some "dev_hdfs"
  policyVersion := some 5
  policyUpdateTime := some 4
  description := none
  isEnabled := isEnabled

def hdfsTables (isEnabled : Bool) : ServiceTables Unit where
  serviceDefs := Table.empty.insert ⟨some "hdfs", [⟨"username", true⟩]⟩
  services := Table.empty.insert (hdfsService isEnabled)
  configMaps := (Table.empty.insert ⟨1, "username", some "hdfs"⟩).insert ⟨1, "password", some "x"⟩
  others := ()

theorem writesBack_enabled : ∃ updService after,
    writeBack adminCalling 1 (hdfsTables true) = .ok (updService, after) ∧
      Unchanged 1 (hdfsService true) (hdfsTables true) after := by
  have ok : (writeBack adminCalling 1 (hdfsTables true)).isOk = true := by decide +kernel
  cases returned : writeBack adminCalling 1 (hdfsTables true) with
  | error message =>
      rw [returned] at ok
      cases ok
  | ok result =>
      have restorable : Restorable adminCalling (hdfsService true)
          (configMapsOf (hdfsTables true) 1) :=
        ⟨rfl, by decide +kernel, by decide +kernel, rfl, .inl rfl⟩
      exact ⟨result.1, result.2, rfl, (writeBack_unchanged_iff (by decide +kernel)
        (by decide +kernel) (by decide +kernel) returned).mpr restorable⟩

/-- A service that is disabled is written back enabled. -/
theorem writesBack_disabled : ∃ updService after,
    writeBack adminCalling 1 (hdfsTables false) = .ok (updService, after) ∧
      ¬Unchanged 1 (hdfsService false) (hdfsTables false) after := by
  have flag : (writeBack adminCalling 1 (hdfsTables false)).map
      (fun result => (result.2.services.get? 1).map (·.isEnabled)) = .ok (some true) := by
    decide +kernel
  cases returned : writeBack adminCalling 1 (hdfsTables false) with
  | error message =>
      rw [returned] at flag
      cases flag
  | ok result =>
      rw [returned] at flag
      refine ⟨result.1, result.2, rfl, fun unchanged => ?_⟩
      obtain ⟨entity, stored, same⟩ := unchanged.service
      have enabled : (result.2.services.get? 1).map (·.isEnabled) = some true :=
        Except.ok.inj flag
      have disabled : entity.isEnabled = false := congrArg XXService.isEnabled same
      rw [stored, Option.map_some, disabled] at enabled
      cases enabled

end Slip

end ServiceConfigs

end Ranger

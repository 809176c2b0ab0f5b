import Ranger.Admin.ServiceConfigs

/-! # The password of a service

A service is created and updated with maps that have one password key. The rows of that key hold
the last password that was given, encrypted, through any number of updates that have the
placeholder. It is read back if the key has no capitals; a password that is blank is not stored.
-/

namespace Ranger

open Foundation

namespace ServiceConfigs

/-- A call that stores a service. -/
inductive ServiceCall where
  | createService (calling : Calling) (service : RangerService)
  | updateService (calling : Calling) (service : RangerService)

namespace ServiceCall

/-- The service as the call has it. -/
def service : ServiceCall → RangerService
  | createService _ service => service
  | updateService _ service => service

/-- The password that a call has under a key. -/
def password (key : String) (call : ServiceCall) : Option String :=
  (call.service.configs.bind (·.get? key)).join

/-- The key is the password key of the call. -/
def HasPasswordKey [Platform] (key : String) (call : ServiceCall) : Prop :=
  ∃ configs, call.service.configs = some configs ∧ key ∈ configs.keys ∧
    ∀ other ∈ configs.keys, isPasswordKey other = true → other = key

section Run

variable [Platform] {σ : Type} [OtherTables σ] [Ciphers]

def perform : ServiceCall → ServiceTables σ → Except String (RangerService × ServiceTables σ)
  | createService calling service => ServiceDBStore.createService calling service
  | updateService calling service => ServiceDBStore.updateService calling service

/-- Calls on one service that each return. -/
def performAll (id : Int) : List ServiceCall → ServiceTables σ → Except String (ServiceTables σ)
  | [], tables => .ok tables
  | call :: rest, tables => do
      let (service, tables) ← call.perform tables
      if service.id = some id then performAll id rest tables else .error "another service"

end Run

/-- The last password of the calls that is not the placeholder. -/
def lastGiven (key : String) (calls : List ServiceCall) : Option (Option String) :=
  (calls.map (password key)).reverse.find? (· != some HIDDEN_PASSWORD_STR)

end ServiceCall

section Rows

variable [Platform]

/-- The rows of the password. -/
def passwordRows (rows : List XXServiceConfigMap) : List XXServiceConfigMap :=
  rows.filter fun row => isPasswordKey row.configKey

theorem isHidden_iff {configValue : Option String} :
    isHidden configValue = true ↔ configValue = some HIDDEN_PASSWORD_STR := by
  have stars : HIDDEN_PASSWORD_STR.toList = List.replicate 5 '*' := rfl
  cases configValue with
  | none => exact iff_of_false Bool.false_ne_true (by rintro ⟨⟩)
  | some text =>
      refine equalsIgnoreCase_iff.trans ?_
      constructor
      · intro folded
        rw [stars, List.map_replicate] at folded
        obtain ⟨length, all⟩ := List.eq_replicate_iff.mp folded
        rw [List.length_map] at length
        have same : text.toList = List.replicate 5 '*' := List.eq_replicate_iff.mpr
          ⟨length, fun char member =>
            Platform.eq_asterisk char (all _ (List.mem_map_of_mem member))⟩
        exact congrArg some (String.toList_injective (same.trans stars.symm))
      · intro same
        rw [Option.some.inj same]

theorem oldPassword_passwordRows (rows : List XXServiceConfigMap) :
    ServiceDBStore.oldPassword (passwordRows rows) = ServiceDBStore.oldPassword rows := by
  unfold ServiceDBStore.oldPassword passwordRows
  rw [List.foldl_filter]
  refine congrFun (congrFun (congrArg List.foldl (funext fun held => funext fun row => ?_)) _) _
  split
  · rfl
  · rfl

omit [Platform] in
/-- The entries of a map whose keys pass a test that one key passes. -/
theorem filter_entries_of_unique {configs : Configs} {key : String} {value : Option String}
    (found : configs.get? key = some value) {test : String → Bool} (passes : test key = true)
    (only : ∀ other ∈ configs.keys, test other = true → other = key) :
    configs.entries.filter (fun config => test config.1) = [(key, value)] := by
  have listed := AssocMap.mem_of_get?_eq_some found
  refine List.perm_singleton.mp ?_
  refine ((List.perm_cons_erase listed).filter _).trans ?_
  rw [List.filter_cons_of_pos (p := fun config : String × Option String => test config.1) passes]
  refine List.Perm.of_eq (congrArg _ (List.filter_eq_nil_iff.mpr fun config member same => ?_))
  have there := List.mem_of_mem_erase member
  have sameKey := only config.1 (List.mem_map_of_mem there) same
  have entry := List.inj_on_of_nodup_map configs.nodup there listed sameKey
  rw [entry] at member
  exact (configs.nodup.of_map _).not_mem_erase member

/-- The password rows of what was written: one row, if the password is not blank. -/
theorem passwordRows_of_writesConfigs
    {stored : String → Option String → Except String (Option String)} {serviceId : Int}
    {call : ServiceCall} {rows : List XXServiceConfigMap}
    {before after : Table XXServiceConfigMap} {key : String}
    (isKey : isPasswordKey key = true) (has : call.HasPasswordKey key)
    (writes : WritesConfigs stored serviceId call.service rows before after) :
    if isEmptyText (call.password key) then passwordRows rows = []
    else ∃ value, stored key (call.password key) = .ok value ∧
      passwordRows rows = [⟨serviceId, key, value⟩] := by
  obtain ⟨configs, entries, given, perm, stores⟩ := writes.stores
  obtain ⟨mine, given', there, only⟩ := has
  obtain rfl := Option.some.inj (given.symm.trans given')
  obtain ⟨value, found⟩ := Option.isSome_iff_exists.mp (AssocMap.isSome_get?_iff.mpr there)
  have password : call.password key = value := by
    unfold ServiceCall.password
    rw [given, Option.bind_some, found]
    rfl
  have same := perm.filter fun config => isPasswordKey config.1
  rw [List.filter_comm, filter_entries_of_unique found isKey only] at same
  have kept : List.Forall₂ (Stores stored serviceId)
      (entries.filter fun config => isPasswordKey config.1) (passwordRows rows) := by
    refine List.rel_filter ?_ stores
    intro config row store
    change isPasswordKey config.1 = true ↔ isPasswordKey row.configKey = true
    rw [store.configKey]
  rw [password]
  by_cases blank : isEmptyText value = true
  · rw [List.filter_cons_of_neg (by simpa using blank), List.filter_nil] at same
    rw [List.Perm.eq_nil same] at kept
    rw [if_pos blank]
    exact List.forall₂_nil_left_iff.mp kept
  · rw [List.filter_cons_of_pos (by simpa using blank), List.filter_nil] at same
    rw [List.perm_singleton.mp same] at kept
    rw [if_neg blank]
    obtain ⟨row, _, store, behind, listed⟩ := List.forall₂_cons_left_iff.mp kept
    obtain rfl := List.forall₂_nil_left_iff.mp behind
    have exactly : row = ⟨serviceId, key, row.configValue⟩ := by
      have own := store.serviceId
      have named := store.configKey
      cases row
      cases own
      cases named
      rfl
    exact ⟨row.configValue, store.configValue, by rw [listed, ← exactly]⟩

/-- A password key is shown with the placeholder if there is a row of it. -/
theorem get?_shownConfigs (rows : List XXServiceConfigMap) {key : String}
    (isKey : isPasswordKey key = true) :
    (RangerServiceService.shownConfigs rows).get? key =
      if ∃ row ∈ passwordRows rows, row.configKey = key then some (some HIDDEN_PASSWORD_STR)
      else none := by
  unfold RangerServiceService.shownConfigs
  rcases AssocMap.get?_putAll_cases ∅ (rows.map fun row => (row.configKey,
      if isPasswordKey row.configKey then some HIDDEN_PASSWORD_STR else row.configValue)) key with
    ⟨value, written, read⟩ | ⟨absent, read⟩
  · rcases List.mem_map.mp written with ⟨row, listed, same⟩
    have named : row.configKey = key := congrArg Prod.fst same
    have isRow : isPasswordKey row.configKey = true := named ▸ isKey
    have hidden : some HIDDEN_PASSWORD_STR = value :=
      (if_pos isRow).symm.trans (congrArg Prod.snd same)
    rw [read, ← hidden, if_pos ⟨row, List.mem_filter.mpr ⟨listed, isRow⟩, named⟩]
  · rw [read, if_neg]
    · rfl
    · intro password
      rcases password with ⟨row, member, named⟩
      have listed := List.mem_map_of_mem (f := fun row : XXServiceConfigMap => (row.configKey,
        if isPasswordKey row.configKey then some HIDDEN_PASSWORD_STR else row.configValue))
        (List.mem_of_mem_filter member)
      exact absent _ (named ▸ listed)

end Rows

section Steps

variable [Platform] [Ciphers]

/-- The password rows when the last password that was given is this one, and the placeholder
was given behind it or not. -/
inductive Holds (id : Int) (key : String) :
    Option String → Bool → List XXServiceConfigMap → Prop where
  | encrypted {text encrypted : String} {again : Bool}
      (given : isEmptyText (some text) = false)
      (made : PasswordUtils.encryptPassword (some text) = .ok encrypted)
      (back : PasswordUtils.decryptPassword (some encrypted) = .ok (some text)) :
      Holds id key (some text) again [⟨id, key, some encrypted⟩]
  | dropped {given : Option String} (blank : isEmptyText given = true) :
      Holds id key given false []
  | missing {given : Option String} (blank : isEmptyText given = true) :
      Holds id key given true [⟨id, key, none⟩]

omit [Platform] in
/-- A password that is not blank is stored encrypted. -/
theorem holds_of_encrypted (trips : Ciphers.RoundTrips) {id : Int} {key : String}
    {given value : Option String}
    (charset : ∀ text, given = some text → Ciphers.newString (Ciphers.getBytes text) = text)
    (valued : isEmptyText given = false)
    (stored : ServiceDBStore.encrypted given = .ok value) :
    Holds id key given false [⟨id, key, value⟩] := by
  cases given with
  | none => cases valued
  | some text =>
      rcases PasswordUtils.decryptPassword_encryptPassword trips (charset text rfl) with
        ⟨encrypted, made, back⟩
      rcases Outcome.bind_eq_ok.mp stored with ⟨first, wrote, stored⟩
      obtain rfl : encrypted = first := Except.ok.inj (made.symm.trans wrote)
      rcases Outcome.bind_eq_ok.mp stored with ⟨second, read, stored⟩
      obtain rfl : some text = second := Except.ok.inj (back.symm.trans read)
      rw [if_pos rfl] at stored
      obtain rfl : some encrypted = value := Except.ok.inj stored
      exact .encrypted valued made back

variable {σ : Type}

/-- The configurations are those of services. -/
def References (tables : ServiceTables σ) : Prop :=
  ∀ serviceId, serviceId ∉ tables.services.ids → configMapsOf tables serviceId = []

/-- The service is there, and its type. -/
def Readable (id : Int) (tables : ServiceTables σ) : Prop :=
  ∃ xService xServiceDef, tables.services.get? id = some xService ∧
    tables.serviceDefs.get? xService.type = some xServiceDef

/-- What a call that stores the service of an id has done to its configurations: a password
that was given is encrypted, and the placeholder stands for the password of a service that is
there. -/
structure Performs (call : ServiceCall) (id : Int) (tables after : ServiceTables σ) : Prop where
  readable : Readable id after
  references : References after
  writes : ∃ stored before,
    WritesConfigs stored id call.service (configMapsOf after id) before after.configMaps ∧
    (∀ key value, isPasswordKey key = true → isHidden value = false →
      stored key value = ServiceDBStore.encrypted value) ∧
    (id ∈ tables.services.ids → ∀ key, isPasswordKey key = true →
      stored key (some HIDDEN_PASSWORD_STR) =
        .ok (ServiceDBStore.oldPassword (configMapsOf tables id)))

theorem performs_of_updates {calling : Calling} {service : RangerService} {id : Int}
    {tables after : ServiceTables σ} {existing entity : XXService}
    {rows : List XXServiceConfigMap} (references : References tables)
    (updates : Updates calling service id tables after existing entity rows) :
    Performs (.updateService calling service) id tables after := by
  have seen := configMapsOf_of_updates updates
  have present : id ∈ tables.services.ids := Table.mem_ids_of_get? updates.found
  have own : configMapsOf after id = rows := (seen id).trans (if_pos rfl)
  refine ⟨?_, fun other unused => ?_, _, _, own ▸ updates.writes, ?_, fun _ key isKey => ?_⟩
  · rcases updates.maps.type with ⟨xServiceDef, unique⟩
    refine ⟨entity, xServiceDef, ?_, ?_⟩
    · rw [updates.services, Table.get?_replace_self present]
    · rw [updates.serviceDefs]
      exact (entries_of_findServiceDef unique).1
  · rw [updates.services, Table.ids_replace] at unused
    have apart : other ≠ id := fun same => unused (same ▸ present)
    rw [seen, if_neg apart, references other unused]
  · intro key value isKey given
    unfold ServiceDBStore.updatedValue
    rw [if_pos isKey, given]
    rfl
  · unfold ServiceDBStore.updatedValue
    rw [if_pos isKey, if_pos isHidden_hidden]

theorem performs_of_creates {calling : Calling} {service : RangerService} {id : Int}
    {tables after : ServiceTables σ} {entity : XXService} {rows : List XXServiceConfigMap}
    (references : References tables)
    (creates : Creates calling service id tables after entity rows) :
    Performs (.createService calling service) id tables after := by
  have fresh : id ∉ tables.services.ids := creates.fresh ▸ tables.services.next_not_mem
  have seen : ∀ other, configMapsOf after other =
      configMapsOf tables other ++ if other = id then rows else [] :=
    rowsWhere_of_writesConfigs creates.writes
  have own : configMapsOf after id = rows := by
    rw [seen, references id fresh, if_pos rfl, List.nil_append]
  rcases creates.services with ⟨policyVersion, policyUpdateTime, services⟩
  have ids : after.services.ids = tables.services.ids ++ [id] := by
    rw [services, Table.ids_replace, Table.ids_insert, creates.fresh]
  refine ⟨?_, fun other unused => ?_, _, _, own ▸ creates.writes, ?_,
    fun present => absurd present fresh⟩
  · rcases creates.maps.type with ⟨xServiceDef, unique⟩
    refine ⟨{ entity with policyVersion := policyVersion, policyUpdateTime := policyUpdateTime },
      xServiceDef, ?_, ?_⟩
    · have inserted : id ∈ (tables.services.insert entity).ids := by
        rw [Table.ids_insert, creates.fresh]
        exact List.mem_append_right _ (List.mem_singleton_self _)
      rw [services, Table.get?_replace_self inserted]
    · rw [creates.serviceDefs]
      exact (entries_of_findServiceDef unique).1
  · rw [ids, List.mem_append, List.mem_singleton, not_or] at unused
    rw [seen, if_neg unused.2, references other unused.1, List.append_nil]
  · intro key value isKey _
    exact if_pos isKey

section Perform

variable [OtherTables σ]

theorem performs_of_perform {call : ServiceCall} {id : Int} {tables after : ServiceTables σ}
    {service : RangerService} (references : References tables)
    (returned : call.perform tables = .ok (service, after)) (stores : service.id = some id) :
    Performs call id tables after := by
  cases call with
  | createService calling given =>
      rcases creates_of_createService returned with ⟨other, entity, rows, same, creates⟩
      obtain rfl := Option.some.inj (stores.symm.trans same)
      exact performs_of_creates references creates
  | updateService calling given =>
      rcases updates_of_updateService returned with ⟨other, existing, entity, rows, same, updates⟩
      obtain rfl := Option.some.inj (stores.symm.trans same)
      exact performs_of_updates references updates

end Perform

/-- A call with a password: it is stored encrypted, or not if it is blank. -/
theorem holds_of_given (trips : Ciphers.RoundTrips) {call : ServiceCall} {id : Int} {key : String}
    {given : Option String} {tables after : ServiceTables σ} (isKey : isPasswordKey key = true)
    (has : call.HasPasswordKey key) (performs : Performs call id tables after)
    (password : call.password key = given) (apart : given ≠ some HIDDEN_PASSWORD_STR)
    (charset : ∀ text, given = some text → Ciphers.newString (Ciphers.getBytes text) = text) :
    Holds id key given false (passwordRows (configMapsOf after id)) := by
  rcases performs.writes with ⟨stored, before, writes, encrypts, _⟩
  have rows := passwordRows_of_writesConfigs isKey has writes
  rw [password] at rows
  by_cases blank : isEmptyText given = true
  · rw [if_pos blank] at rows
    rw [rows]
    exact .dropped blank
  · rw [if_neg blank] at rows
    rcases rows with ⟨value, made, rows⟩
    have seen : isHidden given = false := Bool.eq_false_iff.mpr fun same =>
      apart (isHidden_iff.mp same)
    rw [encrypts key given isKey seen] at made
    rw [rows]
    exact holds_of_encrypted trips charset (Bool.eq_false_iff.mpr blank) made

/-- A call with the placeholder: the password stays, and a missing one is stored as such. -/
theorem holds_of_hidden {call : ServiceCall} {id : Int} {key : String} {given : Option String}
    {again : Bool} {tables after : ServiceTables σ} (isKey : isPasswordKey key = true)
    (has : call.HasPasswordKey key) (performs : Performs call id tables after)
    (present : id ∈ tables.services.ids)
    (password : call.password key = some HIDDEN_PASSWORD_STR)
    (holds : Holds id key given again (passwordRows (configMapsOf tables id))) :
    Holds id key given true (passwordRows (configMapsOf after id)) := by
  rcases performs.writes with ⟨stored, before, writes, _, keeps⟩
  have rows := passwordRows_of_writesConfigs isKey has writes
  rw [password, not_isEmptyText_hidden, if_neg Bool.false_ne_true] at rows
  rcases rows with ⟨value, kept, rows⟩
  rw [keeps present key isKey, ← oldPassword_passwordRows] at kept
  generalize passwordRows (configMapsOf tables id) = old at kept holds
  obtain rfl := Except.ok.inj kept
  rw [rows]
  have last : ∀ value, ServiceDBStore.oldPassword [⟨id, key, value⟩] = value :=
    fun _ => if_pos isKey
  cases holds with
  | encrypted valued made back =>
      rw [last]
      exact .encrypted valued made back
  | dropped blank => exact .missing blank
  | missing blank =>
      rw [last]
      exact .missing blank

section Run

variable [OtherTables σ]

/-- The tables behind calls on a service, when this password was the last that was given. -/
structure Keeps (id : Int) (key : String) (given : Option String) (again : Bool)
    (tables : ServiceTables σ) : Prop where
  readable : Readable id tables
  references : References tables
  holds : Holds id key given again (passwordRows (configMapsOf tables id))

omit [Platform] [Ciphers] [OtherTables σ] in
theorem mem_ids_of_readable {id : Int} {tables : ServiceTables σ} (readable : Readable id tables) :
    id ∈ tables.services.ids := by
  rcases readable with ⟨_, _, found, _⟩
  exact Table.mem_ids_of_get? found

theorem performAll_cons {id : Int} {call : ServiceCall} {rest : List ServiceCall}
    {tables final : ServiceTables σ}
    (performed : ServiceCall.performAll id (call :: rest) tables = .ok final) :
    ∃ service after, call.perform tables = .ok (service, after) ∧ service.id = some id ∧
      ServiceCall.performAll id rest after = .ok final := by
  rcases Outcome.bind_eq_ok.mp performed with ⟨⟨service, after⟩, returned, behind⟩
  dsimp only at behind
  split at behind
  · next same => exact ⟨service, after, returned, same, behind⟩
  · cases behind

theorem performAll_append {id : Int} {before behind : List ServiceCall}
    {tables final : ServiceTables σ}
    (performed : ServiceCall.performAll id (before ++ behind) tables = .ok final) :
    ∃ middle, ServiceCall.performAll id before tables = .ok middle ∧
      ServiceCall.performAll id behind middle = .ok final := by
  induction before generalizing tables with
  | nil => exact ⟨tables, rfl, performed⟩
  | cons call rest ih =>
      rcases performAll_cons performed with ⟨service, after, returned, same, performed⟩
      rcases ih performed with ⟨middle, first, second⟩
      refine ⟨middle, ?_, second⟩
      refine Outcome.bind_eq_ok.mpr ⟨(service, after), returned, ?_⟩
      exact (if_pos same).trans first

theorem references_of_performAll {id : Int} {calls : List ServiceCall}
    {tables final : ServiceTables σ} (references : References tables)
    (performed : ServiceCall.performAll id calls tables = .ok final) : References final := by
  induction calls generalizing tables with
  | nil =>
      obtain rfl := Except.ok.inj performed
      exact references
  | cons call rest ih =>
      rcases performAll_cons performed with ⟨service, after, returned, same, performed⟩
      exact ih (performs_of_perform references returned same).references performed

/-- Placeholders behind a password keep it. -/
theorem keeps_of_performAll {id : Int} {key : String} {given : Option String} {again : Bool}
    {calls : List ServiceCall} {tables final : ServiceTables σ} (isKey : isPasswordKey key = true)
    (only : ∀ call ∈ calls, call.HasPasswordKey key)
    (hidden : ∀ call ∈ calls, call.password key = some HIDDEN_PASSWORD_STR)
    (keeps : Keeps id key given again tables)
    (performed : ServiceCall.performAll id calls tables = .ok final) :
    Keeps id key given (again || !calls.isEmpty) final := by
  induction calls generalizing again tables with
  | nil =>
      obtain rfl := Except.ok.inj performed
      rw [List.isEmpty_nil, Bool.not_true, Bool.or_false]
      exact keeps
  | cons call rest ih =>
      rcases performAll_cons performed with ⟨service, after, returned, same, performed⟩
      have performs := performs_of_perform keeps.references returned same
      have holds := holds_of_hidden isKey (only call List.mem_cons_self) performs
        (mem_ids_of_readable keeps.readable) (hidden call List.mem_cons_self) keeps.holds
      have behind := ih (fun other member => only other (List.mem_cons_of_mem _ member))
        (fun other member => hidden other (List.mem_cons_of_mem _ member))
        ⟨performs.readable, performs.references, holds⟩ performed
      rw [List.isEmpty_cons, Bool.not_false, Bool.or_true]
      rwa [Bool.true_or] at behind

end Run

section Reading

/-- The value of a key in the configurations of a service as it is read back. -/
def readPassword (id : Int) (key : String) (tables : ServiceTables σ) :
    Except String (Option String) := do
  let service ← ServiceDBStore.getService tables id
  let configs ← RangerServiceService.getConfigsWithDecryptedPassword tables service
  return (configs.get? key).join

omit [Ciphers] in
theorem getService_of_readable {id : Int} {tables : ServiceTables σ}
    (readable : Readable id tables) :
    ∃ service, ServiceDBStore.getService tables id = .ok service ∧
      service.id = some id ∧
      service.configs = some (RangerServiceService.shownConfigs (configMapsOf tables id)) := by
  rcases readable with ⟨xService, xServiceDef, found, typed⟩
  unfold ServiceDBStore.getService RangerServiceService.populateViewBean
  rw [found]
  dsimp only
  rw [typed]
  exact ⟨_, rfl, rfl, rfl⟩

omit [Ciphers] in
/-- The query for the password sees only password rows. -/
theorem filter_passwordRows (rows : List XXServiceConfigMap) :
    rows.filter (·.configKey == CONFIG_KEY_PASSWORD) =
      (passwordRows rows).filter (·.configKey == CONFIG_KEY_PASSWORD) := by
  unfold passwordRows
  rw [List.filter_filter]
  refine List.filter_congr fun row _ => ?_
  by_cases same : row.configKey = CONFIG_KEY_PASSWORD
  · rw [same, isPasswordKey_password, Bool.and_true]
  · rw [beq_false_of_ne same, Bool.false_and]

variable {id : Int} {tables : ServiceTables σ} {service : RangerService}

/-- Without a row of the key the configurations are returned as they are shown. -/
theorem getConfigs_of_absent
    (shown : service.configs = some (RangerServiceService.shownConfigs (configMapsOf tables id)))
    (absent : (passwordRows (configMapsOf tables id)).filter
      (·.configKey == CONFIG_KEY_PASSWORD) = []) :
    RangerServiceService.getConfigsWithDecryptedPassword tables service =
      .ok (RangerServiceService.shownConfigs (configMapsOf tables id)) := by
  have missing : (RangerServiceService.shownConfigs (configMapsOf tables id)).get?
      CONFIG_KEY_PASSWORD = none := by
    rw [get?_shownConfigs _ isPasswordKey_password, if_neg]
    intro listed
    rcases listed with ⟨row, member, named⟩
    exact List.filter_eq_nil_iff.mp absent row member (beq_iff_eq.mpr named)
  unfold RangerServiceService.getConfigsWithDecryptedPassword
  rw [shown]
  dsimp only
  rw [missing]
  rfl

/-- A row whose key has a capital is not looked up. -/
theorem getConfigs_of_capital {key : String} {value : Option String}
    (shown : service.configs = some (RangerServiceService.shownConfigs (configMapsOf tables id)))
    (listed : passwordRows (configMapsOf tables id) = [⟨id, key, value⟩])
    (capital : key ≠ CONFIG_KEY_PASSWORD) :
    RangerServiceService.getConfigsWithDecryptedPassword tables service =
      .ok (RangerServiceService.shownConfigs (configMapsOf tables id)) := by
  refine getConfigs_of_absent shown ?_
  rw [listed]
  exact List.filter_cons_of_neg fun same => capital (eq_of_beq same)

/-- The one row of the key is decrypted. -/
theorem getConfigs_of_row {value : Option String} (sameId : service.id = some id)
    (shown : service.configs = some (RangerServiceService.shownConfigs (configMapsOf tables id)))
    (listed : passwordRows (configMapsOf tables id) = [⟨id, CONFIG_KEY_PASSWORD, value⟩]) :
    RangerServiceService.getConfigsWithDecryptedPassword tables service = (do
      let decryptedPwd ← PasswordUtils.decryptPassword value
      let again ← PasswordUtils.encryptPassword decryptedPwd
      if sameIgnoringCase (some again) value then
        return (RangerServiceService.shownConfigs (configMapsOf tables id)).put
          CONFIG_KEY_PASSWORD decryptedPwd
      else return RangerServiceService.shownConfigs (configMapsOf tables id)) := by
  have hidden : (RangerServiceService.shownConfigs (configMapsOf tables id)).get?
      CONFIG_KEY_PASSWORD = some (some HIDDEN_PASSWORD_STR) := by
    rw [get?_shownConfigs _ isPasswordKey_password, listed, if_pos]
    exact ⟨_, List.mem_singleton_self _, rfl⟩
  have only : (configMapsOf tables id).filter (·.configKey == CONFIG_KEY_PASSWORD) =
      [⟨id, CONFIG_KEY_PASSWORD, value⟩] := by
    rw [filter_passwordRows, listed]
    exact List.filter_cons_of_pos (beq_self_eq_true CONFIG_KEY_PASSWORD)
  unfold RangerServiceService.getConfigsWithDecryptedPassword
  rw [shown]
  dsimp only
  rw [hidden, sameId, Option.join_some, not_isEmptyText_hidden, isHidden_hidden]
  dsimp only
  rw [only]
  rfl

theorem readPassword_iff {key : String} {given : Option String} {configs : Configs}
    (read : ServiceDBStore.getService tables id = .ok service)
    (returned : RangerServiceService.getConfigsWithDecryptedPassword tables service =
      .ok configs) :
    readPassword id key tables = .ok given ↔ (configs.get? key).join = given := by
  have same : readPassword id key tables = .ok (configs.get? key).join :=
    Outcome.bind_eq_ok.mpr ⟨service, read, Outcome.bind_eq_ok.mpr ⟨configs, returned, rfl⟩⟩
  rw [same, Except.ok.injEq]

/-- What is read is the password if it was stored and its key has no capitals, or if there was
nothing to store and there is no row. -/
theorem readPassword_iff_of_holds {key : String} {given : Option String} {again : Bool}
    (isKey : isPasswordKey key = true) (apart : given ≠ some HIDDEN_PASSWORD_STR)
    (readable : Readable id tables)
    (holds : Holds id key given again (passwordRows (configMapsOf tables id))) :
    readPassword id key tables = .ok given ↔
      (key = CONFIG_KEY_PASSWORD ∧ isEmptyText given = false) ∨ (given = none ∧ again = false) := by
  rcases getService_of_readable readable with ⟨service, read, sameId, shown⟩
  have seen := get?_shownConfigs (configMapsOf tables id) isKey
  -- a row whose key has a capital is shown with the placeholder
  have placeholder : ∀ value, passwordRows (configMapsOf tables id) = [⟨id, key, value⟩] →
      key ≠ CONFIG_KEY_PASSWORD → readPassword id key tables ≠ .ok given := by
    intro value listed capital back
    rw [readPassword_iff read (getConfigs_of_capital shown listed capital), seen, listed,
      if_pos ⟨_, List.mem_singleton_self _, rfl⟩] at back
    exact apart back.symm
  generalize rowsGiven : passwordRows (configMapsOf tables id) = rows at holds seen
  cases holds with
  | @encrypted text encrypted again valued made back =>
      by_cases named : key = CONFIG_KEY_PASSWORD
      · subst named
        have decrypted : RangerServiceService.getConfigsWithDecryptedPassword tables service =
            .ok ((RangerServiceService.shownConfigs (configMapsOf tables id)).put
              CONFIG_KEY_PASSWORD (some text)) :=
          (getConfigs_of_row sameId shown rowsGiven).trans (Outcome.bind_eq_ok.mpr
            ⟨some text, back, Outcome.bind_eq_ok.mpr
              ⟨encrypted, made, if_pos (equalsIgnoreCase_refl _)⟩⟩)
        rw [readPassword_iff read decrypted, AssocMap.get?_put, if_pos rfl]
        exact iff_of_true rfl (.inl ⟨rfl, valued⟩)
      · refine iff_of_false (placeholder _ rowsGiven named) fun either => ?_
        rcases either with ⟨same, _⟩ | ⟨missing, _⟩
        · exact named same
        · cases missing
  | dropped blank =>
      have absent := getConfigs_of_absent shown (by rw [rowsGiven, List.filter_nil])
      have missing : ((RangerServiceService.shownConfigs (configMapsOf tables id)).get? key).join =
          none := by
        rw [seen, if_neg]
        · rfl
        · intro listed
          rcases listed with ⟨row, member, _⟩
          cases member
      rw [readPassword_iff read absent, missing, blank]
      constructor
      · exact fun same => .inr ⟨same.symm, rfl⟩
      · intro either
        rcases either with ⟨_, valued⟩ | ⟨same, _⟩
        · cases valued
        · exact same.symm
  | missing blank =>
      refine iff_of_false (fun back => ?_) fun either => ?_
      · by_cases named : key = CONFIG_KEY_PASSWORD
        · subst named
          rcases Outcome.bind_eq_ok.mp back with ⟨other, same, behind⟩
          obtain rfl := Except.ok.inj (read.symm.trans same)
          rw [getConfigs_of_row sameId shown rowsGiven] at behind
          -- there is nothing to decrypt
          cases behind
        · exact placeholder _ rowsGiven named back
      · rcases either with ⟨_, valued⟩ | ⟨_, again⟩
        · rw [blank] at valued
          cases valued
        · cases again

end Reading

section Last

omit [Platform] [Ciphers]

/-- Behind the last password that was given there are placeholders. -/
theorem exists_of_lastGiven {key : String} {calls : List ServiceCall} {given : Option String}
    (last : ServiceCall.lastGiven key calls = some given) :
    given ≠ some HIDDEN_PASSWORD_STR ∧ ∃ before call behind,
      calls = before ++ call :: behind ∧ call.password key = given ∧
        ∀ later ∈ behind, later.password key = some HIDDEN_PASSWORD_STR := by
  rcases List.find?_eq_some_iff_append.mp last with ⟨apart, hidden, rest, split, placeholders⟩
  refine ⟨bne_iff_ne.mp apart, ?_⟩
  rw [List.reverse_eq_iff, List.reverse_append, List.reverse_cons, List.append_assoc,
    List.singleton_append] at split
  rcases List.map_eq_append_iff.mp split with ⟨before, after, listed, _, onward⟩
  rcases List.map_eq_cons_iff.mp onward with ⟨call, behind, same, password, later⟩
  refine ⟨before, call, behind, by rw [listed, same], password, fun other member => ?_⟩
  have among : other.password key ∈ hidden := by
    rw [← List.mem_reverse, ← later]
    exact List.mem_map_of_mem member
  have placeholder := placeholders _ among
  rw [Bool.not_eq_true', bne_eq_false_iff_eq] at placeholder
  exact placeholder

/-- The last call has no password exactly if the last password that was given is none, and no
placeholder was given behind it. -/
theorem getLast?_eq_none_iff {key : String} {given : Option String} {before : List ServiceCall}
    {call : ServiceCall} {behind : List ServiceCall} (password : call.password key = given)
    (hidden : ∀ later ∈ behind, later.password key = some HIDDEN_PASSWORD_STR) :
    ((before ++ call :: behind).getLast?.map (·.password key)) = some none ↔
      given = none ∧ (!behind.isEmpty) = false := by
  rw [List.getLast?_append, List.getLast?_cons, Option.some_or, Option.map_some,
    Option.some.injEq]
  rcases List.eq_nil_or_concat behind with rfl | ⟨rest, last, rfl⟩
  · change call.password key = none ↔ given = none ∧ false = false
    rw [password]
    exact (and_iff_left rfl).symm
  · have placeholder := hidden last (by simp)
    rw [List.concat_eq_append, List.getLast?_append, List.getLast?_singleton, Option.some_or,
      Option.getD_some, placeholder]
    refine iff_of_false (Option.some_ne_none _) fun both => ?_
    have empty := both.2
    rw [Bool.not_eq_false', List.isEmpty_iff] at empty
    exact List.append_ne_nil_of_right_ne_nil _ (List.cons_ne_nil _ _) empty

end Last

variable [OtherTables σ]

/-- The last password that was given is read back exactly if it is not blank and its key has no
capitals, or if the last call has none. -/
theorem readsLastPassword_iff (trips : Ciphers.RoundTrips) {id : Int} {key : String}
    {calls : List ServiceCall} {start final : ServiceTables σ} {given : Option String}
    (isKey : isPasswordKey key = true) (only : ∀ call ∈ calls, call.HasPasswordKey key)
    (references : References start)
    (performed : ServiceCall.performAll id calls start = .ok final)
    (last : ServiceCall.lastGiven key calls = some given)
    (charset : ∀ text, given = some text → Ciphers.newString (Ciphers.getBytes text) = text) :
    readPassword id key final = .ok given ↔
      (key = CONFIG_KEY_PASSWORD ∧ isEmptyText given = false) ∨
        calls.getLast?.map (·.password key) = some none := by
  rcases exists_of_lastGiven last with ⟨apart, before, call, behind, rfl, password, hidden⟩
  rcases performAll_append performed with ⟨middle, first, performed⟩
  rcases performAll_cons performed with ⟨service, after, returned, same, performed⟩
  have performs := performs_of_perform (references_of_performAll references first) returned same
  have has := only call (List.mem_append_right _ List.mem_cons_self)
  have holds := holds_of_given trips isKey has performs password apart charset
  have keeps := keeps_of_performAll isKey
    (fun other member => only other (List.mem_append_right _ (List.mem_cons_of_mem _ member)))
    hidden ⟨performs.readable, performs.references, holds⟩ performed
  rw [Bool.false_or] at keeps
  rw [readPassword_iff_of_holds isKey apart keeps.readable keeps.holds,
    getLast?_eq_none_iff password hidden]

end Steps

section Slip

attribute [local instance] Platform.ascii Ciphers.plain OtherTables.unit

/-- A type whose configurations are not checked. -/
def hbaseTables : ServiceTables Unit where
  serviceDefs := Table.empty.insert ⟨some "hbase", []⟩
  services := Table.empty
  configMaps := Table.empty
  others := ()

def hbaseCalling : Calling where
  isUserAdmin := true
  currentUserId := some 1
  utcDate := 9
  guid := "g1"

/-- A service with this password. -/
def hbaseService (id : Option Int) (key : String) (password : Option String) : RangerService where
  id := id
  type := some "hbase"
  name := some "dev_hbase"
  configs := some (AssocMap.put ∅ key password)

/-- A service is created with a password, and updated with the placeholder. -/
def hbaseCalls (key : String) : List ServiceCall :=
  [.createService hbaseCalling (hbaseService none key (some "x")),
    .updateService hbaseCalling (hbaseService (some 1) key (some HIDDEN_PASSWORD_STR))]

theorem hasPasswordKey_hbaseCalls (key : String) :
    ∀ call ∈ hbaseCalls key, call.HasPasswordKey key := by
  have keys : ∀ password, (AssocMap.put (∅ : Configs) key password).keys = [key] :=
    AssocMap.keys_put_of_not_mem List.not_mem_nil
  have has : ∀ (call : ServiceCall) password,
      call.service.configs = some (AssocMap.put ∅ key password) → call.HasPasswordKey key := by
    intro call password given
    refine ⟨_, given, ?_, fun other member _ => ?_⟩
    · rw [keys]
      exact List.mem_singleton_self key
    · rw [keys] at member
      exact List.mem_singleton.mp member
  intro call member
  rcases List.mem_cons.mp member with rfl | member
  · exact has _ _ rfl
  · obtain rfl := List.mem_singleton.mp member
    exact has _ _ rfl

theorem readsLastPassword_password : ∃ final : ServiceTables Unit,
    ServiceCall.performAll 1 (hbaseCalls "password") hbaseTables = .ok final ∧
      readPassword 1 "password" final = .ok (some "x") := by
  have ok : (ServiceCall.performAll 1 (hbaseCalls "password") hbaseTables).isOk = true := by
    decide +kernel
  cases performed : ServiceCall.performAll 1 (hbaseCalls "password") hbaseTables with
  | error message =>
      rw [performed] at ok
      cases ok
  | ok final =>
      have charset : ∀ text, some "x" = some text →
          Ciphers.newString (Ciphers.getBytes text) = text := by
        intro text same
        obtain rfl := Option.some.inj same
        decide +kernel
      exact ⟨final, rfl, (readsLastPassword_iff Ciphers.plain_roundTrips (by decide +kernel)
        (hasPasswordKey_hbaseCalls _) (fun _ _ => rfl) performed (by decide +kernel)
        charset).mpr (.inl ⟨rfl, by decide +kernel⟩)⟩

/-- Under a key with a capital the placeholder is read. -/
theorem not_readsLastPassword_capital : ∃ final : ServiceTables Unit,
    isPasswordKey "Password" = true ∧
      (∀ call ∈ hbaseCalls "Password", call.HasPasswordKey "Password") ∧
      ServiceCall.performAll 1 (hbaseCalls "Password") hbaseTables = .ok final ∧
      ServiceCall.lastGiven "Password" (hbaseCalls "Password") = some (some "x") ∧
      readPassword 1 "Password" final ≠ .ok (some "x") := by
  have shown : (ServiceCall.performAll 1 (hbaseCalls "Password") hbaseTables).map
      (readPassword 1 "Password") = .ok (.ok (some HIDDEN_PASSWORD_STR)) := by
    decide +kernel
  rcases Outcome.map_eq_ok.mp shown with ⟨final, performed, shown⟩
  refine ⟨final, by decide +kernel, hasPasswordKey_hbaseCalls _, performed, by decide +kernel, ?_⟩
  rw [shown]
  decide

end Slip

end ServiceConfigs

end Ranger

import Ranger.Admin.ServiceValidators

/-! # Updates under a name that is taken

An object is updated under its own name if the validator sees that the object found by the
name is the updated one. It compares the two ids as objects, and not as the policy
validator does by their numbers.
-/

namespace Ranger

open Foundation Foundation.Report RangerValidator

/-- The check was made and found nothing wrong. -/
def Accepted (call : Throws (Report ValidationFailureDetails)) : Prop :=
  ∃ report, call = .ok report ∧ report.valid = true

theorem accepted_ok_iff {report : Report ValidationFailureDetails} :
    Accepted (.ok report) ↔ report.valid = true :=
  ⟨fun ⟨_, same, valid⟩ => Except.ok.inj same ▸ valid, fun valid => ⟨report, rfl, valid⟩⟩

namespace RangerValidator

section Names

variable {α : Type} {kind : String} {lookups : Lookups α} {idOf : α → Option BoxedLong}

/-- The stored objects, by their ids and names, are found by either. -/
structure Finds (lookups : Lookups α) (idOf : α → Option BoxedLong)
    (rows : List (Int × String)) : Prop where
  byId : ∀ row ∈ rows, ∃ object, lookups.byId row.1 = .ok (some object)
  byName : ∀ row ∈ rows, ∃ object id, lookups.byName row.2 = .ok (some object) ∧
    idOf object = some id ∧ id.value = row.1

/-- The update keeps the id and the name of a stored object. -/
def Keeps (row : Int × String) (id : Option BoxedLong) (name : Option String) : Prop :=
  id.map (·.value) = some row.1 ∧ name = some row.2

/-- The id of the stored object and that of the update are one `Long`. -/
def SameId (lookups : Lookups α) (idOf : α → Option BoxedLong) (id : Option BoxedLong)
    (name : Option String) : Prop :=
  id.any (·.isCached) = true ∨ (findByName lookups name).bind idOf = id

variable {rows : List (Int × String)} (finds : Finds lookups idOf rows) {row : Int × String}
  (member : row ∈ rows) {id : Option BoxedLong} {name : Option String}

include finds member

theorem valid_isValidId (keeps : Keeps row id name) :
    (isValidId kind lookups id .update).valid = true := by
  obtain ⟨number, rfl, value⟩ := Option.map_eq_some_iff.mp keeps.1
  obtain ⟨object, found⟩ := finds.byId row member
  simp only [isValidId, ↓reduceIte, value, found]
  rfl

theorem exists_read_id (named : name = some row.2) :
    ∃ own, (findByName lookups name).bind idOf = some own ∧ own.value = row.1 := by
  obtain ⟨object, own, found, read, value⟩ := finds.byName row member
  have answered : findByName lookups name = some object := by
    rw [named]
    exact congrArg RangerPolicyValidator.answer found
  exact ⟨own, by rw [answered, Option.bind_some, read], value⟩

omit finds member in
/-- An update under a name that is found compares the two ids as objects. -/
theorem valid_isValidName_iff {own : BoxedLong}
    (read : (findByName lookups name).bind idOf = some own) (given : isBlankText name = false) :
    (isValidName kind lookups idOf id name .update).valid = true ↔
      id.any own.isSameObject = true := by
  obtain ⟨object, found, ownId⟩ := Option.bind_eq_some_iff.mp read
  simp only [isValidName, given, found, ownId, reduceCtorEq, ↓reduceIte, Bool.false_eq_true]
  cases same : id.any own.isSameObject with
  | true => simp only [↓reduceIte, valid_accept]
  | false => simp only [Bool.false_eq_true, ↓reduceIte, valid_reject]

omit finds member in
theorem isSameObject_iff {own number : BoxedLong} (value : own.value = number.value) :
    own.isSameObject number = true ↔ number.isCached = true ∨ own = number := by
  have cached : own.isCached = number.isCached := by
    unfold BoxedLong.isCached
    rw [value]
  have objects : own = number ↔ own.object = number.object := by
    constructor
    · exact congrArg _
    · cases own
      cases number
      exact fun object => congr (congrArg _ value) object
  unfold BoxedLong.isSameObject
  rw [value, cached, objects, Bool.and_eq_true, Bool.or_eq_true, beq_iff_eq, beq_iff_eq]
  exact and_iff_right rfl

/-- Under its own name an object is updated if the two ids are one object. -/
theorem valid_isValidName_own_iff (keeps : Keeps row id name) (given : isBlankText name = false) :
    (isValidName kind lookups idOf id name .update).valid = true ↔ SameId lookups idOf id name := by
  obtain ⟨number, rfl, value⟩ := Option.map_eq_some_iff.mp keeps.1
  obtain ⟨own, read, ownValue⟩ := exists_read_id finds member keeps.2
  rw [valid_isValidName_iff read given]
  unfold SameId
  rw [read, Option.some.injEq]
  exact isSameObject_iff (ownValue.trans value.symm)

/-- Under the name of another object an object is not updated. -/
theorem not_valid_isValidName (named : name = some row.2)
    (other : id.map (·.value) ≠ some row.1) :
    ¬(isValidName kind lookups idOf id name .update).valid = true := by
  intro valid
  cases given : isBlankText name with
  | true =>
      simp only [isValidName, given, ↓reduceIte, valid_reject, Bool.false_eq_true] at valid
  | false =>
      obtain ⟨own, read, ownValue⟩ := exists_read_id finds member named
      have same := (valid_isValidName_iff read given).mp valid
      cases id with
      | none => cases same
      | some number =>
          have value : own.value = number.value := beq_iff_eq.mp (Bool.and_eq_true_iff.mp same).1
          exact other (congrArg some (value.symm.trans ownValue))

end Names

end RangerValidator

namespace RangerServiceValidator

/-- The other checks of an update find nothing wrong. -/
def OtherwiseValid [SetOrder] (store : Store) (service : Boxed.RangerService) : Prop :=
  isBlankText service.name = false ∧ (isValidType store service.type).valid = true ∧
    (isValidConfigs store service).valid = true

end RangerServiceValidator

namespace RangerServiceDefValidator

/-- The other checks of an update find nothing wrong. -/
def OtherwiseValid [Platform] [SetOrder] (serviceDef : Boxed.RangerServiceDef) : Prop :=
  isBlankText serviceDef.name = false ∧ serviceDef.accessTypes ≠ [] ∧
    (isValidAccessTypes serviceDef.accessTypes).valid = true ∧
      (isValidEnums serviceDef.enums).valid = true

end RangerServiceDefValidator

section Updates

variable [SetOrder] {store : Store} {rows : List (Int × String)}

/-- A service is updated under its own name if the ids are one object. -/
theorem accepted_service_iff (finds : Finds store.services (·.id) rows) {row : Int × String}
    (member : row ∈ rows) {service : Boxed.RangerService}
    (keeps : Keeps row service.id service.name)
    (otherwise : RangerServiceValidator.OtherwiseValid store service) :
    Accepted (RangerServiceValidator.isValid store (some service) .update) ↔
      SameId store.services (·.id) service.id service.name := by
  obtain ⟨given, type, configs⟩ := otherwise
  refine accepted_ok_iff.trans ?_
  unfold RangerServiceValidator.checks
  rw [valid_both, valid_both, valid_both, valid_isValidName_own_iff finds member keeps given]
  exact ⟨fun valid => valid.2.1,
    fun same => ⟨valid_isValidId finds member keeps, same, type, configs⟩⟩

/-- Under the name of another service a service is not updated. -/
theorem not_accepted_service (finds : Finds store.services (·.id) rows) {row : Int × String}
    (member : row ∈ rows) {service : Boxed.RangerService} (named : service.name = some row.2)
    (other : service.id.map (·.value) ≠ some row.1) :
    ¬Accepted (RangerServiceValidator.isValid store (some service) .update) := by
  intro accepted
  have valid := accepted_ok_iff.mp accepted
  unfold RangerServiceValidator.checks at valid
  rw [valid_both, valid_both] at valid
  exact not_valid_isValidName finds member named other valid.2.1

variable [Platform]

/-- A service definition is updated under its own name if the ids are one object. -/
theorem accepted_serviceDef_iff (finds : Finds store.serviceDefs (·.id) rows)
    {row : Int × String} (member : row ∈ rows) {serviceDef : Boxed.RangerServiceDef}
    (keeps : Keeps row serviceDef.id serviceDef.name)
    (otherwise : RangerServiceDefValidator.OtherwiseValid serviceDef) :
    Accepted (RangerServiceDefValidator.isValid store (some serviceDef) .update) ↔
      SameId store.serviceDefs (·.id) serviceDef.id serviceDef.name := by
  obtain ⟨given, present, accessTypes, enums⟩ := otherwise
  have access : serviceDef.accessTypes.isEmpty = false := by simpa using present
  refine accepted_ok_iff.trans ?_
  unfold RangerServiceDefValidator.checks
  rw [valid_both, valid_both, valid_both, valid_isValidName_own_iff finds member keeps given,
    access]
  exact ⟨fun valid => valid.2.1,
    fun same => ⟨valid_isValidId finds member keeps, same, accessTypes, enums⟩⟩

/-- Under the name of another service definition a service definition is not updated. -/
theorem not_accepted_serviceDef (finds : Finds store.serviceDefs (·.id) rows)
    {row : Int × String} (member : row ∈ rows) {serviceDef : Boxed.RangerServiceDef}
    (named : serviceDef.name = some row.2) (other : serviceDef.id.map (·.value) ≠ some row.1) :
    ¬Accepted (RangerServiceDefValidator.isValid store (some serviceDef) .update) := by
  intro accepted
  have valid := accepted_ok_iff.mp accepted
  unfold RangerServiceDefValidator.checks at valid
  rw [valid_both, valid_both] at valid
  exact not_valid_isValidName finds member named other valid.2.1

/-- Both validators accept an update under the own name if the two ids are one `Long` object,
and no update under the name of another. -/
theorem updatesNamed_iff {services serviceDefs : List (Int × String)}
    (findsServices : Finds store.services (·.id) services)
    (findsServiceDefs : Finds store.serviceDefs (·.id) serviceDefs) :
    ((∀ row ∈ services, ∀ service : Boxed.RangerService, Keeps row service.id service.name →
        RangerServiceValidator.OtherwiseValid store service →
          (Accepted (RangerServiceValidator.isValid store (some service) .update) ↔
            SameId store.services (·.id) service.id service.name)) ∧
      ∀ row ∈ serviceDefs, ∀ serviceDef : Boxed.RangerServiceDef,
        Keeps row serviceDef.id serviceDef.name →
        RangerServiceDefValidator.OtherwiseValid serviceDef →
          (Accepted (RangerServiceDefValidator.isValid store (some serviceDef) .update) ↔
            SameId store.serviceDefs (·.id) serviceDef.id serviceDef.name)) ∧
    (∀ row ∈ services, ∀ service : Boxed.RangerService, service.name = some row.2 →
        service.id.map (·.value) ≠ some row.1 →
          ¬Accepted (RangerServiceValidator.isValid store (some service) .update)) ∧
      ∀ row ∈ serviceDefs, ∀ serviceDef : Boxed.RangerServiceDef, serviceDef.name = some row.2 →
        serviceDef.id.map (·.value) ≠ some row.1 →
          ¬Accepted (RangerServiceDefValidator.isValid store (some serviceDef) .update) :=
  ⟨⟨fun _ member _ => accepted_service_iff findsServices member,
      fun _ member _ => accepted_serviceDef_iff findsServiceDefs member⟩,
    fun _ member _ => not_accepted_service findsServices member,
    fun _ member _ => not_accepted_serviceDef findsServiceDefs member⟩

end Updates

section Numbers

attribute [local instance] Platform.ascii SetOrder.asGiven

/-- The finders of a table of objects, which have their ids from the table. -/
def RangerValidator.Lookups.ofTable {α : Type} (table : List (Int × String × α)) : Lookups α where
  byId id := .ok ((table.find? (·.1 == id)).map (·.2.2))
  byName name := .ok ((table.find? (·.2.1 == name)).map (·.2.2))

/-- Two services of one type, and the definition of the type. -/
def twoServices : Store where
  services := Lookups.ofTable
    [(127, "sales", ⟨some ⟨127, 1⟩, some "sales", some "hive", []⟩),
      (128, "stock", ⟨some ⟨128, 2⟩, some "stock", some "hive", []⟩)]
  serviceDefs := Lookups.ofTable
    [(3, "hive", ⟨some ⟨3, 3⟩, some "hive", [], [⟨some "select", []⟩], []⟩)]

theorem twoServices_finds :
    Finds twoServices.services (·.id) [(127, "sales"), (128, "stock")] where
  byId := by simp [twoServices, Lookups.ofTable]
  byName := by simp [twoServices, Lookups.ofTable]

theorem twoServices_findsDefs : Finds twoServices.serviceDefs (·.id) [(3, "hive")] where
  byId := by simp [twoServices, Lookups.ofTable]
  byName := by simp [twoServices, Lookups.ofTable]

/-- The service with the id 127 is updated under its own name, read into another `Long`. -/
theorem update_of_cached_id :
    Accepted (RangerServiceValidator.isValid twoServices
      (some ⟨some ⟨127, 9⟩, some "sales", some "hive", []⟩) .update) :=
  ((updatesNamed_iff twoServices_finds twoServices_findsDefs).1.1 (127, "sales")
    List.mem_cons_self _ ⟨rfl, rfl⟩ ⟨by decide, by decide, by decide⟩).mpr (.inl (by decide))

/-- The service with the id 128 is taken for another one with its name. -/
theorem update_of_own_id_rejected :
    ¬∀ (store : Store) (services : List (Int × String)),
      Finds store.services (·.id) services → ∀ row ∈ services, ∀ service : Boxed.RangerService,
        Keeps row service.id service.name → RangerServiceValidator.OtherwiseValid store service →
          Accepted (RangerServiceValidator.isValid store (some service) .update) := by
  intro accepts
  have accepted := accepts twoServices _ twoServices_finds (128, "stock")
    (List.mem_cons_of_mem _ List.mem_cons_self)
    ⟨some ⟨128, 9⟩, some "stock", some "hive", []⟩ ⟨rfl, rfl⟩ ⟨by decide, by decide, by decide⟩
  have valid := accepted_ok_iff.mp accepted
  revert valid
  decide

end Numbers

end Ranger

import Ranger.Admin.ServiceStore
import Ranger.Foundation.Reconcile

/-! # Updating a service type in the database

`updateServiceDef` brings the rows of a service type in line with the version it is
given, one kind of children after the other. The columns of a child that are copied to
its row and back without being looked at are one value of any type.
-/

namespace Ranger

open Foundation

/-- The columns of a child: its name, and the other ones. -/
structure Columns (δ : Type) where
  name : String
  others : δ
  deriving DecidableEq

/-- A config, a policy condition, a context enricher or an element of an enum. -/
structure PlainDef (δ : Type) where
  id : Option Int := none
  columns : Columns δ

/-- A resource, with its parent by name. -/
structure ResourceDef (δ : Type) where
  id : Option Int := none
  columns : Columns δ
  parent : Option String := none

structure AccessTypeDef (δ : Type) where
  id : Option Int := none
  columns : Columns δ
  impliedGrants : List String := []

structure EnumDef (δ : Type) where
  id : Option Int := none
  columns : Columns δ
  elements : List (PlainDef δ) := []

/-- A service type as it is given to be stored. -/
structure ServiceDef (δ : Type) where
  id : Option Int := none
  name : String
  version : Option Int := none
  configs : List (PlainDef δ) := []
  resources : List (ResourceDef δ) := []
  accessTypes : List (AccessTypeDef δ) := []
  policyConditions : List (PlainDef δ) := []
  contextEnrichers : List (PlainDef δ) := []
  enums : List (EnumDef δ) := []

/-- A resource as it is stored, with its parent by id. -/
structure XXResourceDef (δ : Type) where
  columns : Columns δ
  parent : Option Int := none

/-- An access type with its rows of `XXAccessTypeDefGrants`. -/
structure XXAccessTypeDef (δ : Type) where
  columns : Columns δ
  impliedGrants : List String := []

/-- An enum with its rows of `XXEnumElementDef`. Their ids are only compared with each other. -/
structure XXEnumDef (δ : Type) where
  columns : Columns δ
  elements : Table (Columns δ)

/-- The foreign key of the parents. -/
def ParentsStored {δ : Type} (table : Table (XXResourceDef δ)) : Prop :=
  ∀ entry ∈ table.rows.entries, ∀ parent ∈ entry.2.parent, parent ∈ table.ids

instance {δ : Type} (table : Table (XXResourceDef δ)) : Decidable (ParentsStored table) :=
  inferInstanceAs (Decidable (∀ entry ∈ table.rows.entries, ∀ parent ∈ entry.2.parent,
    parent ∈ table.ids))

/-- Resources whose parents are among them. -/
structure ResourceDefs (δ : Type) where
  table : Table (XXResourceDef δ)
  parents : ParentsStored table

/-- The ids of the children of a service type that rows of policies refer to. -/
structure PolicyReferences where
  policyResources : List Int := []
  policyItemAccesses : List Int := []
  policyItemConditions : List Int := []

/-- A service type with the rows of its children. -/
structure XXServiceDef (δ : Type) where
  name : String
  version : Option Int := none
  configs : Table (Columns δ) := Table.empty
  resources : ResourceDefs δ
  accessTypes : Table (XXAccessTypeDef δ) := Table.empty
  policyConditions : Table (Columns δ) := Table.empty
  contextEnrichers : Table (Columns δ) := Table.empty
  enums : Table (XXEnumDef δ) := Table.empty

namespace ServiceDefUpdate

variable {δ : Type}

/-- The failure of a deletion that policies stand in the way of. -/
def referring (kind name : String) : Option String :=
  some ("Policy/Policies are referring to this " ++ kind ++ ": " ++ name ++
    ". Please remove such references from policy before updating service-def.")

/-- The columns of the row of a plain child. -/
def populate (child : PlainDef δ) (_ : Columns δ) : Throws (Columns δ) := .ok child.columns

def populateNew (child : PlainDef δ) (_ : Table (Columns δ)) : Throws (Columns δ) :=
  .ok child.columns

def removeRow {ρ : Type} (table : Table ρ) (id : Int) : Throws (Table ρ) := .ok (table.remove id)

/-- A row may be removed if no policy refers to it. -/
def removeUnless {ρ : Type} (kind : String) (name : ρ → String) (references : List Int)
    (table : Table ρ) (id : Int) : Throws (Table ρ) :=
  if references.contains id then .error (referring kind (((table.get? id).map name).getD ""))
  else .ok (table.remove id)

def updateConfigs (configs : Table (Columns δ)) (given : List (PlainDef δ)) :
    Throws (Table (Columns δ)) := do
  let merged ←
    Reconcile.merge (·.id) configs.ids populate (Reconcile.inserting populateNew) configs given
  Reconcile.prune (·.id) configs.ids removeRow given merged

/-- `XXResourceDefDao.findByNameAndServiceDefId`, which fails when there are several. -/
def findByNameAndServiceDefId (table : Table (XXResourceDef δ)) :
    Option String → Throws (Option Int)
  | none => .ok none
  | some name =>
      match table.rows.entries.filter fun entry => entry.2.columns.name == name with
      | [] => .ok none
      | [entry] => .ok (some entry.1)
      | _ => .error none

/-- The parent of a row that is there already is not written. -/
def populateResource (resource : ResourceDef δ) (row : XXResourceDef δ) :
    Throws (XXResourceDef δ) := .ok { row with columns := resource.columns }

/-- The parent of a new row is looked up among the rows there are. -/
def populateNewResource (resource : ResourceDef δ) (table : Table (XXResourceDef δ)) :
    Throws (XXResourceDef δ) :=
  (findByNameAndServiceDefId table resource.parent).map fun parent => ⟨resource.columns, parent⟩

/-- `deleteXXResourceDef`, with the rows of policies that refer to resources: the
children of a resource go first, down to a depth at which the calls overflow the stack. -/
def deleteXXResourceDef : Nat → Table (XXResourceDef δ) × List Int → Int →
    Throws (Table (XXResourceDef δ) × List Int)
  | 0, _, _ => .error none
  | depth + 1, state, id => do
      let children := state.1.rows.entries.filter fun entry => entry.2.parent == some id
      let state ← (children.map (·.1)).foldlM (deleteXXResourceDef depth) state
      .ok (state.1.remove id, state.2.filter (· != id))

/-- A resource no policy refers to is deleted with its children. -/
def removeResource (state : Table (XXResourceDef δ) × List Int) (id : Int) :
    Throws (Table (XXResourceDef δ) × List Int) :=
  if state.2.contains id then
    .error (referring "resource" (((state.1.get? id).map (·.columns.name)).getD ""))
  else deleteXXResourceDef (state.1.rows.size + 1) state id

/-- The rows are written where each parent is one of them. -/
def writeResources (table : Table (XXResourceDef δ)) : Throws (ResourceDefs δ) :=
  if parents : ParentsStored table then .ok ⟨table, parents⟩ else .error none

def updateResources (resources : ResourceDefs δ) (policyResources : List Int)
    (given : List (ResourceDef δ)) : Throws (ResourceDefs δ × List Int) := do
  let known := resources.table.ids
  let merged ← Reconcile.merge (·.id) known populateResource
    (Reconcile.inserting populateNewResource) resources.table given
  let (table, policyResources) ←
    Reconcile.prune (·.id) known removeResource given (merged, policyResources)
  let resources ← writeResources table
  .ok (resources, policyResources)

section Grants

variable [Platform]

/-- Whether a grant is among others, letter case ignored. -/
def listed (impliedGrants : List String) (impliedGrant : String) : Bool :=
  impliedGrants.any (equalsIgnoreCase impliedGrant)

/-- `XXAccessTypeDefGrantsDao.findByNameAndATDId` and the removal of the row found,
which fails when there are several. -/
def removeGrant (rows : List String) (impliedGrant : String) : Throws (List String) :=
  if 1 < rows.count impliedGrant then .error none else .ok (rows.erase impliedGrant)

/-- The grants of an access type that is there already: both loops compare with the
rows there were before. -/
def updateImpliedGrants (given rows : List String) : Throws (List String) :=
  let created := given.filter fun impliedGrant => !listed rows impliedGrant
  (rows.filter fun impliedGrant => !listed given impliedGrant).foldlM removeGrant (rows ++ created)

def populateAccessType (access : AccessTypeDef δ) (row : XXAccessTypeDef δ) :
    Throws (XXAccessTypeDef δ) :=
  (updateImpliedGrants access.impliedGrants row.impliedGrants).map (⟨access.columns, ·⟩)

def populateNewAccessType (access : AccessTypeDef δ) (_ : Table (XXAccessTypeDef δ)) :
    Throws (XXAccessTypeDef δ) := .ok ⟨access.columns, access.impliedGrants⟩

def updateAccessTypes (accessTypes : Table (XXAccessTypeDef δ)) (policyItemAccesses : List Int)
    (given : List (AccessTypeDef δ)) : Throws (Table (XXAccessTypeDef δ)) := do
  let merged ← Reconcile.merge (·.id) accessTypes.ids populateAccessType
    (Reconcile.inserting populateNewAccessType) accessTypes given
  Reconcile.prune (·.id) accessTypes.ids
    (removeUnless "access-type" (·.columns.name) policyItemAccesses) given merged

end Grants

def updatePolicyConditions (policyConditions : Table (Columns δ)) (policyItemConditions : List Int)
    (given : List (PlainDef δ)) : Throws (Table (Columns δ)) := do
  let merged ← Reconcile.merge (·.id) policyConditions.ids populate
    (Reconcile.inserting populateNew) policyConditions given
  Reconcile.prune (·.id) policyConditions.ids
    (removeUnless "policy-condition" (·.name) policyItemConditions) given merged

/-- The object made for a context enricher without a row is not handed to `create`. -/
def updateContextEnrichers (contextEnrichers : Table (Columns δ)) (given : List (PlainDef δ)) :
    Throws (Table (Columns δ)) := do
  let merged ← Reconcile.merge (·.id) contextEnrichers.ids populate Reconcile.skipping
    contextEnrichers given
  Reconcile.prune (·.id) contextEnrichers.ids removeRow given merged

def updateElements (elements : Table (Columns δ)) (given : List (PlainDef δ)) :
    Throws (Table (Columns δ)) := do
  let merged ←
    Reconcile.merge (·.id) elements.ids populate (Reconcile.inserting populateNew) elements given
  Reconcile.prune (·.id) elements.ids removeRow given merged

def populateEnum (enumDef : EnumDef δ) (row : XXEnumDef δ) : Throws (XXEnumDef δ) :=
  (updateElements row.elements enumDef.elements).map (⟨enumDef.columns, ·⟩)

/-- The elements of a new enum are all created. -/
def populateNewEnum (enumDef : EnumDef δ) (_ : Table (XXEnumDef δ)) : Throws (XXEnumDef δ) :=
  .ok ⟨enumDef.columns,
    enumDef.elements.foldl (fun rows element => rows.insert element.columns) Table.empty⟩

def updateEnums (enums : Table (XXEnumDef δ)) (given : List (EnumDef δ)) :
    Throws (Table (XXEnumDef δ)) := do
  let merged ←
    Reconcile.merge (·.id) enums.ids populateEnum (Reconcile.inserting populateNewEnum) enums given
  Reconcile.prune (·.id) enums.ids removeRow given merged

section Update

variable [Platform]

def updateChildObjectsOfServiceDef (created : XXServiceDef δ) (references : PolicyReferences)
    (given : ServiceDef δ) : Throws (XXServiceDef δ × PolicyReferences) := do
  let configs ← updateConfigs created.configs given.configs
  let (resources, policyResources) ←
    updateResources created.resources references.policyResources given.resources
  let accessTypes ←
    updateAccessTypes created.accessTypes references.policyItemAccesses given.accessTypes
  let policyConditions ←
    updatePolicyConditions created.policyConditions references.policyItemConditions
      given.policyConditions
  let contextEnrichers ← updateContextEnrichers created.contextEnrichers given.contextEnrichers
  let enums ← updateEnums created.enums given.enums
  let updated :=
    { created with
      configs := configs
      resources := resources
      accessTypes := accessTypes
      policyConditions := policyConditions
      contextEnrichers := contextEnrichers
      enums := enums }
  .ok (updated, { references with policyResources := policyResources })

/-- The text of an id in a message. -/
def idText (id : Option Int) : String :=
  match id with
  | none => "null"
  | some id => toString id

/-- `updateServiceDef`, from the service types that are stored. -/
def updateServiceDef (serviceDefs : Table (XXServiceDef δ)) (references : PolicyReferences)
    (serviceDef : ServiceDef δ) : Throws (Table (XXServiceDef δ) × PolicyReferences) :=
  match serviceDef.id with
  | none => .error (some ("no service-def exists with ID=" ++ idText none))
  | some id =>
      match serviceDefs.get? id with
      | none => .error (some ("no service-def exists with ID=" ++ idText (some id)))
      | some existing =>
          let renamed := !equalsIgnoreCase serviceDef.name existing.name
          match (if renamed then
            serviceDefs.rows.entries.find? (·.2.name == serviceDef.name) else none) with
          | some (other, _) =>
              .error (some ("another service-def already exists with name '" ++ serviceDef.name ++
                "'. ID=" ++ toString other))
          | none => do
              let version := match serviceDef.version with
                | none => 1
                | some version => version + 1
              let (updated, references) ← updateChildObjectsOfServiceDef
                { existing with name := serviceDef.name, version := some version } references
                serviceDef
              .ok (serviceDefs.replace id updated, references)

end Update

section Create

variable {ν ρ : Type}

/-- A row for each child of a new service type. -/
def createRows (new : ν → Table ρ → Throws ρ) (given : List ν) : Throws (Table ρ) :=
  given.foldlM (fun table child => Reconcile.inserting new child table) Table.empty

/-- `createServiceDef`. -/
def createServiceDef (serviceDefs : Table (XXServiceDef δ)) (serviceDef : ServiceDef δ) :
    Throws (Table (XXServiceDef δ)) :=
  match serviceDefs.rows.entries.find? (·.2.name == serviceDef.name) with
  | some _ => .error (some ("service-def with name: " ++ serviceDef.name ++ " already exists"))
  | none => do
      let configs ← createRows populateNew serviceDef.configs
      let resources ← createRows populateNewResource serviceDef.resources
      let resources ← writeResources resources
      let accessTypes ← createRows populateNewAccessType serviceDef.accessTypes
      let policyConditions ← createRows populateNew serviceDef.policyConditions
      let contextEnrichers ← createRows populateNew serviceDef.contextEnrichers
      let enums ← createRows populateNewEnum serviceDef.enums
      let created : XXServiceDef δ :=
        { name := serviceDef.name
          version := some 1
          configs := configs
          resources := resources
          accessTypes := accessTypes
          policyConditions := policyConditions
          contextEnrichers := contextEnrichers
          enums := enums }
      .ok (serviceDefs.insert created)

end Create

end ServiceDefUpdate

end Ranger

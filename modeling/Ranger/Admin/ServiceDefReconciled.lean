import Ranger.Admin.ServiceDefUpdate

/-! # What is stored after a service type is updated

The rows of each kind of children are compared with the children that were given. A
kind is stored as given when no row is matched twice; implied grants, parents of
resources and context enrichers need more, because the update compares the first ones
in any letter case, never writes the second ones again, and does not create the third.
-/

namespace Ranger

open Foundation

namespace ServiceDefUpdate

variable {δ : Type}

/-- A row holds the columns of its child. -/
def PlainAgrees (child : PlainDef δ) (_ : Option (Columns δ)) (row : Columns δ) : Prop :=
  row = child.columns

/-- Plain children are stored as they were given. -/
abbrev PlainReconciled (old : Table (Columns δ)) (given : List (PlainDef δ))
    (after : Table (Columns δ)) : Prop :=
  Reconcile.Reconciled (·.id) PlainAgrees old given after

theorem populate_agrees {child : PlainDef δ} {row written : Columns δ}
    (made : populate child row = .ok written) :
    PlainAgrees child (some row) written ↔ True := by
  cases made
  exact iff_true_intro rfl

theorem populateNew_agrees {child : PlainDef δ} {table : Table (Columns δ)} {row : Columns δ}
    (made : populateNew child table = .ok row) : PlainAgrees child none row := by
  cases made
  rfl

theorem removeRow_eq_ok {ρ : Type} {table next : Table ρ} {id : Int}
    (removed : removeRow table id = .ok next) : next = table.remove id := by
  cases removed
  rfl

theorem removeUnless_eq_ok {ρ : Type} {kind : String} {name : ρ → String} {references : List Int}
    {table next : Table ρ} {id : Int}
    (removed : removeUnless kind name references table id = .ok next) :
    next = table.remove id := by
  unfold removeUnless at removed
  split at removed
  · cases removed
  · cases removed
    rfl

section Plain

variable {old after : Table (Columns δ)} {given : List (PlainDef δ)}

theorem updateConfigs_reconciled (performed : updateConfigs old given = .ok after) :
    PlainReconciled old given after ↔ Reconcile.Distinct (·.id) old.ids given := by
  obtain ⟨merged, merges, prunes⟩ := Outcome.bind_eq_ok.mp performed
  exact (Reconcile.reconciled_iff populate_agrees populateNew_agrees removeRow_eq_ok merges
    prunes).trans (and_iff_left fun _ _ _ _ => trivial)

theorem updatePolicyConditions_reconciled {references : List Int}
    (performed : updatePolicyConditions old references given = .ok after) :
    PlainReconciled old given after ↔ Reconcile.Distinct (·.id) old.ids given := by
  obtain ⟨merged, merges, prunes⟩ := Outcome.bind_eq_ok.mp performed
  exact (Reconcile.reconciled_iff populate_agrees populateNew_agrees removeUnless_eq_ok merges
    prunes).trans (and_iff_left fun _ _ _ _ => trivial)

/-- A context enricher without a row gets none. -/
theorem updateContextEnrichers_reconciled
    (performed : updateContextEnrichers old given = .ok after) :
    PlainReconciled old given after ↔
      Reconcile.Distinct (·.id) old.ids given ∧
        ∀ enricher ∈ given, (Reconcile.rowOf (·.id) old enricher).isSome = true := by
  obtain ⟨merged, merges, prunes⟩ := Outcome.bind_eq_ok.mp performed
  refine (Reconcile.reconciled_skipping_iff populate_agrees removeRow_eq_ok merges prunes).trans ?_
  simp only [and_true, Option.isSome_iff_exists]

theorem updateElements_reconciled (performed : updateElements old given = .ok after) :
    PlainReconciled old given after ↔ Reconcile.Distinct (·.id) old.ids given :=
  updateConfigs_reconciled performed

end Plain

section Enums

/-- The elements an enum is written over: none when it is new. -/
def elementsOf : Option (XXEnumDef δ) → Table (Columns δ)
  | none => Table.empty
  | some row => row.elements

def EnumAgrees (enumDef : EnumDef δ) (known : Option (XXEnumDef δ)) (row : XXEnumDef δ) : Prop :=
  row.columns = enumDef.columns ∧
    PlainReconciled (elementsOf known) enumDef.elements row.elements

theorem populateEnum_agrees {enumDef : EnumDef δ} {row written : XXEnumDef δ}
    (made : populateEnum enumDef row = .ok written) :
    EnumAgrees enumDef (some row) written ↔
      Reconcile.Distinct (·.id) row.elements.ids enumDef.elements := by
  obtain ⟨elements, performed, rfl⟩ := Outcome.map_eq_ok.mp made
  unfold EnumAgrees
  rw [← updateElements_reconciled performed]
  exact and_iff_right rfl

/-- Children without rows are inserted one by one. -/
theorem updateConfigs_empty (given : List (PlainDef δ)) :
    updateConfigs Table.empty given = createRows populateNew given := by
  have merges : Reconcile.merge (·.id) [] populate (Reconcile.inserting populateNew)
      (Table.empty : Table (Columns δ)) given = (createRows populateNew given : Throws _) := by
    unfold Reconcile.merge createRows Reconcile.mergeChild
    simp only [Reconcile.match?_nil]
  have prunes : ∀ table : Table (Columns δ),
      Reconcile.prune (·.id) [] removeRow given table = .ok table := fun _ => rfl
  unfold updateConfigs
  rw [Table.ids_empty, merges]
  cases createRows populateNew given with
  | error failure => rfl
  | ok rows => exact prunes rows

/-- Every child of a plain kind that a new service type is given is stored. -/
theorem createRows_reconciled {given : List (PlainDef δ)} {rows : Table (Columns δ)}
    (performed : createRows populateNew given = .ok rows) :
    PlainReconciled Table.empty given rows :=
  (updateConfigs_reconciled ((updateConfigs_empty given).trans performed)).mpr
    (Reconcile.distinct_nil given)

/-- The insertions of the elements of a new enum do not fail. -/
theorem createRows_populateNew (given : List (PlainDef δ)) :
    createRows populateNew given =
      .ok (given.foldl (fun rows element => rows.insert element.columns) Table.empty) := by
  unfold createRows
  generalize (Table.empty : Table (Columns δ)) = table
  induction given generalizing table with
  | nil => rfl
  | cons element rest ih => exact ih _

/-- The elements of a new enum are those it is given with. -/
theorem populateNewEnum_agrees {enumDef : EnumDef δ} {table : Table (XXEnumDef δ)}
    {row : XXEnumDef δ} (made : populateNewEnum enumDef table = .ok row) :
    EnumAgrees enumDef none row := by
  cases made
  exact ⟨rfl, createRows_reconciled (createRows_populateNew enumDef.elements)⟩

theorem updateEnums_reconciled {old after : Table (XXEnumDef δ)} {given : List (EnumDef δ)}
    (performed : updateEnums old given = .ok after) :
    Reconcile.Reconciled (·.id) EnumAgrees old given after ↔
      Reconcile.Distinct (·.id) old.ids given ∧
        ∀ enumDef ∈ given, ∀ row, Reconcile.rowOf (·.id) old enumDef = some row →
          Reconcile.Distinct (·.id) row.elements.ids enumDef.elements := by
  obtain ⟨merged, merges, prunes⟩ := Outcome.bind_eq_ok.mp performed
  exact Reconcile.reconciled_iff populateEnum_agrees populateNewEnum_agrees removeRow_eq_ok merges
    prunes

end Enums

section Grants

variable [Platform]

omit [Platform] in
/-- Removing texts that are not wanted, each there once, leaves the wanted ones. -/
theorem foldlM_removeGrant {wanted : String → Bool} {gone start written : List String}
    (unwanted : ∀ text ∈ gone, wanted text = false)
    (every : ∀ text ∈ start, wanted text = false → text ∈ gone)
    (performed : gone.foldlM removeGrant start = .ok written) :
    written = start.filter wanted := by
  induction gone generalizing start with
  | nil =>
      cases performed
      refine (List.filter_eq_self.mpr fun text member => ?_).symm
      by_contra rejected
      exact absurd (every text member (Bool.eq_false_iff.mpr rejected)) List.not_mem_nil
  | cons text rest ih =>
      rw [List.foldlM_cons] at performed
      obtain ⟨next, removed, performed⟩ := Outcome.bind_eq_ok.mp performed
      unfold removeGrant at removed
      split at removed
      · cases removed
      · next single =>
          cases removed
          have rejected := unwanted text List.mem_cons_self
          rw [ih (fun other member => unwanted other (List.mem_cons_of_mem _ member)) ?_ performed]
          · rw [← List.erase_filter, List.erase_of_not_mem]
            exact fun kept => absurd (List.of_mem_filter kept) (by simp [rejected])
          · intro other member refused
            have listed := every other (List.mem_of_mem_erase member) refused
            refine (List.mem_cons.mp listed).resolve_left fun same => ?_
            rw [same, ← List.count_pos_iff, List.count_erase_self] at member
            omega

/-- The grants of an access type after its update. -/
theorem updateImpliedGrants_eq {given rows written : List String}
    (performed : updateImpliedGrants given rows = .ok written) :
    written = rows.filter (listed given) ++
      given.filter fun impliedGrant => !listed rows impliedGrant := by
  have own : ∀ impliedGrant ∈ given, listed given impliedGrant = true := fun impliedGrant member =>
    List.any_eq_true.mpr ⟨impliedGrant, member, equalsIgnoreCase_refl _⟩
  have created : (given.filter fun impliedGrant => !listed rows impliedGrant).filter
      (listed given) = given.filter fun impliedGrant => !listed rows impliedGrant :=
    List.filter_eq_self.mpr fun text member => own text (List.mem_of_mem_filter member)
  rw [@foldlM_removeGrant (listed given) _ _ _ ?_ ?_ performed, List.filter_append, created]
  · exact fun text member => by simpa using List.of_mem_filter member
  · intro text member refused
    obtain old | new := List.mem_append.mp member
    · exact List.mem_filter.mpr ⟨old, by simp [refused]⟩
    · rw [own text (List.mem_of_mem_filter new)] at refused
      cases refused

/-- The grants that are there already in some letter case are spelt as they are given. -/
def SameSpelling (given rows : List String) : Prop :=
  (rows.filter (listed given)).Perm (given.filter (listed rows))

def AccessTypeAgrees (access : AccessTypeDef δ) (_ : Option (XXAccessTypeDef δ))
    (row : XXAccessTypeDef δ) : Prop :=
  row.columns = access.columns ∧ row.impliedGrants.Perm access.impliedGrants

theorem populateAccessType_agrees {access : AccessTypeDef δ} {row written : XXAccessTypeDef δ}
    (made : populateAccessType access row = .ok written) :
    AccessTypeAgrees access (some row) written ↔
      SameSpelling access.impliedGrants row.impliedGrants := by
  obtain ⟨impliedGrants, performed, rfl⟩ := Outcome.map_eq_ok.mp made
  have parts := List.filter_append_perm (listed row.impliedGrants) access.impliedGrants
  unfold AccessTypeAgrees SameSpelling
  rw [updateImpliedGrants_eq performed, and_iff_right rfl]
  constructor
  · exact fun same => (List.perm_append_right_iff _).mp (same.trans parts.symm)
  · exact fun same => (same.append_right _).trans parts

theorem updateAccessTypes_reconciled {old after : Table (XXAccessTypeDef δ)}
    {references : List Int} {given : List (AccessTypeDef δ)}
    (performed : updateAccessTypes old references given = .ok after) :
    Reconcile.Reconciled (·.id) AccessTypeAgrees old given after ↔
      Reconcile.Distinct (·.id) old.ids given ∧
        ∀ access ∈ given, ∀ row, Reconcile.rowOf (·.id) old access = some row →
          SameSpelling access.impliedGrants row.impliedGrants := by
  obtain ⟨merged, merges, prunes⟩ := Outcome.bind_eq_ok.mp performed
  refine Reconcile.reconciled_iff populateAccessType_agrees ?_ removeUnless_eq_ok merges prunes
  intro access state row made
  cases made
  exact ⟨rfl, List.Perm.refl _⟩

end Grants

section Deletion

/-- Resources are only lost on the way from one table to another. -/
def Shrinks (table after : Table (XXResourceDef δ)) : Prop :=
  ∀ id row, after.get? id = some row → table.get? id = some row

theorem Shrinks.trans {first second third : Table (XXResourceDef δ)}
    (one : Shrinks first second) (two : Shrinks second third) : Shrinks first third :=
  fun id row found => one id row (two id row found)

theorem Shrinks.remove (table : Table (XXResourceDef δ)) (id : Int) :
    Shrinks table (table.remove id) := by
  intro other row found
  rw [Table.get?_remove] at found
  split at found
  · cases found
  · exact found

theorem Shrinks.eq_none {table after : Table (XXResourceDef δ)} (shrinks : Shrinks table after)
    {id : Int} (gone : table.get? id = none) : after.get? id = none := by
  by_contra kept
  obtain ⟨row, found⟩ := Option.ne_none_iff_exists'.mp kept
  rw [shrinks id row found] at gone
  cases gone

/-- What a deletion of a resource does to the table: rows are only lost, the resource is
one of them, its children are too, and a set of resources that holds the parents of its
members and not the resource is left alone. -/
structure Deletes (id : Int) (table after : Table (XXResourceDef δ)) : Prop where
  shrinks : Shrinks table after
  gone : after.get? id = none
  children : ∀ child row, table.get? child = some row → row.parent = some id →
    after.get? child = none
  spared : ∀ kept : Int → Prop, ¬ kept id →
    (∀ other row parent, kept other → table.get? other = some row → row.parent = some parent →
      kept parent) → ∀ other, kept other → after.get? other = table.get? other

/-- Deletions one after the other. -/
structure DeletesAll (ids : List Int) (table after : Table (XXResourceDef δ)) : Prop where
  shrinks : Shrinks table after
  gone : ∀ id ∈ ids, after.get? id = none
  children : ∀ id ∈ ids, ∀ child row, table.get? child = some row → row.parent = some id →
    after.get? child = none
  spared : ∀ kept : Int → Prop, (∀ id ∈ ids, ¬ kept id) →
    (∀ other row parent, kept other → table.get? other = some row → row.parent = some parent →
      kept parent) → ∀ other, kept other → after.get? other = table.get? other

theorem deletesAll_foldlM {delete : Table (XXResourceDef δ) × List Int → Int →
      Throws (Table (XXResourceDef δ) × List Int)}
    (deletes : ∀ state id next, delete state id = .ok next → Deletes id state.1 next.1)
    {ids : List Int} {state after : Table (XXResourceDef δ) × List Int}
    (performed : ids.foldlM delete state = .ok after) : DeletesAll ids state.1 after.1 := by
  induction ids generalizing state with
  | nil =>
      cases performed
      exact ⟨fun _ _ => id, nofun, nofun, fun _ _ _ _ _ => rfl⟩
  | cons id rest ih =>
      rw [List.foldlM_cons] at performed
      obtain ⟨next, first, performed⟩ := Outcome.bind_eq_ok.mp performed
      have one := deletes state id next first
      have others := ih performed
      refine ⟨one.shrinks.trans others.shrinks, ?_, ?_, ?_⟩
      · rintro other (_ | ⟨_, later⟩)
        · exact others.shrinks.eq_none one.gone
        · exact others.gone other later
      · rintro other (_ | ⟨_, later⟩) child row found parent
        · exact others.shrinks.eq_none (one.children child row found parent)
        · cases kept : next.1.get? child with
          | none => exact others.shrinks.eq_none kept
          | some same =>
              have before := one.shrinks child same kept
              rw [found, Option.some.injEq] at before
              exact others.children other later child same kept (before ▸ parent)
      · intro kept outside closed other member
        have first := one.spared kept (outside id List.mem_cons_self) closed
        rw [← first other member]
        refine others.spared kept (fun id later => outside id (List.mem_cons_of_mem _ later)) ?_
          other member
        intro other row parent member found
        exact closed other row parent member (one.shrinks other row found)

/-- **Cascading deletion.** -/
theorem deletes_deleteXXResourceDef {depth : Nat} {state after : Table (XXResourceDef δ) × List Int}
    {id : Int} (performed : deleteXXResourceDef depth state id = .ok after) :
    Deletes id state.1 after.1 := by
  induction depth generalizing state after id with
  | zero => cases performed
  | succ depth ih =>
      unfold deleteXXResourceDef at performed
      obtain ⟨below, deleted, performed⟩ := Outcome.bind_eq_ok.mp performed
      cases performed
      have all := deletesAll_foldlM (fun _ _ _ => ih) deleted
      have child : ∀ other, other ∈ (state.1.rows.entries.filter fun entry =>
          entry.2.parent == some id).map (·.1) ↔
            ∃ row, state.1.get? other = some row ∧ row.parent = some id := by
        intro other
        simp only [List.mem_map, List.mem_filter, beq_iff_eq, Prod.exists, exists_and_right,
          exists_eq_right]
        exact exists_congr fun row => and_congr_left' AssocMap.get?_eq_some_iff.symm
      refine ⟨all.shrinks.trans (Shrinks.remove _ _), ?_, ?_, ?_⟩
      · rw [Table.get?_remove, if_pos rfl]
      · intro other row found parent
        exact (Shrinks.remove _ _).eq_none (all.gone other ((child other).mpr ⟨row, found, parent⟩))
      · intro kept outside closed other member
        have apart : other ≠ id := fun same => outside (same ▸ member)
        rw [Table.get?_remove, if_neg apart]
        refine all.spared kept (fun lower listed inside => ?_) closed other member
        obtain ⟨row, found, parent⟩ := (child lower).mp listed
        exact outside (closed lower row id inside found parent)

theorem deletes_removeResource {state after : Table (XXResourceDef δ) × List Int} {id : Int}
    (performed : removeResource state id = .ok after) : Deletes id state.1 after.1 := by
  unfold removeResource at performed
  split at performed
  · cases performed
  · exact deletes_deleteXXResourceDef performed

end Deletion

section Resources

/-- The name of the parent, as it is read back. -/
def parentName (table : Table (XXResourceDef δ)) (row : XXResourceDef δ) : Option String :=
  (row.parent.bind table.get?).map (·.columns.name)

def ResourceAgrees (after : Table (XXResourceDef δ)) (resource : ResourceDef δ)
    (_ : Option (XXResourceDef δ)) (row : XXResourceDef δ) : Prop :=
  row.columns = resource.columns ∧ parentName after row = resource.parent

/-- A row bears a name. -/
def Named (table : Table (XXResourceDef δ)) (id : Int) (name : String) : Prop :=
  ∃ row, table.get? id = some row ∧ row.columns.name = name

/-- A lookup that succeeds finds the one row with the name, or there is none. -/
theorem findByNameAndServiceDefId_eq_ok {table : Table (XXResourceDef δ)} {name : String}
    {parent : Option Int}
    (found : findByNameAndServiceDefId table (some name) = .ok parent) (id : Int) :
    Named table id name ↔ parent = some id := by
  have named : Named table id name ↔
      ∃ row, (id, row) ∈ table.rows.entries.filter fun entry => entry.2.columns.name == name := by
    simp only [Named, List.mem_filter, beq_iff_eq]
    exact exists_congr fun row => and_congr_left' AssocMap.get?_eq_some_iff
  rw [named]
  unfold findByNameAndServiceDefId at found
  dsimp only at found
  split at found
  · next bare =>
      cases found
      simp [bare]
  · next entry single =>
      cases found
      rw [single, Option.some.injEq]
      constructor
      · rintro ⟨row, listed⟩
        exact (congrArg Prod.fst (List.mem_singleton.mp listed)).symm
      · rintro rfl
        exact ⟨entry.2, List.mem_singleton_self _⟩
  · cases found

variable (old : Table (XXResourceDef δ))

/-- The ids the resources of a list come to have. -/
abbrev assignedTo (given : List (ResourceDef δ)) : List (Int × ResourceDef δ) :=
  Reconcile.assigned (·.id) old.ids old.next given

/-- A resource of the list is stored under an id and bears a name. -/
def GivenAs (given : List (ResourceDef δ)) (id : Int) (name : String) : Prop :=
  ∃ resource, (id, resource) ∈ assignedTo old given ∧ resource.columns.name = name

/-- The row of an id bears a name once the resources of a list are written: the given
name, or the stored one when none of them is written over it. -/
def NamedAfter (before : List (ResourceDef δ)) (id : Int) (name : String) : Prop :=
  GivenAs old before id name ∨
    (id ∉ (assignedTo old before).map Prod.fst ∧ Named old id name)

/-- The parent a resource is stored with is the one it is given with: the parent of a
row that is there already is given under the name the resource gives, and the parent of
a new row is given and bears its name by the time the row is created. -/
def KeepsParent (given before : List (ResourceDef δ)) (resource : ResourceDef δ) : Prop :=
  match Reconcile.rowOf (·.id) old resource with
  | some row =>
      match row.parent with
      | none => resource.parent = none
      | some parent => ∃ name, resource.parent = some name ∧ GivenAs old given parent name
  | none => ∀ name, resource.parent = some name →
      ∃ parent, NamedAfter old before parent name ∧ GivenAs old given parent name

variable {old} {merged : Table (XXResourceDef δ)} {given : List (ResourceDef δ)}

/-- No row is matched twice by the first ones of the resources. -/
theorem distinct_of_split (distinct : Reconcile.Distinct (·.id) old.ids given)
    {before rest : List (ResourceDef δ)} {resource : ResourceDef δ}
    (split : given = before ++ resource :: rest) : Reconcile.Distinct (·.id) old.ids before := by
  unfold Reconcile.Distinct at distinct ⊢
  rw [split, List.filterMap_append] at distinct
  exact distinct.of_append_left

section Merged

variable (distinct : Reconcile.Distinct (·.id) old.ids given)
  (performed : Reconcile.merge (·.id) old.ids populateResource
    (Reconcile.inserting populateNewResource) old given = .ok merged)

include distinct performed

/-- The row of a given resource has its columns, and the parent that was there or that
was found. -/
theorem row_merge {before rest : List (ResourceDef δ)} {resource : ResourceDef δ}
    (split : given = before ++ resource :: rest) :
    ∃ written,
      merged.get? (Reconcile.idAt (·.id) old.ids old.next before resource) = some written ∧
      written.columns = resource.columns ∧
      match Reconcile.rowOf (·.id) old resource with
      | some row => written.parent = row.parent
      | none => ∃ state, Reconcile.merge (·.id) old.ids populateResource
          (Reconcile.inserting populateNewResource) old before = .ok state ∧
            findByNameAndServiceDefId state resource.parent = .ok written.parent := by
  obtain ⟨state, written, merges, made, found⟩ :=
    (Reconcile.get?_merge distinct performed).2 before resource rest split
  refine ⟨written, found, ?_⟩
  rw [Reconcile.get?_idAt] at made
  cases matched : Reconcile.rowOf (·.id) old resource with
  | some row =>
      rw [matched] at made
      cases made
      exact ⟨rfl, rfl⟩
  | none =>
      rw [matched] at made
      obtain ⟨parent, located, rfl⟩ := Outcome.map_eq_ok.mp made
      exact ⟨rfl, state, merges, located⟩

/-- The rows of given resources bear the given names. -/
theorem GivenAs.named {id : Int} {name : String} (as : GivenAs old given id name) :
    Named merged id name := by
  obtain ⟨resource, listed, named⟩ := as
  obtain ⟨before, rest, split, rfl⟩ := Reconcile.mem_assigned.mp listed
  obtain ⟨written, found, columns, _⟩ := row_merge distinct performed split
  exact ⟨written, found, by rw [columns, named]⟩

/-- What merging makes of the names. -/
theorem named_merge_iff (id : Int) (name : String) :
    Named merged id name ↔ NamedAfter old given id name := by
  have others := (Reconcile.get?_merge distinct performed).1
  by_cases listed : id ∈ (assignedTo old given).map Prod.fst
  · constructor
    · rintro ⟨row, found, named⟩
      obtain ⟨⟨same, resource⟩, member, rfl⟩ := List.mem_map.mp listed
      obtain ⟨before, rest, split, place⟩ := Reconcile.mem_assigned.mp member
      obtain ⟨written, located, columns, _⟩ := row_merge distinct performed split
      dsimp only at found
      rw [place, located] at found
      cases found
      exact .inl ⟨resource, member, by rw [← columns, named]⟩
    · rintro (as | ⟨unlisted, _⟩)
      · exact as.named distinct performed
      · exact absurd listed unlisted
  · unfold Named
    rw [others id listed]
    constructor
    · exact fun named => .inr ⟨listed, named⟩
    · rintro (⟨resource, member, _⟩ | ⟨_, named⟩)
      · exact absurd (List.mem_map_of_mem member) listed
      · exact named

/-- Where the parent of a given resource is kept, it is stored, or there is none. -/
theorem KeepsParent.stored {before rest : List (ResourceDef δ)} {resource : ResourceDef δ}
    (keeps : KeepsParent old given before resource) (split : given = before ++ resource :: rest)
    {written : XXResourceDef δ}
    (made : merged.get? (Reconcile.idAt (·.id) old.ids old.next before resource) = some written) :
    (written.parent = none ∧ resource.parent = none) ∨
      ∃ above name, written.parent = some above ∧ resource.parent = some name ∧
        GivenAs old given above name := by
  obtain ⟨same, found, _, origin⟩ := row_merge distinct performed split
  rw [made, Option.some.injEq] at found
  subst found
  unfold KeepsParent at keeps
  cases matched : Reconcile.rowOf (·.id) old resource with
  | some row =>
      rw [matched] at origin keeps
      dsimp only at origin keeps
      cases above : row.parent with
      | none =>
          rw [above] at keeps
          exact .inl ⟨origin.trans above, keeps⟩
      | some id =>
          rw [above] at keeps
          obtain ⟨name, called, as⟩ := keeps
          exact .inr ⟨id, name, origin.trans above, called, as⟩
  | none =>
      rw [matched] at origin keeps
      obtain ⟨state, merges, located⟩ := origin
      dsimp only at keeps
      cases called : resource.parent with
      | none =>
          rw [called] at located
          exact .inl ⟨(Except.ok.inj located).symm, rfl⟩
      | some name =>
          obtain ⟨id, bears, as⟩ := keeps name called
          rw [called] at located
          have earlier := distinct_of_split distinct split
          have named := (named_merge_iff earlier merges id name).mpr bears
          exact .inr
            ⟨id, name, (findByNameAndServiceDefId_eq_ok located id).mp named, rfl, as⟩

end Merged

theorem parentName_of_named {table : Table (XXResourceDef δ)} {row : XXResourceDef δ} {parent : Int}
    {name : String} (child : row.parent = some parent) (named : Named table parent name) :
    parentName table row = some name := by
  obtain ⟨above, found, same⟩ := named
  unfold parentName
  rw [child, Option.bind_some, found, Option.map_some, same]

theorem parentName_of_none {table : Table (XXResourceDef δ)} {row : XXResourceDef δ}
    (root : row.parent = none) : parentName table row = none := by
  unfold parentName
  rw [root]
  rfl

theorem GivenAs.mem {id : Int} {name : String} (as : GivenAs old given id name) :
    id ∈ (assignedTo old given).map Prod.fst := by
  obtain ⟨resource, listed, _⟩ := as
  exact List.mem_map_of_mem listed

section Pruned

variable {after : Table (XXResourceDef δ)} (stored : ParentsStored old)
  (performed : Reconcile.merge (·.id) old.ids populateResource
    (Reconcile.inserting populateNewResource) old given = .ok merged)
  (deletes : DeletesAll (Reconcile.missing (·.id) old.ids given) merged after)

include performed deletes

/-- A resource that is left after the deletions has a parent that is given. -/
theorem parent_given {id parent : Int} {row : XXResourceDef δ} (left : after.get? id = some row)
    (child : row.parent = some parent) (there : parent ∈ merged.ids) :
    parent ∈ (assignedTo old given).map Prod.fst := by
  by_contra foreign
  have gone : parent ∈ Reconcile.missing (·.id) old.ids given := by
    by_contra kept
    exact foreign ((Reconcile.mem_ids_kept_iff performed parent).mp ⟨there, kept⟩)
  have lost := deletes.children parent gone id row (deletes.shrinks id row left) child
  rw [left] at lost
  cases lost

/-- Where the parents are given, no given resource goes with one that is not. -/
theorem get?_of_assigned
    (closed : ∀ id row parent, id ∈ (assignedTo old given).map Prod.fst →
      merged.get? id = some row → row.parent = some parent →
        parent ∈ (assignedTo old given).map Prod.fst)
    {id : Int} (listed : id ∈ (assignedTo old given).map Prod.fst) :
    after.get? id = merged.get? id :=
  deletes.spared (· ∈ (assignedTo old given).map Prod.fst)
    (fun gone missing given => ((Reconcile.mem_ids_kept_iff performed gone).mpr given).2 missing)
    closed id listed

include stored

/-- What is stored as it was given keeps its parents. -/
theorem keepsParent_of_reconciled
    (reconciled : Reconcile.Reconciled (·.id) (ResourceAgrees after) old given after)
    (distinct : Reconcile.Distinct (·.id) old.ids given) {before rest : List (ResourceDef δ)}
    {resource : ResourceDef δ} (split : given = before ++ resource :: rest) :
    KeepsParent old given before resource := by
  obtain ⟨written, made, _, origin⟩ := row_merge distinct performed split
  obtain ⟨row, left, _, parent⟩ :=
    reconciled.rows (_, resource) (Reconcile.mem_assigned.mpr ⟨before, rest, split, rfl⟩)
  have same := deletes.shrinks _ row left
  rw [made, Option.some.injEq] at same
  subst same
  -- a parent that is among the rows is given, and its name is the one that is read
  have named : ∀ above, written.parent = some above → above ∈ merged.ids →
      ∃ name, resource.parent = some name ∧ GivenAs old given above name := by
    intro above child there
    have listed := parent_given performed deletes left child there
    obtain ⟨⟨same, aboveDef⟩, member, rfl⟩ := List.mem_map.mp listed
    obtain ⟨aboveRow, found, columns, _⟩ := reconciled.rows (same, aboveDef) member
    refine ⟨aboveDef.columns.name, ?_, aboveDef, member, rfl⟩
    rw [← parent]
    exact parentName_of_named child ⟨aboveRow, found, by rw [columns]⟩
  unfold KeepsParent
  cases matched : Reconcile.rowOf (·.id) old resource with
  | some row =>
      rw [matched] at origin
      dsimp only at origin ⊢
      cases above : row.parent with
      | none => rw [← parent, parentName_of_none (origin.trans above)]
      | some id =>
          obtain ⟨place, _, found⟩ := Option.bind_eq_some_iff.mp matched
          have known : id ∈ old.ids := stored _ (AssocMap.mem_of_get?_eq_some found) id above
          exact named id (origin.trans above)
            (((Reconcile.ids_merge performed).2 id).mpr (.inl known))
  | none =>
      rw [matched] at origin
      dsimp only at origin ⊢
      intro name called
      obtain ⟨state, merges, located⟩ := origin
      rw [called] at located
      cases above : written.parent with
      | none =>
          rw [parentName_of_none above, called] at parent
          cases parent
      | some id =>
          have bears := (findByNameAndServiceDefId_eq_ok located id).mpr above
          have earlier := distinct_of_split distinct split
          have there : id ∈ merged.ids := by
            obtain ⟨above, found, _⟩ := bears
            have used := ((Reconcile.ids_merge merges).2 id).mp (Table.mem_ids_of_get? found)
            rw [(Reconcile.ids_merge performed).2, split, Reconcile.added_append]
            exact used.imp_right fun fresh => by omega
          obtain ⟨same, spelt, as⟩ := named id above there
          rw [called, Option.some.injEq] at spelt
          exact ⟨id, (named_merge_iff earlier merges id name).mp bears, spelt ▸ as⟩

end Pruned

/-- **Resources.** They are stored as given exactly when no row is matched twice and each
is stored with the parent it is given with. -/
theorem updateResources_reconciled {resources after : ResourceDefs δ} {references left : List Int}
    (performed : updateResources resources references given = .ok (after, left)) :
    Reconcile.Reconciled (·.id) (ResourceAgrees after.table) resources.table given after.table ↔
      Reconcile.Distinct (·.id) resources.table.ids given ∧
        ∀ before resource rest, given = before ++ resource :: rest →
          KeepsParent resources.table given before resource := by
  obtain ⟨merged, merges, performed⟩ := Outcome.bind_eq_ok.mp performed
  obtain ⟨⟨table, policyResources⟩, prunes, performed⟩ := Outcome.bind_eq_ok.mp performed
  obtain ⟨written, writes, performed⟩ := Outcome.bind_eq_ok.mp performed
  cases performed
  have deletes := deletesAll_foldlM (fun _ _ _ => deletes_removeResource) prunes
  have same : after.table = table := by
    unfold writeResources at writes
    split at writes
    · cases writes
      rfl
    · cases writes
  dsimp only at deletes
  rw [← same] at deletes
  constructor
  · intro reconciled
    have distinct := (Reconcile.nodup_assigned_iff resources.table.below).mp
      (reconciled.ids.nodup_iff.mp after.table.nodup_ids)
    exact ⟨distinct, fun before resource rest split =>
      keepsParent_of_reconciled resources.parents merges deletes reconciled distinct split⟩
  · rintro ⟨distinct, parents⟩
    have listedAt : ∀ {id}, id ∈ (assignedTo resources.table given).map Prod.fst →
        ∃ before resource rest, given = before ++ resource :: rest ∧
          id = Reconcile.idAt (·.id) resources.table.ids resources.table.next before resource := by
      intro id listed
      obtain ⟨⟨_, resource⟩, member, rfl⟩ := List.mem_map.mp listed
      obtain ⟨before, rest, split, place⟩ := Reconcile.mem_assigned.mp member
      exact ⟨before, resource, rest, split, place⟩
    have left : ∀ {id}, id ∈ (assignedTo resources.table given).map Prod.fst →
        after.table.get? id = merged.get? id := by
      refine get?_of_assigned merges deletes fun id row parent listed found child => ?_
      obtain ⟨before, resource, rest, split, rfl⟩ := listedAt listed
      obtain ⟨root, _⟩ | ⟨above, name, same, _, as⟩ :=
        (parents before resource rest split).stored distinct merges split found
      · rw [root] at child
        cases child
      · rw [same, Option.some.injEq] at child
        exact child ▸ as.mem
    have ids : ∀ id, id ∈ after.table.ids ↔
        id ∈ (assignedTo resources.table given).map Prod.fst := by
      intro id
      constructor
      · intro there
        obtain ⟨row, found⟩ := Table.exists_get?_of_mem there
        refine (Reconcile.mem_ids_kept_iff merges id).mp
          ⟨Table.mem_ids_of_get? (deletes.shrinks id row found), fun missing => ?_⟩
        rw [deletes.gone id missing] at found
        cases found
      · intro listed
        have there := ((Reconcile.mem_ids_kept_iff merges id).mpr listed).1
        rw [← Table.isSome_get?_iff, left listed, Table.isSome_get?_iff]
        exact there
    refine ⟨(Reconcile.perm_assigned_iff ids).mpr distinct, ?_⟩
    rintro ⟨id, resource⟩ member
    obtain ⟨before, rest, split, rfl⟩ := Reconcile.mem_assigned.mp member
    obtain ⟨written, found, columns, _⟩ := row_merge distinct merges split
    refine ⟨written, (left (List.mem_map_of_mem member)).trans found, columns, ?_⟩
    obtain ⟨root, called⟩ | ⟨above, name, child, called, as⟩ :=
      (parents before resource rest split).stored distinct merges split found
    · rw [parentName_of_none root, called]
    · obtain ⟨row, located, spelt⟩ := as.named distinct merges
      rw [called]
      exact parentName_of_named child ⟨row, (left as.mem).trans located, spelt⟩

end Resources

section Update

/-- The rows of a service type are those of the version it was given, one for each
child, retained rows under their ids and the other ones under new ids. -/
structure StoredAsGiven (before : XXServiceDef δ) (given : ServiceDef δ)
    (after : XXServiceDef δ) : Prop where
  configs : PlainReconciled before.configs given.configs after.configs
  resources : Reconcile.Reconciled (·.id) (ResourceAgrees after.resources.table)
    before.resources.table given.resources after.resources.table
  accessTypes : Reconcile.Reconciled (·.id) AccessTypeAgrees before.accessTypes given.accessTypes
    after.accessTypes
  policyConditions : PlainReconciled before.policyConditions given.policyConditions
    after.policyConditions
  contextEnrichers : PlainReconciled before.contextEnrichers given.contextEnrichers
    after.contextEnrichers
  enums : Reconcile.Reconciled (·.id) EnumAgrees before.enums given.enums after.enums

variable [Platform]

/-- The versions a service type can be brought in line with: no row is matched twice, no
context enricher is new, the implied grants that are kept are spelt as before, and the
parents of the resources are theirs already or are there when a resource is added. -/
structure Reconcilable (before : XXServiceDef δ) (given : ServiceDef δ) : Prop where
  configs : Reconcile.Distinct (·.id) before.configs.ids given.configs
  resources : Reconcile.Distinct (·.id) before.resources.table.ids given.resources
  parents : ∀ earlier resource rest, given.resources = earlier ++ resource :: rest →
    KeepsParent before.resources.table given.resources earlier resource
  accessTypes : Reconcile.Distinct (·.id) before.accessTypes.ids given.accessTypes
  impliedGrants : ∀ access ∈ given.accessTypes, ∀ row,
    Reconcile.rowOf (·.id) before.accessTypes access = some row →
      SameSpelling access.impliedGrants row.impliedGrants
  policyConditions : Reconcile.Distinct (·.id) before.policyConditions.ids given.policyConditions
  contextEnrichers : Reconcile.Distinct (·.id) before.contextEnrichers.ids given.contextEnrichers
  noNewEnricher : ∀ enricher ∈ given.contextEnrichers,
    (Reconcile.rowOf (·.id) before.contextEnrichers enricher).isSome = true
  enums : Reconcile.Distinct (·.id) before.enums.ids given.enums
  elements : ∀ enumDef ∈ given.enums, ∀ row,
    Reconcile.rowOf (·.id) before.enums enumDef = some row →
      Reconcile.Distinct (·.id) row.elements.ids enumDef.elements

theorem updateChildObjectsOfServiceDef_storedAsGiven {before after : XXServiceDef δ}
    {references left : PolicyReferences} {given : ServiceDef δ}
    (performed : updateChildObjectsOfServiceDef before references given = .ok (after, left)) :
    StoredAsGiven before given after ↔ Reconcilable before given := by
  obtain ⟨configs, configsOk, performed⟩ := Outcome.bind_eq_ok.mp performed
  obtain ⟨⟨resources, policyResources⟩, resourcesOk, performed⟩ := Outcome.bind_eq_ok.mp performed
  obtain ⟨accessTypes, accessTypesOk, performed⟩ := Outcome.bind_eq_ok.mp performed
  obtain ⟨policyConditions, policyConditionsOk, performed⟩ := Outcome.bind_eq_ok.mp performed
  obtain ⟨contextEnrichers, contextEnrichersOk, performed⟩ := Outcome.bind_eq_ok.mp performed
  obtain ⟨enums, enumsOk, performed⟩ := Outcome.bind_eq_ok.mp performed
  cases performed
  have one := updateConfigs_reconciled configsOk
  have two := updateResources_reconciled resourcesOk
  have three := updateAccessTypes_reconciled accessTypesOk
  have four := updatePolicyConditions_reconciled policyConditionsOk
  have five := updateContextEnrichers_reconciled contextEnrichersOk
  have six := updateEnums_reconciled enumsOk
  constructor
  · intro stored
    exact
      { configs := one.mp stored.configs
        resources := (two.mp stored.resources).1
        parents := (two.mp stored.resources).2
        accessTypes := (three.mp stored.accessTypes).1
        impliedGrants := (three.mp stored.accessTypes).2
        policyConditions := four.mp stored.policyConditions
        contextEnrichers := (five.mp stored.contextEnrichers).1
        noNewEnricher := (five.mp stored.contextEnrichers).2
        enums := (six.mp stored.enums).1
        elements := (six.mp stored.enums).2 }
  · intro can
    exact
      { configs := one.mpr can.configs
        resources := two.mpr ⟨can.resources, can.parents⟩
        accessTypes := three.mpr ⟨can.accessTypes, can.impliedGrants⟩
        policyConditions := four.mpr can.policyConditions
        contextEnrichers := five.mpr ⟨can.contextEnrichers, can.noNewEnricher⟩
        enums := six.mpr ⟨can.enums, can.elements⟩ }

/-- **Updating a service type.** Where `updateServiceDef` returns, the rows of the service
type are exactly those of the given version if and only if the version is one its rows
can be brought in line with. -/
theorem updateServiceDef_storedAsGiven_iff {serviceDefs after : Table (XXServiceDef δ)}
    {references left : PolicyReferences} {given : ServiceDef δ}
    (performed : updateServiceDef serviceDefs references given = .ok (after, left)) :
    ∃ id existing updated, given.id = some id ∧ serviceDefs.get? id = some existing ∧
      after.get? id = some updated ∧
        (StoredAsGiven existing given updated ↔ Reconcilable existing given) := by
  unfold updateServiceDef at performed
  split at performed
  · cases performed
  · next id carried =>
      split at performed
      · cases performed
      · next existing found =>
          dsimp only at performed
          split at performed
          · cases performed
          · obtain ⟨⟨updated, _⟩, children, performed⟩ := Outcome.bind_eq_ok.mp performed
            cases performed
            have stored := updateChildObjectsOfServiceDef_storedAsGiven children
            refine ⟨id, existing, updated, carried, found, ?_, ?_⟩
            · rw [Table.get?_replace_self (Table.mem_ids_of_get? found)]
            · constructor
              · intro as
                have can := stored.mp ⟨as.configs, as.resources, as.accessTypes,
                  as.policyConditions, as.contextEnrichers, as.enums⟩
                exact ⟨can.configs, can.resources, can.parents, can.accessTypes,
                  can.impliedGrants, can.policyConditions, can.contextEnrichers,
                  can.noNewEnricher, can.enums, can.elements⟩
              · intro can
                have as := stored.mpr ⟨can.configs, can.resources, can.parents, can.accessTypes,
                  can.impliedGrants, can.policyConditions, can.contextEnrichers,
                  can.noNewEnricher, can.enums, can.elements⟩
                exact ⟨as.configs, as.resources, as.accessTypes, as.policyConditions,
                  as.contextEnrichers, as.enums⟩

end Update

/-- A new service type is stored with the context enrichers it is given. -/
theorem createServiceDef_contextEnrichers {serviceDefs after : Table (XXServiceDef δ)}
    {given : ServiceDef δ} (performed : createServiceDef serviceDefs given = .ok after) :
    ∃ created, after.get? serviceDefs.next = some created ∧
      PlainReconciled Table.empty given.contextEnrichers created.contextEnrichers := by
  unfold createServiceDef at performed
  split at performed
  · cases performed
  · obtain ⟨configs, _, performed⟩ := Outcome.bind_eq_ok.mp performed
    obtain ⟨rows, _, performed⟩ := Outcome.bind_eq_ok.mp performed
    obtain ⟨resources, _, performed⟩ := Outcome.bind_eq_ok.mp performed
    obtain ⟨accessTypes, _, performed⟩ := Outcome.bind_eq_ok.mp performed
    obtain ⟨policyConditions, _, performed⟩ := Outcome.bind_eq_ok.mp performed
    obtain ⟨contextEnrichers, created, performed⟩ := Outcome.bind_eq_ok.mp performed
    obtain ⟨enums, _, performed⟩ := Outcome.bind_eq_ok.mp performed
    cases performed
    refine ⟨_, (Table.get?_insert _ _ _).trans (if_pos rfl), ?_⟩
    exact createRows_reconciled created

section Enricher

attribute [local instance] Platform.ascii

/-- A service type with one resource. -/
def hiveDefs : Table (XXServiceDef Unit) :=
  Table.empty.insert
    { name := "hive"
      version := some 1
      resources := ⟨Table.empty.insert ⟨⟨"database", ()⟩, none⟩, by decide⟩ }

/-- The type with a table below its database, and context enrichers. -/
def hiveVersion (contextEnrichers : List (PlainDef Unit)) : ServiceDef Unit where
  id := some 1
  name := "hive"
  version := some 1
  resources := [{ id := some 1, columns := ⟨"database", ()⟩ },
    { columns := ⟨"table", ()⟩, parent := some "database" }]
  contextEnrichers := contextEnrichers

/-- Adding the table alone. -/
theorem table_added_stored_iff :
    ∃ after left, updateServiceDef hiveDefs {} (hiveVersion []) = .ok (after, left) ∧
      ∃ id existing updated, (hiveVersion []).id = some id ∧ hiveDefs.get? id = some existing ∧
        after.get? id = some updated ∧
          (StoredAsGiven existing (hiveVersion []) updated ↔
            Reconcilable existing (hiveVersion [])) :=
  ⟨_, _, rfl, @updateServiceDef_storedAsGiven_iff _ _ hiveDefs _ {} _ (hiveVersion []) rfl⟩

/-- A context enricher added to a type that is stored already is not stored. -/
theorem added_enricher_lost :
    ∃ after left existing updated,
      updateServiceDef hiveDefs {} (hiveVersion [{ columns := ⟨"geo", ()⟩ }]) =
        .ok (after, left) ∧
      hiveDefs.get? 1 = some existing ∧ after.get? 1 = some updated ∧
      ¬ StoredAsGiven existing (hiveVersion [{ columns := ⟨"geo", ()⟩ }]) updated := by
  refine ⟨_, _, _, _, rfl, rfl, rfl, fun stored => ?_⟩
  exact absurd stored.contextEnrichers.ids.length_eq (by decide)

end Enricher

end ServiceDefUpdate

end Ranger

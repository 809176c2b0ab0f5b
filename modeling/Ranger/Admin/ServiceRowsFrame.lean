import Ranger.Admin.ServiceRows

/-! # What a call leaves as it is of the other services

A search by the name of a service sees the policies of that service. Each call of the
store touches some services; what is downloaded of the others stays the same.
-/

namespace Ranger

open Foundation

namespace ServiceRows

variable {δ β : Type}

section Bearers

variable (rows : ServiceRows δ β)

/-- A service goes by a name. -/
def Bears (serviceName : String) (id : Int) : Prop :=
  ∃ service, rows.services.get? id = some service ∧ service.name = serviceName

/-- The name of a service is a unique key, and its type a foreign one. -/
structure Keyed : Prop where
  unique : ∀ id other service, rows.services.get? id = some service →
    rows.Bears service.name other → other = id
  typed : ∀ id service, rows.services.get? id = some service →
    service.type ∈ rows.serviceDefs.ids

variable {rows}

theorem findService_eq_some {serviceName : String} {id : Int} {service : XXService}
    (found : rows.findService serviceName = some (id, service)) :
    rows.services.get? id = some service ∧ service.name = serviceName := by
  have located := Table.find?_eq_some found
  exact ⟨located.1, beq_iff_eq.mp located.2⟩

theorem findService_eq_none {serviceName : String} (missing : rows.findService serviceName = none)
    (id : Int) : ¬rows.Bears serviceName id := by
  rintro ⟨service, found, rfl⟩
  have apart := Table.find?_eq_none missing found
  exact absurd (beq_self_eq_true service.name) (Bool.eq_false_iff.mp apart)

/-- A service is found by its name. -/
theorem Keyed.findService (keyed : rows.Keyed) {id : Int} {service : XXService}
    (found : rows.services.get? id = some service) :
    rows.findService service.name = some (id, service) := by
  cases located : rows.findService service.name with
  | none => exact absurd ⟨service, found, rfl⟩ (findService_eq_none located id)
  | some entry =>
      obtain ⟨other, row⟩ := entry
      obtain ⟨foundRow, named⟩ := findService_eq_some located
      have same := keyed.unique id other service found ⟨row, foundRow, named⟩
      subst same
      rw [found, Option.some.injEq] at foundRow
      rw [foundRow]

end Bearers

section Readings

/-- After a change of the policies, those of some services are the same, in the same order. -/
def SameFor (some : Int → Prop) (before after : Table (XXPolicy β)) : Prop :=
  ∀ read : Int × XXPolicy β → Option (Int × String × β),
    (∀ entry, ¬some entry.2.service → read entry = none) →
      after.rows.entries.filterMap read = before.rows.entries.filterMap read

theorem SameFor.refl (some : Int → Prop) (policies : Table (XXPolicy β)) :
    SameFor some policies policies := fun _ _ => rfl

theorem SameFor.trans {some : Int → Prop} {first second third : Table (XXPolicy β)}
    (start : SameFor some first second) (rest : SameFor some second third) :
    SameFor some first third :=
  fun read ignores => (rest read ignores).trans (start read ignores)

theorem SameFor.mono {some fewer : Int → Prop} {before after : Table (XXPolicy β)}
    (same : SameFor some before after) (within : ∀ id, fewer id → some id) :
    SameFor fewer before after :=
  fun read ignores => same read fun entry outside => ignores entry fun of => outside (within _ of)

variable [Platform] {rows after : ServiceRows δ β}

/-- What a search makes of a policy. -/
def read (rows : ServiceRows δ β) (serviceName : String) (entry : Int × XXPolicy β) :
    Option (Int × String × β) :=
  if (rows.services.get? entry.2.service).any fun service =>
    ServiceDBStore.passes serviceName service.name
  then some (entry.1, entry.2.name, entry.2.content)
  else none

theorem getServicePolicies_eq (rows : ServiceRows δ β) (serviceName : String) :
    rows.getServicePolicies serviceName =
      rows.policies.rows.entries.filterMap (rows.read serviceName) := rfl

/-- A search by a name that is not empty finds policies of that name only. -/
theorem shown_iff {serviceName : String} (named : serviceName ≠ "") (id : Int) :
    ((rows.services.get? id).any fun service =>
      ServiceDBStore.passes serviceName service.name) = true ↔
        rows.Bears serviceName id ∧ ServiceDBStore.passes serviceName serviceName = true := by
  constructor
  · intro shows
    obtain ⟨service, found, passes⟩ := (Option.any_eq_true _ _).mp shows
    have same : service.name = serviceName := by
      have both := passes
      unfold ServiceDBStore.passes at both
      have filled : serviceName.isEmpty = false := by simpa using named
      rw [filled, Bool.false_or, Bool.and_eq_true] at both
      exact (beq_iff_eq.mp both.2).symm
    exact ⟨⟨service, found, same⟩, by rwa [same] at passes⟩
  · rintro ⟨⟨service, found, rfl⟩, passes⟩
    rw [found]
    exact passes

theorem read_eq_none {serviceName : String} (named : serviceName ≠ "") {entry : Int × XXPolicy β}
    (apart : ¬rows.Bears serviceName entry.2.service) : rows.read serviceName entry = none :=
  if_neg fun shows => apart ((shown_iff named _).mp shows).1

/-- A search sees which services go by its name, and the policies of these. -/
theorem getServicePolicies_congr {serviceName : String} (named : serviceName ≠ "")
    (bearers : ∀ id, after.Bears serviceName id ↔ rows.Bears serviceName id)
    (same : SameFor (rows.Bears serviceName) rows.policies after.policies) :
    after.getServicePolicies serviceName = rows.getServicePolicies serviceName := by
  have reads : after.read serviceName = rows.read serviceName := by
    funext entry
    have shows := (@shown_iff _ _ _ after _ named entry.2.service).trans
      ((and_congr_left' (bearers _)).trans (shown_iff named _).symm)
    exact if_congr shows rfl rfl
  rw [getServicePolicies_eq, getServicePolicies_eq, reads]
  exact same _ fun entry apart => read_eq_none named apart

/-- What the clients of a service are shown is what they were shown before. -/
structure Kept (rows after : ServiceRows δ β) (id : Int) (service : XXService) : Prop where
  row : rows.services.get? id = some service
  policies : service.name ≠ "" →
    after.getServicePolicies service.name = rows.getServicePolicies service.name
  serviceDef : after.serviceDefs.get? service.type = rows.serviceDefs.get? service.type

theorem Kept.refl {id : Int} {service : XXService} (found : rows.services.get? id = some service) :
    Kept rows rows id service := ⟨found, fun _ => rfl, rfl⟩

theorem Kept.trans {between : ServiceRows δ β} {id : Int} {service : XXService}
    (start : Kept rows between id service) (rest : Kept between after id service) :
    Kept rows after id service where
  row := start.row
  policies named := (rest.policies named).trans (start.policies named)
  serviceDef := rest.serviceDef.trans start.serviceDef

end Readings

section Edits

/-- A service with its version bumped. -/
def bump (service : XXService) : XXService :=
  { service with policyVersion := some (bumped service.policyVersion) }

/-- The policies of some services are changed, and one of these is bumped. -/
structure PolicyEdit (touched : List Int) (id : Int) (rows after : ServiceRows δ β) : Prop where
  services : ∀ other, after.services.get? other =
    if other = id then (rows.services.get? id).map bump else rows.services.get? other
  serviceDefs : after.serviceDefs = rows.serviceDefs
  policies : SameFor (· ∉ touched) rows.policies after.policies

variable {rows after : ServiceRows δ β}

theorem PolicyEdit.of_updatePolicyVersion {touched : List Int} {policies : Table (XXPolicy β)}
    (same : SameFor (· ∉ touched) rows.policies policies) (id : Int) :
    PolicyEdit touched id rows
      (({ rows with policies := policies } : ServiceRows δ β).updatePolicyVersion id) := by
  unfold updatePolicyVersion
  cases found : rows.services.get? id with
  | none =>
      refine ⟨fun other => ?_, rfl, same⟩
      by_cases own : other = id
      · rw [if_pos own, own, found, Option.map_none]
      · rw [if_neg own]
  | some service =>
      refine ⟨fun other => ?_, rfl, same⟩
      rw [Table.get?_replace (Table.mem_ids_of_get? found), found]
      rfl

theorem PolicyEdit.bears_iff {touched : List Int} {id : Int}
    (edit : PolicyEdit touched id rows after)
    (serviceName : String) (other : Int) :
    after.Bears serviceName other ↔ rows.Bears serviceName other := by
  unfold Bears
  rw [edit.services other]
  by_cases own : other = id
  · subst own
    rw [if_pos rfl]
    cases rows.services.get? other with
    | none => exact Iff.rfl
    | some service => simp only [Option.map_some, Option.some.injEq, exists_eq_left', bump]
  · rw [if_neg own]

theorem PolicyEdit.keyed {touched : List Int} {id : Int} (edit : PolicyEdit touched id rows after)
    (keyed : rows.Keyed) : after.Keyed := by
  have before : ∀ other service, after.services.get? other = some service →
      ∃ old, rows.services.get? other = some old ∧ old.name = service.name ∧
        old.type = service.type := by
    intro other service found
    rw [edit.services other] at found
    by_cases own : other = id
    · subst own
      rw [if_pos rfl, Option.map_eq_some_iff] at found
      obtain ⟨old, foundOld, rfl⟩ := found
      exact ⟨old, foundOld, rfl, rfl⟩
    · rw [if_neg own] at found
      exact ⟨service, found, rfl, rfl⟩
  constructor
  · intro other another service found bears
    obtain ⟨old, foundOld, sameName, _⟩ := before other service found
    rw [edit.bears_iff, ← sameName] at bears
    exact keyed.unique other another old foundOld bears
  · intro other service found
    obtain ⟨old, foundOld, _, sameType⟩ := before other service found
    rw [edit.serviceDefs, ← sameType]
    exact keyed.typed other old foundOld

/-- The services that are not touched are kept. -/
theorem PolicyEdit.kept [Platform] {touched : List Int} {id : Int}
    (edit : PolicyEdit touched id rows after) (keyed : rows.Keyed) (shown : id ∈ touched)
    {other : Int} (outside : other ∉ touched) {service : XXService}
    (found : after.services.get? other = some service) : Kept rows after other service := by
  have apart : other ≠ id := fun same => outside (same ▸ shown)
  have foundBefore : rows.services.get? other = some service := by
    rwa [edit.services other, if_neg apart] at found
  refine ⟨foundBefore, fun named => ?_, by rw [edit.serviceDefs]⟩
  refine getServicePolicies_congr named (edit.bears_iff _) (edit.policies.mono ?_)
  intro bearer bears touches
  exact outside (keyed.unique other bearer service foundBefore bears ▸ touches)

theorem PolicyEdit.of_createPolicy {policy : GivenPolicy β}
    (created : rows.createPolicy policy = .ok after) :
    ∃ id service, rows.findService policy.service = some (id, service) ∧
      PolicyEdit [id] id rows after := by
  unfold createPolicy at created
  split at created
  · nomatch created
  · next id service found =>
    refine ⟨id, service, found, ?_⟩
    split at created
    · nomatch created
    · split at created
      · nomatch created
      · rw [Except.ok.injEq] at created
        subst created
        refine .of_updatePolicyVersion (fun read ignores => ?_) id
        exact Table.filterMap_insert (ignores _ (not_not_intro List.mem_cons_self))

theorem readPolicy_eq_ok {policyId : Option Int} {id : Int} {row : XXPolicy β} {own : XXService}
    (found : rows.readPolicy policyId = .ok (id, row, own)) :
    policyId = some id ∧ rows.policies.get? id = some row ∧
      rows.services.get? row.service = some own := by
  unfold readPolicy at found
  split at found
  · nomatch found
  · split at found
    · nomatch found
    · next foundRow =>
      split at found
      · nomatch found
      · next foundOwn =>
        cases found
        exact ⟨rfl, foundRow, foundOwn⟩

theorem PolicyEdit.of_updatePolicy [Platform] {policy : GivenPolicy β}
    (updated : rows.updatePolicy policy = .ok after) :
    ∃ policyId row own id service, rows.readPolicy policy.id = .ok (policyId, row, own) ∧
      rows.findService policy.service = some (id, service) ∧
        PolicyEdit [row.service, id] id rows after := by
  unfold updatePolicy at updated
  obtain ⟨⟨policyId, row, own⟩, foundPolicy, updated⟩ := Outcome.bind_eq_ok.mp updated
  obtain ⟨_, foundRow, _⟩ := readPolicy_eq_ok foundPolicy
  dsimp only at updated
  split at updated
  · nomatch updated
  · next id service found =>
    refine ⟨policyId, row, own, id, service, foundPolicy, found, ?_⟩
    split at updated
    · nomatch updated
    · split at updated
      · nomatch updated
      · split at updated
        · nomatch updated
        · rw [Except.ok.injEq] at updated
          subst updated
          refine .of_updatePolicyVersion (fun read ignores => ?_) id
          exact Table.filterMap_replace foundRow
            (ignores _ (not_not_intro List.mem_cons_self))
            (ignores _ (not_not_intro (List.mem_cons_of_mem _ List.mem_cons_self)))

theorem PolicyEdit.of_deletePolicy (keyed : rows.Keyed) {policyId : Int}
    (deleted : rows.deletePolicy policyId = .ok after) :
    ∃ row own, rows.policies.get? policyId = some row ∧
      rows.services.get? row.service = some own ∧
        PolicyEdit [row.service] row.service rows after ∧
          after.policies = rows.policies.remove policyId := by
  unfold deletePolicy at deleted
  obtain ⟨⟨id, row, own⟩, foundPolicy, deleted⟩ := Outcome.bind_eq_ok.mp deleted
  obtain ⟨same, foundRow, foundOwn⟩ := readPolicy_eq_ok foundPolicy
  rw [Option.some.injEq] at same
  subst same
  refine ⟨row, own, foundRow, foundOwn, ?_⟩
  simp only [keyed.findService foundOwn, Except.ok.injEq] at deleted
  subst deleted
  refine ⟨.of_updatePolicyVersion (fun read ignores => ?_) row.service, ?_⟩
  · exact Table.filterMap_remove foundRow (ignores _ (not_not_intro List.mem_cons_self))
  · unfold updatePolicyVersion
    split <;> rfl

end Edits

section Deletions

variable {rows after : ServiceRows δ β}

/-- The policies of a service are gone, and only these. -/
structure Emptied (id : Int) (rows after : ServiceRows δ β) : Prop where
  keyed : after.Keyed
  services : ∀ other, other ≠ id → after.services.get? other = rows.services.get? other
  bears_iff : ∀ serviceName other, after.Bears serviceName other ↔ rows.Bears serviceName other
  serviceDefs : after.serviceDefs = rows.serviceDefs
  policies : SameFor (· ≠ id) rows.policies after.policies

theorem Emptied.trans {id : Int} {between : ServiceRows δ β} (start : Emptied id rows between)
    (rest : Emptied id between after) : Emptied id rows after where
  keyed := rest.keyed
  services other apart := (rest.services other apart).trans (start.services other apart)
  bears_iff serviceName other :=
    (rest.bears_iff serviceName other).trans (start.bears_iff serviceName other)
  serviceDefs := rest.serviceDefs.trans start.serviceDefs
  policies := start.policies.trans rest.policies

theorem PolicyEdit.emptied {id : Int} (edit : PolicyEdit [id] id rows after)
    (keyed : rows.Keyed) : Emptied id rows after where
  keyed := edit.keyed keyed
  services other apart := by rw [edit.services other, if_neg apart]
  bears_iff := edit.bears_iff
  serviceDefs := edit.serviceDefs
  policies := edit.policies.mono fun _ apart => mt List.mem_singleton.mp apart

/-- The deletion of policies of one service, one after another. -/
theorem Emptied.of_foldlM {id : Int} (policyIds : List Int) (keyed : rows.Keyed)
    (own : ∀ policyId ∈ policyIds, ∀ row, rows.policies.get? policyId = some row →
      row.service = id)
    (deleted : policyIds.foldlM deletePolicy rows = .ok after) : Emptied id rows after := by
  induction policyIds generalizing rows with
  | nil =>
      cases deleted
      exact ⟨keyed, fun _ _ => rfl, fun _ _ => Iff.rfl, rfl, .refl _ _⟩
  | cons policyId rest ih =>
      rw [List.foldlM_cons] at deleted
      obtain ⟨between, first, deleted⟩ := Outcome.bind_eq_ok.mp deleted
      obtain ⟨row, _, foundRow, _, edit, policies⟩ := PolicyEdit.of_deletePolicy keyed first
      have owner := own policyId List.mem_cons_self row foundRow
      subst owner
      have start := edit.emptied keyed
      refine start.trans (ih start.keyed ?_ deleted)
      intro other later otherRow found
      rw [policies, Table.get?_remove] at found
      by_cases same : other = policyId
      · rw [if_pos same] at found
        nomatch found
      · rw [if_neg same] at found
        exact own other (List.mem_cons_of_mem _ later) otherRow found

theorem mem_policiesOf {id policyId : Int} (listed : policyId ∈ rows.policiesOf id)
    {row : XXPolicy β} (found : rows.policies.get? policyId = some row) : row.service = id := by
  obtain ⟨entry, member, rfl⟩ := List.mem_map.mp listed
  obtain ⟨stored, own⟩ := List.mem_filter.mp member
  rw [Table.get?_eq_some_iff.mpr stored, Option.some.injEq] at found
  subst found
  exact beq_iff_eq.mp own

theorem mem_servicesOf {id type : Int} {service : XXService}
    (found : rows.services.get? id = some service) (typed : service.type = type) :
    id ∈ rows.servicesOf type :=
  List.mem_map.mpr
    ⟨(id, service), List.mem_filter.mpr ⟨Table.get?_eq_some_iff.mp found,
      beq_iff_eq.mpr typed⟩, rfl⟩

theorem Keyed.of_fewer (keyed : rows.Keyed) (serviceDefs : after.serviceDefs = rows.serviceDefs)
    (fewer : ∀ id service, after.services.get? id = some service →
      rows.services.get? id = some service) : after.Keyed where
  unique := by
    rintro id other service found ⟨another, foundAnother, named⟩
    exact keyed.unique id other service (fewer _ _ found) ⟨another, fewer _ _ foundAnother, named⟩
  typed id service found := serviceDefs ▸ keyed.typed id service (fewer _ _ found)

variable [Platform]

/-- Services are deleted, and the others are kept. -/
structure Deleted (ids : List Int) (rows after : ServiceRows δ β) : Prop where
  serviceDefs : after.serviceDefs = rows.serviceDefs
  gone : ∀ id ∈ ids, after.services.get? id = none
  kept : ∀ id service, after.services.get? id = some service → Kept rows after id service

theorem Deleted.of_deleteService (keyed : rows.Keyed) {id : Int}
    (deleted : rows.deleteService id = .ok after) : Deleted [id] rows after := by
  unfold deleteService at deleted
  split at deleted
  · nomatch deleted
  · next existing foundExisting =>
    obtain ⟨between, emptied, deleted⟩ := Outcome.bind_eq_ok.mp deleted
    cases deleted
    have emptied := Emptied.of_foldlM _ keyed (fun _ listed _ => mem_policiesOf listed) emptied
    have read : ∀ other, (between.services.remove id).get? other =
        if other = id then none else rows.services.get? other := by
      intro other
      rw [Table.get?_remove]
      by_cases same : other = id
      · rw [if_pos same, if_pos same]
      · rw [if_neg same, if_neg same, emptied.services other same]
    refine ⟨emptied.serviceDefs, ?_, ?_⟩
    · intro other listed
      rw [List.mem_singleton.mp listed, read id, if_pos rfl]
    · intro other service found
      have apart : other ≠ id := by
        intro same
        rw [read other, if_pos same] at found
        nomatch found
      have foundBefore : rows.services.get? other = some service := by
        rwa [read other, if_neg apart] at found
      have outside : ¬rows.Bears service.name id := fun bears =>
        apart (keyed.unique other id service foundBefore bears).symm
      refine ⟨foundBefore, fun named => ?_, by rw [emptied.serviceDefs]⟩
      refine getServicePolicies_congr named ?_ (emptied.policies.mono ?_)
      · intro bearer
        unfold Bears
        rw [read bearer]
        by_cases same : bearer = id
        · subst same
          simp only [↓reduceIte, reduceCtorEq, false_and, exists_false, false_iff]
          exact outside
        · rw [if_neg same]
      · exact fun bearer bears same => outside (same ▸ bears)

theorem Deleted.of_foldlM (ids : List Int) (keyed : rows.Keyed)
    (deleted : ids.foldlM deleteService rows = .ok after) : Deleted ids rows after := by
  induction ids generalizing rows with
  | nil =>
      cases deleted
      exact ⟨rfl, nofun, fun _ _ found => .refl found⟩
  | cons id rest ih =>
      rw [List.foldlM_cons] at deleted
      obtain ⟨between, first, deleted⟩ := Outcome.bind_eq_ok.mp deleted
      have start := Deleted.of_deleteService keyed first
      have tail := ih (keyed.of_fewer start.serviceDefs fun _ _ found => (start.kept _ _ found).row)
        deleted
      refine ⟨tail.serviceDefs.trans start.serviceDefs, ?_, ?_⟩
      · intro other listed
        obtain rfl | later := List.mem_cons.mp listed
        · cases found : after.services.get? other with
          | none => rfl
          | some service =>
              have foundBetween := (tail.kept other service found).row
              rw [start.gone other List.mem_cons_self] at foundBetween
              nomatch foundBetween
        · exact tail.gone other later
      · intro other service found
        have later := tail.kept other service found
        exact (start.kept other service later.row).trans later

end Deletions

section Services

variable {rows : ServiceRows δ β}

theorem findServiceDef_mem {name : String} {type : Int} {serviceDef : XXServiceDef δ}
    (found : rows.findServiceDef name = some (type, serviceDef)) : type ∈ rows.serviceDefs.ids :=
  Table.mem_ids_of_get? (Table.find?_eq_some found).1

/-- The rows with a service more. -/
def withService (rows : ServiceRows δ β) (service : XXService) : ServiceRows δ β :=
  { rows with services := rows.services.insert service }

theorem createService_eq_ok {after : ServiceRows δ β} {service : RangerService} {time : String}
    {defaultPolicy : β} (created : rows.createService service time defaultPolicy = .ok after) :
    ∃ type serviceDef, rows.findServiceDef service.type = some (type, serviceDef) ∧
      rows.findService service.name = none ∧
        (rows.withService ⟨service.name, type, service.policyVersion⟩).createPolicy
          { service := service.name
            name := service.name ++ "-1-" ++ time
            content := defaultPolicy } = .ok after := by
  unfold createService at created
  split at created
  · nomatch created
  · next type serviceDef foundType =>
    split at created
    · nomatch created
    · next free => exact ⟨type, serviceDef, foundType, free, created⟩

theorem bears_withService_iff {service : XXService} {serviceName : String}
    (apart : service.name ≠ serviceName) (id : Int) :
    (rows.withService service).Bears serviceName id ↔ rows.Bears serviceName id := by
  unfold Bears withService
  rw [Table.get?_insert]
  by_cases new : id = rows.services.next
  · subst new
    have free := Table.get?_eq_none_iff.mpr rows.services.next_not_mem
    simp only [↓reduceIte, Option.some.injEq, exists_eq_left', apart, free, reduceCtorEq,
      false_and, exists_false]
  · rw [if_neg new]

theorem Keyed.withService (keyed : rows.Keyed) {service : XXService}
    (free : rows.findService service.name = none) (typed : service.type ∈ rows.serviceDefs.ids) :
    (rows.withService service).Keyed := by
  have unused := findService_eq_none free
  constructor
  · rintro id other current found bears
    have read := Table.get?_insert rows.services service
    by_cases new : id = rows.services.next
    · obtain ⟨another, foundAnother, named⟩ := bears
      have own : service = current := by
        simpa only [ServiceRows.withService, read, new, ↓reduceIte, Option.some.injEq] using found
      subst own
      by_cases newOther : other = rows.services.next
      · rw [new, newOther]
      · simp only [ServiceRows.withService, read, newOther, ↓reduceIte] at foundAnother
        exact absurd ⟨another, foundAnother, named⟩ (unused other)
    · have foundOld : rows.services.get? id = some current := by
        simpa only [ServiceRows.withService, read, new, ↓reduceIte] using found
      have apart : service.name ≠ current.name :=
        fun same => unused id ⟨current, foundOld, same.symm⟩
      exact keyed.unique id other current foundOld ((bears_withService_iff apart other).mp bears)
  · intro id current found
    simp only [ServiceRows.withService, Table.get?_insert] at found
    by_cases new : id = rows.services.next
    · rw [if_pos new, Option.some.injEq] at found
      exact found ▸ typed
    · rw [if_neg new] at found
      exact keyed.typed id current found

theorem Kept.of_withService [Platform] {service : XXService}
    (free : rows.findService service.name = none) {id : Int} (old : id ≠ rows.services.next)
    {current : XXService} (found : (rows.withService service).services.get? id = some current) :
    Kept rows (rows.withService service) id current := by
  have foundOld : rows.services.get? id = some current := by
    simpa only [withService, Table.get?_insert, old, ↓reduceIte] using found
  have apart : service.name ≠ current.name := fun same =>
    findService_eq_none free id ⟨current, foundOld, same.symm⟩
  refine ⟨foundOld, fun named => ?_, rfl⟩
  exact getServicePolicies_congr named (bears_withService_iff apart) (.refl _ _)

/-- The rows with a service written over. -/
def overService (rows : ServiceRows δ β) (id : Int) (service : XXService) : ServiceRows δ β :=
  { rows with services := rows.services.replace id service }

variable {id : Int} {existing service : XXService}

theorem updateService_eq_ok [Platform] {after : ServiceRows δ β} {given : RangerService}
    (updated : rows.updateService given = .ok after) :
    ∃ existing type serviceDef, rows.services.get? given.id = some existing ∧
      rows.findServiceDef given.type = some (type, serviceDef) ∧
        (given.name = existing.name ∨ rows.findService given.name = none) ∧
          after = rows.overService given.id ⟨given.name, type, given.policyVersion⟩ := by
  unfold updateService at updated
  split at updated
  · nomatch updated
  · next existing present =>
    dsimp only at updated
    split at updated
    · nomatch updated
    · split at updated
      · nomatch updated
      · next type serviceDef foundType =>
        split at updated
        · nomatch updated
        · next unclashing =>
          rw [Except.ok.injEq] at updated
          refine ⟨existing, type, serviceDef, present, foundType, ?_, updated.symm⟩
          by_cases same : given.name = existing.name
          · exact .inl same
          · exact .inr (Option.not_isSome_iff_eq_none.mp fun clash => unclashing ⟨same, clash⟩)

theorem get?_overService (present : rows.services.get? id = some existing) (other : Int) :
    (rows.overService id service).services.get? other =
      if other = id then some service else rows.services.get? other :=
  Table.get?_replace (Table.mem_ids_of_get? present) service other

theorem bears_overService_iff (present : rows.services.get? id = some existing)
    {serviceName : String} (apart : existing.name ≠ serviceName)
    (apartNew : service.name ≠ serviceName)
    (other : Int) :
    (rows.overService id service).Bears serviceName other ↔ rows.Bears serviceName other := by
  unfold Bears
  rw [get?_overService present]
  by_cases own : other = id
  · subst own
    simp only [↓reduceIte, Option.some.injEq, exists_eq_left', apartNew, present, apart]
  · rw [if_neg own]

theorem Keyed.overService (keyed : rows.Keyed) (present : rows.services.get? id = some existing)
    (free : service.name = existing.name ∨ rows.findService service.name = none)
    (typed : service.type ∈ rows.serviceDefs.ids) : (rows.overService id service).Keyed := by
  have others : ∀ other, rows.Bears service.name other → other = id := by
    intro other bears
    obtain same | unused := free
    · exact keyed.unique id other existing present (same ▸ bears)
    · exact absurd bears (findService_eq_none unused other)
  constructor
  · rintro other another current found ⟨bearer, foundBearer, named⟩
    rw [get?_overService present] at found foundBearer
    by_cases own : other = id <;> by_cases ownAnother : another = id
    · rw [own, ownAnother]
    · rw [if_pos own, Option.some.injEq] at found
      rw [if_neg ownAnother] at foundBearer
      subst found
      exact absurd (others another ⟨bearer, foundBearer, named⟩) ownAnother
    · rw [if_neg own] at found
      rw [if_pos ownAnother, Option.some.injEq] at foundBearer
      subst foundBearer
      exact absurd (others other ⟨current, found, named.symm⟩) own
    · rw [if_neg own] at found
      rw [if_neg ownAnother] at foundBearer
      exact keyed.unique other another current found ⟨bearer, foundBearer, named⟩
  · intro other current found
    rw [get?_overService present] at found
    by_cases own : other = id
    · rw [if_pos own, Option.some.injEq] at found
      exact found ▸ typed
    · rw [if_neg own] at found
      exact keyed.typed other current found

/-- The other services are kept when the name written is not theirs. -/
theorem Kept.of_overService [Platform] (keyed : rows.Keyed)
    (present : rows.services.get? id = some existing)
    (keyedAfter : (rows.overService id service).Keyed) {other : Int} (apart : other ≠ id)
    {current : XXService}
    (found : (rows.overService id service).services.get? other = some current) :
    Kept rows (rows.overService id service) other current := by
  have foundOld : rows.services.get? other = some current := by
    rwa [get?_overService present, if_neg apart] at found
  have unlike : existing.name ≠ current.name := fun same =>
    apart (keyed.unique other id current foundOld ⟨existing, present, same⟩).symm
  have unlikeNew : service.name ≠ current.name := by
    intro same
    have own : (rows.overService id service).services.get? id = some service := by
      rw [get?_overService present, if_pos rfl]
    exact apart (keyedAfter.unique other id current found ⟨service, own, same⟩).symm
  refine ⟨foundOld, fun named => ?_, rfl⟩
  exact getServicePolicies_congr named (bears_overService_iff present unlike unlikeNew) (.refl _ _)

/-- A service written over as it was is kept. -/
theorem Kept.of_same [Platform] (present : rows.services.get? id = some service) :
    Kept rows (rows.overService id service) id service := by
  refine ⟨present, fun named => ?_, rfl⟩
  refine getServicePolicies_congr named (fun other => ?_) (.refl _ _)
  unfold Bears
  rw [get?_overService present]
  by_cases own : other = id
  · rw [if_pos own, own, present]
  · rw [if_neg own]

end Services

section ServiceDefs

variable {rows after : ServiceRows δ β}

theorem createServiceDef_eq {serviceDef : ServiceDef δ}
    (made : rows.createServiceDef serviceDef = .ok after) :
    ∃ created, after = { rows with serviceDefs := rows.serviceDefs.insert created } := by
  unfold createServiceDef at made
  obtain ⟨serviceDefs, stored, rfl⟩ := Outcome.map_eq_ok.mp made
  unfold ServiceDefUpdate.createServiceDef at stored
  split at stored
  · nomatch stored
  · obtain ⟨_, _, stored⟩ := Outcome.bind_eq_ok.mp stored
    obtain ⟨_, _, stored⟩ := Outcome.bind_eq_ok.mp stored
    obtain ⟨_, _, stored⟩ := Outcome.bind_eq_ok.mp stored
    obtain ⟨_, _, stored⟩ := Outcome.bind_eq_ok.mp stored
    obtain ⟨_, _, stored⟩ := Outcome.bind_eq_ok.mp stored
    obtain ⟨_, _, stored⟩ := Outcome.bind_eq_ok.mp stored
    obtain ⟨_, _, stored⟩ := Outcome.bind_eq_ok.mp stored
    rw [Except.ok.injEq] at stored
    subst stored
    exact ⟨_, rfl⟩

variable [Platform]

theorem updateServiceDef_eq {references : PolicyReferences} {cascade : β → β}
    {serviceDef : ServiceDef δ}
    (made : rows.updateServiceDef references cascade serviceDef = .ok after) :
    ∃ id updated, serviceDef.id = some id ∧ id ∈ rows.serviceDefs.ids ∧
      after =
        { rows with
          serviceDefs := rows.serviceDefs.replace id updated
          policies := rows.policies.mapRows fun row =>
            if (rows.services.get? row.service).any fun service => some service.type == some id
            then { row with content := cascade row.content }
            else row } := by
  unfold updateServiceDef at made
  obtain ⟨⟨serviceDefs, _⟩, stored, rfl⟩ := Outcome.map_eq_ok.mp made
  unfold ServiceDefUpdate.updateServiceDef at stored
  split at stored
  · nomatch stored
  · next id given =>
    split at stored
    · nomatch stored
    · next existing found =>
      dsimp only at stored
      split at stored
      · nomatch stored
      · obtain ⟨⟨updated, _⟩, _, stored⟩ := Outcome.bind_eq_ok.mp stored
        cases stored
        exact ⟨id, updated, given, Table.mem_ids_of_get? found, by rw [given]⟩

/-- A new type changes nothing for the services there are. -/
theorem Kept.of_createServiceDef (keyed : rows.Keyed) {serviceDef : ServiceDef δ}
    (made : rows.createServiceDef serviceDef = .ok after) :
    after.Keyed ∧ ∀ id service, after.services.get? id = some service →
      Kept rows after id service := by
  obtain ⟨created, rfl⟩ := createServiceDef_eq made
  refine ⟨⟨keyed.unique, fun id service found => ?_⟩,
    fun id service found => ⟨found, fun _ => rfl, ?_⟩⟩
  · exact (Table.ids_insert rows.serviceDefs created).symm ▸
      List.mem_append_left _ (keyed.typed id service found)
  · have old : service.type ≠ rows.serviceDefs.next := fun same =>
      rows.serviceDefs.next_not_mem (same ▸ keyed.typed id service found)
    rw [Table.get?_insert, if_neg old]

/-- An update of a type changes nothing for the services of other types. -/
theorem Kept.of_updateServiceDef (keyed : rows.Keyed) {references : PolicyReferences}
    {cascade : β → β} {serviceDef : ServiceDef δ}
    (made : rows.updateServiceDef references cascade serviceDef = .ok after) :
    after.Keyed ∧ after.services = rows.services ∧
      ∀ id service, after.services.get? id = some service → some service.type ≠ serviceDef.id →
        Kept rows after id service := by
  obtain ⟨updatedId, updated, given, present, rfl⟩ := updateServiceDef_eq made
  refine ⟨⟨keyed.unique, fun id service found => ?_⟩, rfl, fun id service found other => ?_⟩
  · exact (Table.ids_replace rows.serviceDefs updatedId updated).symm ▸ keyed.typed id service found
  · have apart : service.type ≠ updatedId := fun same => other (by rw [given, same])
    refine ⟨found, fun named => ?_, ?_⟩
    · refine getServicePolicies_congr named (fun _ => Iff.rfl) fun read ignores => ?_
      refine Table.filterMap_mapRows fun entry _ => ?_
      by_cases bears : rows.Bears service.name entry.2.service
      · have own := keyed.unique id entry.2.service service found bears
        rw [own, found, Option.any_some, if_neg (by simpa using apart)]
      · rw [ignores entry bears]
        refine ignores _ ?_
        split <;> exact bears
    · exact Table.get?_replace_of_ne apart updated

/-- The deletion of a type takes its services along, and the others are kept. -/
theorem Kept.of_deleteServiceDef (keyed : rows.Keyed) {typeId : Int} {forceDelete : Bool}
    (deleted : rows.deleteServiceDef typeId forceDelete = .ok after) :
    after.Keyed ∧ ∀ id service, after.services.get? id = some service →
      Kept rows after id service := by
  unfold deleteServiceDef at deleted
  split at deleted
  · nomatch deleted
  · split at deleted
    · nomatch deleted
    · obtain ⟨between, emptied, deleted⟩ := Outcome.bind_eq_ok.mp deleted
      cases deleted
      have emptied := Deleted.of_foldlM _ keyed emptied
      have untyped : ∀ id service, between.services.get? id = some service →
          service.type ≠ typeId := by
        intro id service found typed
        have gone := emptied.gone id (mem_servicesOf (emptied.kept id service found).row typed)
        rw [found] at gone
        nomatch gone
      have keyedBetween := keyed.of_fewer emptied.serviceDefs fun id service found =>
        (emptied.kept id service found).row
      refine ⟨⟨keyedBetween.unique, fun id service found => ?_⟩, fun id service found => ?_⟩
      · rw [Table.ids_remove]
        exact List.mem_filter.mpr
          ⟨keyedBetween.typed id service found, bne_iff_ne.mpr (untyped id service found)⟩
      · refine (emptied.kept id service found).trans ⟨found, fun _ => rfl, ?_⟩
        rw [Table.get?_remove, if_neg (untyped id service found)]

end ServiceDefs

end ServiceRows

end Ranger

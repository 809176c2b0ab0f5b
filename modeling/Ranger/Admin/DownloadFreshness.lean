import Ranger.Admin.ServiceRowsFrame

/-! # Whether a client that is told nothing holds what is stored

A client keeps what it downloaded while the service shows the version it downloaded.
The versions of a service have to move with every change of its policies and its type,
and never back; the steps that do not see to this are singled out.
-/

namespace Ranger

open Foundation ServiceRows

variable {δ β : Type}

/-- The type of a service, by the name of the service. -/
def ServiceRows.typeOf (rows : ServiceRows δ β) (serviceName : String) :
    Option (Int × XXServiceDef δ) := do
  let (_, service) ← rows.findService serviceName
  let serviceDef ← rows.serviceDefs.get? service.type
  some (service.type, serviceDef)

/-- A client that asks with the version of a download and is told nothing has what is stored. -/
def ServiceDownload.Fresh [Platform] (download : ServiceDownload δ β) (rows : ServiceRows δ β) :
    Prop :=
  rows.getServicePoliciesIfUpdated download.serviceName download.policyVersion = .ok none →
    rows.getServicePolicies download.serviceName = download.policies ∧
      rows.typeOf download.serviceName = some download.serviceDef

namespace StoreHistory

section Conditions

variable (history : StoreHistory δ β)

/-- A version is above all that were downloaded under a name. -/
def Ahead (serviceName : String) (policyVersion : Option Int) : Prop :=
  ∀ download ∈ history.downloads, download.serviceName = serviceName →
    ∀ old ∈ download.policyVersion, ∃ current ∈ policyVersion, old < current

/-- The version of a service is not the greatest there is, or nobody has one. -/
def HasRoom (service : XXService) : Prop :=
  service.policyVersion = some 9223372036854775807 →
    ∀ download ∈ history.downloads, download.serviceName = service.name →
      download.policyVersion = none

instance (serviceName : String) (policyVersion : Option Int) :
    Decidable (history.Ahead serviceName policyVersion) :=
  inferInstanceAs (Decidable (∀ download ∈ history.downloads, download.serviceName = serviceName →
    ∀ old ∈ download.policyVersion, ∃ current ∈ policyVersion, old < current))

instance (service : XXService) : Decidable (history.HasRoom service) :=
  inferInstanceAs (Decidable (service.policyVersion = some 9223372036854775807 →
    ∀ download ∈ history.downloads, download.serviceName = service.name →
      download.policyVersion = none))

/-- What a call that succeeds has to see to: the services it changes show versions that
are above those downloaded under their names. -/
def MovesAhead : StoreCall δ β → Prop
  -- nothing is bumped here
  | .updateServiceDef _ _ serviceDef =>
      ∀ entry ∈ history.rows.services.rows.entries, some entry.2.type = serviceDef.id →
        history.Ahead entry.2.name entry.2.policyVersion
  | .createService service _ _ => history.Ahead service.name (some (bumped service.policyVersion))
  | .updateService service =>
      ∀ found ∈ history.rows.findServiceDef service.type,
        history.rows.services.get? service.id =
            some ⟨service.name, found.1, service.policyVersion⟩ ∨
          history.Ahead service.name service.policyVersion
  | .createPolicy policy =>
      ∀ found ∈ history.rows.findService policy.service, history.HasRoom found.2
  -- the service that is bumped is the one named, and may not be the one that had the policy
  | .updatePolicy policy =>
      (∀ found ∈ history.rows.findService policy.service, history.HasRoom found.2) ∧
        ∀ stored ∈ (history.rows.readPolicy policy.id).toOption,
          stored.2.2.name = policy.service ∨
            history.Ahead stored.2.2.name stored.2.2.policyVersion
  | .deletePolicy id =>
      ∀ stored ∈ (history.rows.readPolicy (some id)).toOption, history.HasRoom stored.2.2
  | .createServiceDef _ | .deleteServiceDef _ _ | .deleteService _ => True

instance (call : StoreCall δ β) : Decidable (history.MovesAhead call) := by
  cases call <;> unfold MovesAhead <;> infer_instance

end Conditions

/-- The events that keep clients from being told nothing of a change. A search by the
empty name finds the policies of every service. -/
def KeepsFresh [Platform] (history : StoreHistory δ β) : StoreEvent δ β → Prop
  | .call call => (perform history.rows call).toOption.isSome → history.MovesAhead call
  | .download serviceName _ => serviceName = "" → history.rows.findService serviceName = none

instance [Platform] (history : StoreHistory δ β) (event : StoreEvent δ β) :
    Decidable (history.KeepsFresh event) := by
  cases event <;> unfold KeepsFresh <;> infer_instance

section Invariant

variable [Platform]

/-- What was downloaded is what is stored of a service. -/
structure Holds (rows : ServiceRows δ β) (service : XXService) (download : ServiceDownload δ β) :
    Prop where
  policies : rows.getServicePolicies download.serviceName = download.policies
  type : service.type = download.serviceDef.1
  serviceDef : rows.serviceDefs.get? service.type = some download.serviceDef.2

/-- No version that was downloaded is above the version of the service, and the one
that is the version of the service came with what is stored. -/
structure Sound (history : StoreHistory δ β) : Prop where
  keyed : history.rows.Keyed
  named : ∀ download ∈ history.downloads, download.serviceName ≠ ""
  current : ∀ download ∈ history.downloads, ∀ id service,
    history.rows.services.get? id = some service → service.name = download.serviceName →
      ∀ old ∈ download.policyVersion, ∃ current ∈ service.policyVersion,
        old ≤ current ∧ (old = current → Holds history.rows service download)

theorem Sound.empty : Sound ({} : StoreHistory δ β) where
  keyed :=
    { unique := by
        intro id other service found
        nomatch found
      typed := by
        intro id service found
        nomatch found }
  named _ listed := nomatch listed
  current _ listed := nomatch listed

variable {history : StoreHistory δ β}

theorem Kept.holds {after : ServiceRows δ β} {id : Int} {service : XXService}
    (kept : Kept history.rows after id service) {download : ServiceDownload δ β}
    (named : download.serviceName ≠ "") (own : service.name = download.serviceName)
    (holds : Holds history.rows service download) : Holds after service download where
  policies := by
    rw [← holds.policies, ← own]
    exact kept.policies (own ▸ named)
  type := holds.type
  serviceDef := kept.serviceDef.trans holds.serviceDef

/-- **Versions and changes.** A call that keeps each service, or leaves it with a version
above those downloaded under its name, keeps the downloads sound. -/
theorem Sound.of_kept_or_ahead (sound : Sound history) {after : ServiceRows δ β}
    (keyed : after.Keyed)
    (services : ∀ id service, after.services.get? id = some service →
      Kept history.rows after id service ∨ history.Ahead service.name service.policyVersion) :
    Sound { history with rows := after } where
  keyed := keyed
  named := sound.named
  current := by
    intro download listed id service found own old version
    obtain kept | ahead := services id service found
    · obtain ⟨current, shown, upTo, holds⟩ :=
        sound.current download listed id service kept.row own old version
      exact ⟨current, shown, upTo, fun same =>
        Kept.holds kept (sound.named download listed) own (holds same)⟩
    · obtain ⟨current, shown, below⟩ := ahead download listed own.symm old version
      exact ⟨current, shown, below.le, fun same => absurd same below.ne⟩

/-- A bumped version is above those that were downloaded. -/
theorem Sound.ahead_bump (sound : Sound history) {id : Int} {service : XXService}
    (found : history.rows.services.get? id = some service) (room : history.HasRoom service) :
    history.Ahead (bump service).name (bump service).policyVersion := by
  intro download listed own old version
  obtain ⟨current, shown, upTo, _⟩ :=
    sound.current download listed id service found own.symm old version
  refine ⟨bumped service.policyVersion, rfl, ?_⟩
  have limit : current ≠ 9223372036854775807 := by
    rintro rfl
    have unversioned := room shown download listed own
    rw [unversioned] at version
    nomatch version
  rw [Option.mem_def.mp shown]
  simp only [bumped, longSucc, limit, ↓reduceIte]
  omega

/-- A change of policies keeps the downloads sound when the services touched, but the
one bumped, are ahead. -/
theorem Sound.of_policyEdit (sound : Sound history) {touched : List Int} {id : Int}
    {after : ServiceRows δ β} (edit : PolicyEdit touched id history.rows after)
    (shown : id ∈ touched) {service : XXService}
    (found : history.rows.services.get? id = some service) (room : history.HasRoom service)
    (others : ∀ other ∈ touched, other ≠ id → ∀ current,
      history.rows.services.get? other = some current →
        history.Ahead current.name current.policyVersion) :
    Sound { history with rows := after } := by
  refine sound.of_kept_or_ahead (edit.keyed sound.keyed) fun other current foundAfter => ?_
  by_cases inside : other ∈ touched
  · refine .inr ?_
    rw [edit.services other] at foundAfter
    by_cases own : other = id
    · rw [if_pos own, found, Option.map_some, Option.some.injEq] at foundAfter
      exact foundAfter ▸ sound.ahead_bump found room
    · rw [if_neg own] at foundAfter
      exact others other inside own current foundAfter
  · exact .inl (edit.kept sound.keyed shown inside foundAfter)

theorem Sound.of_createPolicy (sound : Sound history) {policy : GivenPolicy β}
    {after : ServiceRows δ β} (created : history.rows.createPolicy policy = .ok after)
    (ahead : history.MovesAhead (.createPolicy policy)) : Sound { history with rows := after } := by
  obtain ⟨id, service, found, edit⟩ := PolicyEdit.of_createPolicy created
  refine sound.of_policyEdit edit List.mem_cons_self (findService_eq_some found).1
    (ahead _ found) fun other listed apart => ?_
  exact absurd (List.mem_singleton.mp listed) apart

theorem Sound.of_updatePolicy (sound : Sound history) {policy : GivenPolicy β}
    {after : ServiceRows δ β} (updated : history.rows.updatePolicy policy = .ok after)
    (ahead : history.MovesAhead (.updatePolicy policy)) : Sound { history with rows := after } := by
  obtain ⟨policyId, row, own, id, service, stored, found, edit⟩ :=
    PolicyEdit.of_updatePolicy updated
  obtain ⟨_, _, foundOwn⟩ := readPolicy_eq_ok stored
  obtain ⟨foundService, named⟩ := findService_eq_some found
  refine sound.of_policyEdit edit (List.mem_cons_of_mem _ List.mem_cons_self) foundService
    (ahead.1 _ found) fun other listed apart current foundOther => ?_
  have old : other = row.service := by
    obtain rfl | later := List.mem_cons.mp listed
    · rfl
    · exact absurd (List.mem_singleton.mp later) apart
  subst old
  rw [foundOwn, Option.some.injEq] at foundOther
  subst foundOther
  have read : (history.rows.readPolicy policy.id).toOption = some (policyId, row, own) := by
    rw [stored]
    rfl
  obtain same | above := ahead.2 _ read
  · have bearer : history.rows.Bears service.name row.service :=
      ⟨own, foundOwn, same.trans named.symm⟩
    exact absurd (sound.keyed.unique id row.service service foundService bearer) apart
  · exact above

theorem Sound.of_deletePolicy (sound : Sound history) {policyId : Int}
    {after : ServiceRows δ β} (deleted : history.rows.deletePolicy policyId = .ok after)
    (ahead : history.MovesAhead (.deletePolicy policyId)) :
    Sound { history with rows := after } := by
  obtain ⟨row, own, foundRow, foundOwn, edit, _⟩ := PolicyEdit.of_deletePolicy sound.keyed deleted
  have read : (history.rows.readPolicy (some policyId)).toOption = some (policyId, row, own) := by
    simp only [readPolicy, foundRow, foundOwn]
    rfl
  refine sound.of_policyEdit edit List.mem_cons_self foundOwn (ahead _ read)
    fun other listed apart => ?_
  exact absurd (List.mem_singleton.mp listed) apart

theorem Sound.of_createService (sound : Sound history) {service : RangerService} {time : String}
    {defaultPolicy : β} {after : ServiceRows δ β}
    (created : history.rows.createService service time defaultPolicy = .ok after)
    (ahead : history.MovesAhead (.createService service time defaultPolicy)) :
    Sound { history with rows := after } := by
  obtain ⟨type, serviceDef, foundType, free, created⟩ := createService_eq_ok created
  obtain ⟨id, row, found, edit⟩ := PolicyEdit.of_createPolicy created
  have keyed := @Keyed.withService _ _ _ sound.keyed
    ⟨service.name, type, service.policyVersion⟩ free (findServiceDef_mem foundType)
  have inserted := Table.get?_insert history.rows.services
    ⟨service.name, type, service.policyVersion⟩ history.rows.services.next
  rw [if_pos rfl] at inserted
  have located := (keyed.findService inserted).symm.trans found
  rw [Option.some.injEq, Prod.mk.injEq] at located
  obtain ⟨rfl, rfl⟩ := located
  refine sound.of_kept_or_ahead (edit.keyed keyed) fun other current foundAfter => ?_
  by_cases own : other = history.rows.services.next
  · rw [edit.services other, if_pos own] at foundAfter
    obtain ⟨new, foundNew, rfl⟩ := Option.map_eq_some_iff.mp foundAfter
    have same := Option.some.inj (inserted.symm.trans foundNew)
    exact .inr (same ▸ ahead)
  · have outside : other ∉ [history.rows.services.next] := mt List.mem_singleton.mp own
    have later := edit.kept keyed List.mem_cons_self outside foundAfter
    exact .inl ((Kept.of_withService free own later.row).trans later)

theorem Sound.of_updateService (sound : Sound history) {service : RangerService}
    {after : ServiceRows δ β} (updated : history.rows.updateService service = .ok after)
    (ahead : history.MovesAhead (.updateService service)) :
    Sound { history with rows := after } := by
  obtain ⟨existing, type, serviceDef, present, foundType, free, rfl⟩ := updateService_eq_ok updated
  have keyed := @Keyed.overService _ _ _ _ _ ⟨service.name, type, service.policyVersion⟩
    sound.keyed present free (findServiceDef_mem foundType)
  refine sound.of_kept_or_ahead keyed fun other current foundAfter => ?_
  by_cases own : other = service.id
  · subst own
    rw [get?_overService present, if_pos rfl, Option.some.injEq] at foundAfter
    subst foundAfter
    exact (ahead _ foundType).imp_left Kept.of_same
  · exact .inl (Kept.of_overService sound.keyed present keyed own foundAfter)

theorem Sound.of_updateServiceDef (sound : Sound history) {references : PolicyReferences}
    {cascade : β → β} {serviceDef : ServiceDef δ} {after : ServiceRows δ β}
    (updated : history.rows.updateServiceDef references cascade serviceDef = .ok after)
    (ahead : history.MovesAhead (.updateServiceDef references cascade serviceDef)) :
    Sound { history with rows := after } := by
  obtain ⟨keyed, same, kept⟩ := Kept.of_updateServiceDef sound.keyed updated
  refine sound.of_kept_or_ahead keyed fun id service found => ?_
  by_cases typed : some service.type = serviceDef.id
  · rw [same] at found
    exact .inr (ahead (id, service) (Table.get?_eq_some_iff.mp found) typed)
  · exact .inl (kept id service found typed)

/-- **Calls.** A call that succeeds and moves ahead keeps the downloads sound. -/
theorem Sound.perform (sound : Sound history) {call : StoreCall δ β} {after : ServiceRows δ β}
    (performed : perform history.rows call = .ok after) (ahead : history.MovesAhead call) :
    Sound { history with rows := after } := by
  cases call with
  | createServiceDef serviceDef =>
      obtain ⟨keyed, kept⟩ := Kept.of_createServiceDef sound.keyed performed
      exact sound.of_kept_or_ahead keyed fun id service found => .inl (kept id service found)
  | updateServiceDef references cascade serviceDef =>
      exact sound.of_updateServiceDef performed ahead
  | deleteServiceDef id forceDelete =>
      obtain ⟨keyed, kept⟩ := Kept.of_deleteServiceDef sound.keyed performed
      exact sound.of_kept_or_ahead keyed fun id service found => .inl (kept id service found)
  | createService service time defaultPolicy => exact sound.of_createService performed ahead
  | updateService service => exact sound.of_updateService performed ahead
  | deleteService id =>
      have deleted := Deleted.of_deleteService sound.keyed performed
      have keyed := sound.keyed.of_fewer deleted.serviceDefs fun id service found =>
        (deleted.kept id service found).row
      exact sound.of_kept_or_ahead keyed fun id service found =>
        .inl (deleted.kept id service found)
  | createPolicy policy => exact sound.of_createPolicy performed ahead
  | updatePolicy policy => exact sound.of_updatePolicy performed ahead
  | deletePolicy id => exact sound.of_deletePolicy performed ahead

theorem getServicePoliciesIfUpdated_eq_some {rows : ServiceRows δ β} {serviceName : String}
    {lastKnownVersion : Option Int} {download : ServiceDownload δ β}
    (given : rows.getServicePoliciesIfUpdated serviceName lastKnownVersion = .ok (some download)) :
    download.serviceName = serviceName ∧
      ∃ id service, rows.findService serviceName = some (id, service) ∧
        download.policyVersion = service.policyVersion ∧ Holds rows service download := by
  unfold getServicePoliciesIfUpdated at given
  split at given
  · nomatch given
  · next id service found =>
    split at given
    · nomatch given
    · split at given
      · nomatch given
      · next serviceDef foundType =>
        cases given
        exact ⟨rfl, id, service, found, rfl, rfl, rfl, foundType⟩

theorem Sound.download (sound : Sound history) {serviceName : String}
    {lastKnownVersion : Option Int}
    {download : ServiceDownload δ β}
    (given : history.rows.getServicePoliciesIfUpdated serviceName lastKnownVersion =
      .ok (some download))
    (named : serviceName ≠ "") :
    Sound { history with downloads := history.downloads ++ [download] } where
  keyed := sound.keyed
  named := by
    intro other listed
    obtain old | new := List.mem_append.mp listed
    · exact sound.named other old
    · rw [List.mem_singleton.mp new, (getServicePoliciesIfUpdated_eq_some given).1]
      exact named
  current := by
    intro other listed id service found own old version
    obtain earlier | new := List.mem_append.mp listed
    · exact sound.current other earlier id service found own old version
    · obtain ⟨asked, another, shown, foundShown, sameVersion, holds⟩ :=
        getServicePoliciesIfUpdated_eq_some given
      rw [List.mem_singleton.mp new] at own version
      have located := sound.keyed.findService found
      rw [own, asked, foundShown, Option.some.injEq, Prod.mk.injEq] at located
      obtain ⟨rfl, rfl⟩ := located
      rw [sameVersion] at version
      rw [List.mem_singleton.mp new]
      exact ⟨old, version, Int.le_refl _, fun _ => holds⟩

/-- **Steps.** An event that keeps clients fresh keeps the downloads sound. -/
theorem Sound.step (sound : Sound history) {event : StoreEvent δ β}
    (keeps : history.KeepsFresh event) : Sound (step history event) := by
  cases event with
  | call call =>
      unfold StoreHistory.step
      refine Outcome.getState_induction (motive := fun rows => Sound { history with rows := rows })
        sound fun after performed => ?_
      refine sound.perform performed (keeps ?_)
      rw [performed]
      rfl
  | download serviceName lastKnownVersion =>
      dsimp only [StoreHistory.step]
      split
      · next download given =>
        refine sound.download given fun unnamed => ?_
        obtain ⟨_, id, service, found, _⟩ := getServicePoliciesIfUpdated_eq_some given
        rw [keeps unnamed] at found
        nomatch found
      · exact sound

theorem Sound.fresh (sound : Sound history) {download : ServiceDownload δ β}
    (listed : download ∈ history.downloads) : download.Fresh history.rows := by
  intro unchanged
  unfold getServicePoliciesIfUpdated at unchanged
  split at unchanged
  · nomatch unchanged
  · next id service found =>
    split at unchanged
    · next held =>
      obtain ⟨versioned, same⟩ := held
      obtain ⟨old, version⟩ := Option.isSome_iff_exists.mp versioned
      obtain ⟨foundService, named⟩ := findService_eq_some found
      obtain ⟨current, shown, _, holds⟩ :=
        sound.current download listed id service foundService named old version
      rw [version] at same
      have stored := holds (Option.some.inj (same.symm.trans shown))
      refine ⟨stored.policies, ?_⟩
      simp only [typeOf, found, Option.bind_eq_bind, Option.bind_some, stored.serviceDef]
      rw [stored.type]
    · split at unchanged <;> nomatch unchanged

end Invariant

section Runs

variable [Platform]

/-- **Download freshness over runs.** In a run whose events all keep clients fresh, who
is told that nothing changed since any download of the run has what is stored. -/
theorem downloads_fresh_of_keepsFresh {events : List (StoreEvent δ β)}
    (kept : Run.Throughout (fun history event => ((), step history event)) KeepsFresh {} events) :
    ∀ done rest, events = done ++ rest → ∀ download ∈ (run done).downloads,
      download.Fresh (run done).rows := by
  intro done rest split download listed
  have steps : ∀ history event, Sound history → KeepsFresh history event →
      Sound (step history event) := fun (history : StoreHistory δ β) event sound keeps =>
    sound.step keeps
  have sound : Sound (run done) :=
    Run.forall_prefix_of_allowed steps .empty kept.at_split done rest split
  exact sound.fresh listed

end Runs

section Example

attribute [local instance] Platform.ascii

/-- A policy is stored between two downloads, and later the service is deleted. -/
def editedRun : List (StoreEvent Unit Nat) :=
  [.call (.createServiceDef { name := "hdfs" }),
    .call (.createService { id := 0, name := "sales", type := "hdfs" } "noon" 0),
    .download "sales" none,
    .call (.createPolicy { service := "sales", name := "orders", content := 1 }),
    .download "sales" (some 1),
    .download "sales" (some 2),
    .call (.updateService { id := 1, name := "sales", type := "hdfs", policyVersion := some 2 }),
    .call (.updatePolicy { id := some 2, service := "sales", name := "orders", content := 2 }),
    .call (.deleteService 1)]

theorem editedRun_downloads_fresh :
    Run.Throughout (fun history event => ((), step history event)) KeepsFresh {} editedRun ∧
      ∀ done rest, editedRun = done ++ rest → ∀ download ∈ (run done).downloads,
        download.Fresh (run done).rows := by
  have kept : Run.Throughout (fun history event => ((), step history event)) KeepsFresh {}
      editedRun := by
    decide +kernel
  exact ⟨kept, downloads_fresh_of_keepsFresh kept⟩

/-- A service is created again under the name of one that was deleted. -/
def recreatedRun : List (StoreEvent Unit Nat) :=
  [.call (.createServiceDef { name := "hdfs" }),
    .call (.createService { id := 0, name := "sales", type := "hdfs" } "noon" 0),
    .download "sales" none,
    .call (.deleteService 1),
    .call (.createService { id := 0, name := "sales", type := "hdfs" } "evening" 0)]

/-- A type is updated while a client holds what it downloaded. -/
def updatedTypeRun : List (StoreEvent Unit Nat) :=
  [.call (.createServiceDef { name := "hdfs" }),
    .call (.createService { id := 0, name := "sales", type := "hdfs" } "noon" 0),
    .download "sales" none,
    .call (.updateServiceDef {} id
      { id := some 1, name := "hdfs", resources := [{ columns := ⟨"path", ()⟩ }] })]

/-- The versions of the new service start where those of the old one did, and the
version of a service does not move with its type. -/
theorem restarted_version_hides_change :
    (∃ download ∈ (run recreatedRun).downloads, ¬download.Fresh (run recreatedRun).rows) ∧
      ∃ download ∈ (run updatedTypeRun).downloads, ¬download.Fresh (run updatedTypeRun).rows := by
  constructor
  · refine ⟨_, List.mem_singleton_self _, fun fresh => ?_⟩
    have policies := (fresh rfl).1
    exact absurd policies (by decide +kernel)
  · refine ⟨_, List.mem_singleton_self _, fun fresh => ?_⟩
    have type := (fresh rfl).2
    exact absurd (congrArg (Option.map fun stored => stored.2.resources.table.ids) type)
      (by decide +kernel)

end Example

end StoreHistory

end Ranger

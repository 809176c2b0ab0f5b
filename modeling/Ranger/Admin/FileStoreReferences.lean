import Ranger.Admin.FileStore

/-! # References from policies to services in the file store

A policy refers to its service by name. The names of services are compared letter
by letter when they are looked up, and letter case aside when a rename is noticed
and carried out, so the references hold as long as no call depends on the
difference.
-/

namespace Ranger

open Foundation

namespace ServiceFileStore

variable {α β : Type} {store : ServiceFileStore α β}

section Reading

theorem mem_getAllServices {service : FileService α} :
    service ∈ store.getAllServices ↔ ∃ id, store.services.get? id = some service := by
  unfold getAllServices
  rw [List.mem_insertionSort, List.mem_map]
  constructor
  · rintro ⟨⟨id, _⟩, member, rfl⟩
    exact ⟨id, AssocMap.get?_eq_some_iff.mpr member⟩
  · rintro ⟨id, stored⟩
    exact ⟨(id, service), AssocMap.get?_eq_some_iff.mp stored, rfl⟩

theorem mem_getAllPolicies {policy : FilePolicy β} :
    policy ∈ store.getAllPolicies ↔ ∃ key, store.policies.get? key = some policy := by
  unfold getAllPolicies
  rw [List.mem_insertionSort, List.mem_map]
  constructor
  · rintro ⟨⟨key, _⟩, member, rfl⟩
    exact ⟨key, AssocMap.get?_eq_some_iff.mpr member⟩
  · rintro ⟨key, stored⟩
    exact ⟨(key, policy), AssocMap.get?_eq_some_iff.mp stored, rfl⟩

theorem le_foldl_max (ids : List Int) (start : Int) : start ≤ ids.foldl max start := by
  induction ids generalizing start with
  | nil => exact le_refl start
  | cons first rest ih => exact le_trans (le_max_left start first) (ih (max start first))

theorem le_getMaxId {ids : List Int} {id : Int} (member : id ∈ ids) : id ≤ getMaxId ids := by
  obtain ⟨before, after, rfl⟩ := List.append_of_mem member
  unfold getMaxId
  rw [List.foldl_append, List.foldl_cons]
  exact le_trans (le_max_right _ id) (le_foldl_max after _)

end Reading

section Soundness

variable (store)

/-- The name of the service a file is for. -/
def nameAt (id : Int) : Option (Option String) := (store.services.get? id).map (·.name)

/-- The files of the services are found under their ids and have different names; a
service with an empty name is the first one. -/
structure SoundServices : Prop where
  ids : ∀ id service, store.services.get? id = some service → service.id = id
  bounded : ∀ id name, store.nameAt id = some name → id < store.nextServiceId
  namesApart : ∀ id other name, store.nameAt id = some (some name) →
    store.nameAt other = some (some name) → id = other
  emptyFirst : ∀ id other name, store.nameAt id = some (some "") →
    store.nameAt other = some name → id ≤ other

/-- A policy has one file, found under its id and that of the service it names. -/
structure SoundPolicies : Prop where
  ids : ∀ key policy, store.policies.get? key = some policy → policy.id = key.2
  unique : ∀ id first second one two, store.policies.get? (first, id) = some one →
    store.policies.get? (second, id) = some two → first = second
  owner : ∀ key policy, store.policies.get? key = some policy →
    ∃ name, policy.service = some name ∧ store.nameAt key.1 = some (some name)

structure Sound : Prop where
  services : store.SoundServices
  policies : store.SoundPolicies

variable {store}

theorem nameAt_eq_some {id : Int} {name : Option String} :
    store.nameAt id = some name ↔
      ∃ service, store.services.get? id = some service ∧ service.name = name :=
  Option.map_eq_some_iff

theorem passesParam_of_eq (name : Option String) : passesParam name name = true := by
  unfold passesParam
  simp only [beq_self_eq_true, Bool.or_true]

theorem eq_of_passesParam {name : String} {value : Option String} (blank : name ≠ "")
    (passes : passesParam (some name) value = true) : value = some name := by
  unfold passesParam isEmptyValue at passes
  simp only [Bool.or_eq_true, String.isEmpty_iff, blank, false_or, beq_iff_eq] at passes
  exact passes.symm

theorem pairwise_getAllServices :
    store.getAllServices.Pairwise fun first second => first.id ≤ second.id := by
  have : Std.Total fun first second : FileService α => first.id ≤ second.id :=
    ⟨fun first second => le_total first.id second.id⟩
  have : IsTrans (FileService α) fun first second => first.id ≤ second.id :=
    ⟨fun _ _ _ => le_trans⟩
  exact List.pairwise_insertionSort _ _

/-- A service is found by its name. -/
theorem SoundServices.getServiceByName (sound : store.SoundServices) {id : Int}
    {service : FileService α} {name : String} (stored : store.services.get? id = some service)
    (named : service.name = some name) :
    store.getServiceByName (some name) = some service := by
  have listed : service ∈ store.getAllServices := mem_getAllServices.mpr ⟨id, stored⟩
  have here : store.nameAt id = some (some name) := nameAt_eq_some.mpr ⟨service, stored, named⟩
  unfold ServiceFileStore.getServiceByName
  simp only [Option.isSome_some, ↓reduceIte]
  cases found : store.getAllServices.find? fun service => passesParam (some name) service.name with
  | none =>
      have fails := List.find?_eq_none.mp found service listed
      rw [named] at fails
      exact absurd (passesParam_of_eq (some name)) fails
  | some first =>
      obtain ⟨passes, before, after, split, skipped⟩ := List.find?_eq_some_iff_append.mp found
      obtain ⟨other, stored'⟩ := mem_getAllServices.mp (List.mem_of_find?_eq_some found)
      have there : store.nameAt other = some first.name :=
        nameAt_eq_some.mpr ⟨first, stored', rfl⟩
      have same : other = id := by
        by_cases blank : name = ""
        · subst blank
          -- an empty name skips nothing, so the first service was found
          have none_before : before = [] := by
            cases before with
            | nil => rfl
            | cons skip _ =>
                have skips := skipped skip List.mem_cons_self
                simp [passesParam, isEmptyValue] at skips
          rw [split, none_before, List.nil_append, List.mem_cons] at listed
          have least : id ≤ other := sound.emptyFirst id other _ here there
          obtain rfl | later := listed
          · rw [← sound.ids _ _ stored, ← sound.ids _ _ stored']
          · have sorted := @pairwise_getAllServices _ _ store
            rw [split, none_before, List.nil_append] at sorted
            have before_service := List.rel_of_pairwise_cons sorted later
            rw [sound.ids _ _ stored', sound.ids _ _ stored] at before_service
            omega
        · have named' := eq_of_passesParam blank passes
          rw [named'] at there
          exact sound.namesApart other id name there here
      subst same
      rw [stored] at stored'
      exact stored'.symm

/-- Who a search by name finds. -/
theorem getServiceByName_eq_some {name : Option String} {service : FileService α}
    (found : store.getServiceByName name = some service) :
    ∃ id, store.services.get? id = some service := by
  unfold ServiceFileStore.getServiceByName at found
  split at found
  · exact mem_getAllServices.mp (List.mem_of_find?_eq_some found)
  · cases found

/-- A name that finds nothing is no service's, and the empty one only without services. -/
theorem getServiceByName_eq_none {name : String}
    (missing : store.getServiceByName (some name) = none) :
    (∀ id, store.nameAt id ≠ some (some name)) ∧ (name = "" → ∀ id, store.nameAt id = none) := by
  unfold ServiceFileStore.getServiceByName at missing
  simp only [Option.isSome_some, ↓reduceIte, List.find?_eq_none] at missing
  constructor
  · intro id named
    obtain ⟨service, stored, named⟩ := nameAt_eq_some.mp named
    refine missing service (mem_getAllServices.mpr ⟨id, stored⟩) ?_
    rw [named]
    exact passesParam_of_eq (some name)
  · intro blank id
    subst blank
    cases named : store.nameAt id with
    | none => rfl
    | some name =>
        obtain ⟨service, stored, _⟩ := nameAt_eq_some.mp named
        exact absurd rfl (missing service (mem_getAllServices.mpr ⟨id, stored⟩))

/-- The owner of a policy, as the store finds it. -/
theorem Sound.owner (sound : store.Sound) {key : Int × Int} {policy : FilePolicy β}
    (stored : store.policies.get? key = some policy) :
    ∃ service, store.services.get? key.1 = some service ∧ service.name = policy.service ∧
      service.id = key.1 ∧ store.getServiceByName policy.service = some service := by
  obtain ⟨name, refers, named⟩ := sound.policies.owner key policy stored
  obtain ⟨service, stored', named⟩ := nameAt_eq_some.mp named
  refine ⟨service, stored', named.trans refers.symm, sound.services.ids _ _ stored', ?_⟩
  rw [refers]
  exact sound.services.getServiceByName stored' named

end Soundness

section References

variable (store)

/-- Every policy names a service that is found, and is among its policies. -/
def Resolves : Prop :=
  ∀ key policy, store.policies.get? key = some policy →
    ∃ service, store.getServiceByName policy.service = some service ∧
      policy ∈ store.getServicePolicies service.name

/-- A policy under the id names the service. -/
def BelongsTo (policyId serviceId : Int) : Prop :=
  ∃ key policy service, store.policies.get? key = some policy ∧ policy.id = policyId ∧
    store.getServiceByName policy.service = some service ∧ service.id = serviceId

variable {store}

theorem Sound.resolves (sound : store.Sound) : store.Resolves := by
  intro key policy stored
  obtain ⟨service, _, named, _, found⟩ := sound.owner stored
  refine ⟨service, found, List.mem_filter.mpr ⟨mem_getAllPolicies.mpr ⟨key, stored⟩, ?_⟩⟩
  rw [named]
  simp only [passesParam, isEmptyValue, Bool.true_or, Bool.and_self,
    beq_self_eq_true, Bool.or_true]

theorem Sound.belongsTo_iff (sound : store.Sound) {policyId serviceId : Int} :
    store.BelongsTo policyId serviceId ↔
      (store.policies.get? (serviceId, policyId)).isSome := by
  constructor
  · rintro ⟨key, policy, service, stored, rfl, found, rfl⟩
    obtain ⟨owner, _, _, identity, found'⟩ := sound.owner stored
    rw [found] at found'
    cases found'
    rw [identity, sound.policies.ids key policy stored]
    exact Option.isSome_iff_exists.mpr ⟨policy, stored⟩
  · intro present
    obtain ⟨policy, stored⟩ := Option.isSome_iff_exists.mp present
    obtain ⟨owner, _, _, identity, found⟩ := sound.owner stored
    exact ⟨_, policy, owner, stored, sound.policies.ids _ _ stored, found, identity⟩

end References

section Services

variable {next : ServiceFileStore α β}

/-- What keeps ids and names keeps the services sound. -/
theorem SoundServices.of_nameAt (sound : store.SoundServices)
    (ids : ∀ id service, next.services.get? id = some service → service.id = id)
    (names : ∀ id, next.nameAt id = store.nameAt id)
    (bounded : store.nextServiceId ≤ next.nextServiceId ∨
      ∀ id name, store.nameAt id = some name → id < next.nextServiceId) :
    next.SoundServices where
  ids := ids
  bounded id name named := by
    rw [names] at named
    obtain grown | bounded := bounded
    · exact lt_of_lt_of_le (sound.bounded id name named) grown
    · exact bounded id name named
  namesApart id other name here there := by
    rw [names] at here there
    exact sound.namesApart id other name here there
  emptyFirst id other name here there := by
    rw [names] at here there
    exact sound.emptyFirst id other name here there

theorem nameAt_put {id : Int} {service : FileService α}
    (services : next.services = store.services.put id service) (other : Int) :
    next.nameAt other = if other = id then some service.name else store.nameAt other := by
  unfold nameAt
  rw [services, AssocMap.get?_put]
  split <;> rfl

theorem ids_put (sound : store.SoundServices) (service : FileService α)
    (services : next.services = store.services.put service.id service) :
    ∀ id found, next.services.get? id = some found → found.id = id := by
  intro id found stored
  rw [services, AssocMap.get?_put] at stored
  split at stored
  · next same =>
      cases stored
      exact same.symm
  · exact sound.ids id found stored

/-- Reading the services keeps the next id beyond theirs. -/
theorem SoundServices.loadServices (sound : store.SoundServices) (name : Option String) :
    (store.loadServices name).SoundServices := by
  unfold ServiceFileStore.loadServices
  split
  · refine sound.of_nameAt sound.ids (fun _ => rfl) (.inr fun id name named => ?_)
    obtain ⟨service, stored, _⟩ := nameAt_eq_some.mp named
    have listed : id ∈ store.getAllServices.map (·.id) :=
      List.mem_map.mpr ⟨service, mem_getAllServices.mpr ⟨id, stored⟩, sound.ids id service stored⟩
    exact Int.lt_add_one_of_le (le_getMaxId listed)
  · exact sound

@[simp] theorem services_loadServices (name : Option String) :
    (store.loadServices name).services = store.services := by
  unfold loadServices
  split <;> rfl

@[simp] theorem policies_loadServices (name : Option String) :
    (store.loadServices name).policies = store.policies := by
  unfold loadServices
  split <;> rfl

@[simp] theorem nameAt_loadServices (name : Option String) (id : Int) :
    (store.loadServices name).nameAt id = store.nameAt id := by
  unfold nameAt
  rw [services_loadServices]

/-- A changed policy moves the policy version of a service and nothing else of the
services. -/
theorem SoundServices.handlePolicyUpdate (sound : store.SoundServices) {service : FileService α}
    {id : Int} (stored : store.services.get? id = some service)
    (policies : AssocMap (Int × Int) (FilePolicy β)) (name : Option String) :
    (ServiceFileStore.handlePolicyUpdate { store.loadServices name with policies := policies }
      service).SoundServices ∧
    ∀ other, (ServiceFileStore.handlePolicyUpdate
      { store.loadServices name with policies := policies } service).nameAt other =
        store.nameAt other := by
  have identity := sound.ids id service stored
  have names : ∀ other, (ServiceFileStore.handlePolicyUpdate
      { store.loadServices name with policies := policies } service).nameAt other =
        store.nameAt other := by
    intro other
    rw [@nameAt_put _ _ (store.loadServices name) _ _ _ rfl, nameAt_loadServices]
    split
    · next same =>
        rw [same, identity]
        exact (nameAt_eq_some.mpr ⟨service, stored, rfl⟩).symm
    · rfl
  have loaded := sound.loadServices name
  refine ⟨loaded.of_nameAt (ids_put loaded
    { service with policyVersion := some (nextVersion service.policyVersion) } rfl) ?_
    (.inl (le_refl _)), names⟩
  intro other
  rw [names, nameAt_loadServices]

end Services

section Calls

variable (store)

/-- The service a call is for, if it exists. -/
def serviceOf : Call α β → Option Int
  | .createService _ => none
  | .updateService service => some service.id
  | .deleteService id => some id
  | .createPolicy policy => (store.getServiceByName policy.service).map (·.id)
  | .updatePolicy policy => (store.getServiceByName policy.service).map (·.id)
  | .deletePolicy id =>
      ((store.getPolicy id).bind fun policy => store.getServiceByName policy.service).map (·.id)

/-- The policies of the services other than one keep their files. -/
def KeepsFiles (next : ServiceFileStore α β) (serviceId : Option Int) : Prop :=
  ∀ policyId owner, (store.policies.get? (owner, policyId)).isSome → serviceId ≠ some owner →
    ∀ other, (next.policies.get? (other, policyId)).isSome =
      (store.policies.get? (other, policyId)).isSome

variable {store} {next : ServiceFileStore α β}

theorem getPolicy_eq_some {id : Int} {policy : FilePolicy β}
    (found : store.getPolicy id = some policy) :
    policy.id = id ∧ ∃ key, store.policies.get? key = some policy := by
  unfold getPolicy at found
  refine ⟨?_, mem_getAllPolicies.mp (List.mem_of_find?_eq_some found)⟩
  simpa using List.find?_some found

/-- Policies stay sound when their services keep their names. -/
theorem SoundPolicies.of_nameAt (sound : store.SoundPolicies)
    (policies : next.policies = store.policies)
    (names : ∀ id name, store.nameAt id = some (some name) → next.nameAt id = some (some name)) :
    next.SoundPolicies where
  ids := by
    rw [policies]
    exact sound.ids
  unique := by
    rw [policies]
    exact sound.unique
  owner key policy stored := by
    rw [policies] at stored
    obtain ⟨name, refers, named⟩ := sound.owner key policy stored
    exact ⟨name, refers, names key.1 name named⟩

theorem keepsFiles_of_policies (policies : next.policies = store.policies)
    (serviceId : Option Int) : store.KeepsFiles next serviceId := by
  intro _ _ _ _ _
  rw [policies]

theorem createService_eq_ok {service created : FileService α}
    (performed : store.createService service = .ok (created, next)) :
    store.getServiceByName service.name = none ∧ created.name = service.name ∧
      created.id = (store.loadServices service.name).nextServiceId ∧
        next.services = store.services.put created.id created ∧
          next.policies = store.policies ∧ next.nextServiceId = created.id + 1 := by
  unfold ServiceFileStore.createService at performed
  split at performed
  · cases performed
  · next missing =>
      dsimp only at performed
      split at performed
      · cases performed
      · cases performed
        refine ⟨missing, rfl, rfl, ?_, ?_, rfl⟩
        · dsimp only
          rw [services_loadServices]
        · exact policies_loadServices _

theorem Sound.createService (sound : store.Sound) {service created : FileService α}
    (performed : store.createService service = .ok (created, next)) :
    next.Sound ∧ store.KeepsFiles next none := by
  obtain ⟨missing, named, identity, services, policies, following⟩ := createService_eq_ok performed
  have loaded := sound.services.loadServices service.name
  have names := nameAt_put services
  have below : ∀ id name, store.nameAt id = some name → id < created.id := by
    intro id name stored
    rw [identity]
    exact loaded.bounded id name (by rw [nameAt_loadServices, stored])
  have fresh : store.nameAt created.id = none := by
    cases stored : store.nameAt created.id with
    | none => rfl
    | some name => exact absurd (below _ _ stored) (lt_irrefl _)
  have unused : ∀ name, created.name = some name → (∀ id, store.nameAt id ≠ some (some name)) ∧
      (name = "" → ∀ id, store.nameAt id = none) := by
    intro name given
    rw [← named, given] at missing
    exact getServiceByName_eq_none missing
  refine ⟨⟨⟨ids_put sound.services created services, ?_, ?_, ?_⟩,
    sound.policies.of_nameAt policies ?_⟩, keepsFiles_of_policies policies none⟩
  · intro id name stored
    rw [names] at stored
    rw [following]
    split at stored
    · next same =>
        rw [same]
        exact Int.lt_succ _
    · exact lt_trans (below id name stored) (Int.lt_succ _)
  · intro id other name here there
    rw [names] at here there
    by_cases first : id = created.id
    · by_cases second : other = created.id
      · rw [first, second]
      · rw [if_pos first, Option.some.injEq] at here
        rw [if_neg second] at there
        exact absurd there ((unused name here).1 other)
    · rw [if_neg first] at here
      by_cases second : other = created.id
      · rw [if_pos second, Option.some.injEq] at there
        exact absurd here ((unused name there).1 id)
      · rw [if_neg second] at there
        exact sound.services.namesApart id other name here there
  · intro id other name here there
    rw [names] at here there
    by_cases first : id = created.id
    · by_cases second : other = created.id
      · rw [first, second]
      · rw [if_pos first, Option.some.injEq] at here
        rw [if_neg second, (unused "" here).2 rfl other] at there
        cases there
    · rw [if_neg first] at here
      by_cases second : other = created.id
      · rw [second]
        exact le_of_lt (below id _ here)
      · rw [if_neg second] at there
        exact sound.services.emptyFirst id other name here there
  · intro id name stored
    rw [names, if_neg]
    · exact stored
    · rintro rfl
      rw [fresh] at stored
      cases stored

theorem deleteService_eq_ok {id : Int} (performed : store.deleteService id = .ok next) :
    ∃ existing, store.services.get? id = some existing ∧
      (∀ other, next.services.get? other = if other = id then none
        else store.services.get? other) ∧
      (∀ key, next.policies.get? key =
        if ∃ policy ∈ store.getAllPolicies, policy.service = existing.name ∧
          (existing.id, policy.id) = key then none
        else store.policies.get? key) ∧ next.nextServiceId = store.nextServiceId := by
  unfold ServiceFileStore.deleteService at performed
  split at performed
  · cases performed
  · next existing found =>
      cases performed
      refine ⟨existing, found, fun other => ?_, fun key => ?_, rfl⟩
      · simp only [handleServiceDelete, AssocMap.get?_filterKeys, decide_not, Bool.not_eq_true',
          decide_eq_false_iff_not, ite_not]
      · simp only [handleServiceDelete, AssocMap.get?_filterKeys, decide_not, Bool.not_eq_true',
          decide_eq_false_iff_not, ite_not, List.mem_map, List.mem_filter, beq_iff_eq, and_assoc]

/-- The policies of a deleted service go with it. -/
theorem Sound.deleteService (sound : store.Sound) {id : Int}
    (performed : store.deleteService id = .ok next) :
    next.Sound ∧ store.KeepsFiles next (some id) := by
  obtain ⟨existing, found, services, policies, following⟩ := deleteService_eq_ok performed
  have identity := sound.services.ids id existing found
  have here : store.nameAt id = some existing.name := nameAt_eq_some.mpr ⟨existing, found, rfl⟩
  have names : ∀ other, next.nameAt other = if other = id then none else store.nameAt other := by
    intro other
    unfold nameAt
    rw [services]
    split <;> rfl
  have old : ∀ other name, next.nameAt other = some name →
      other ≠ id ∧ store.nameAt other = some name := by
    intro other name stored
    rw [names] at stored
    split at stored
    · cases stored
    · next differ => exact ⟨differ, stored⟩
  have kept : ∀ key policy, next.policies.get? key = some policy →
      store.policies.get? key = some policy ∧ key.1 ≠ id := by
    intro key policy stored
    rw [policies] at stored
    split at stored
    · cases stored
    · next spared =>
        refine ⟨stored, fun same => spared ?_⟩
        obtain ⟨name, refers, named⟩ := sound.policies.owner key policy stored
        rw [same, here, Option.some.injEq] at named
        refine ⟨policy, mem_getAllPolicies.mpr ⟨key, stored⟩, refers.trans named.symm, ?_⟩
        rw [identity, ← same, sound.policies.ids key policy stored]
  refine ⟨⟨⟨?_, ?_, ?_, ?_⟩, ⟨?_, ?_, ?_⟩⟩, ?_⟩
  · intro other service stored
    rw [services] at stored
    split at stored
    · cases stored
    · exact sound.services.ids other service stored
  · intro other name stored
    rw [following]
    exact sound.services.bounded other name (old other name stored).2
  · intro first second name one two
    exact sound.services.namesApart first second name (old _ _ one).2 (old _ _ two).2
  · intro first second name one two
    exact sound.services.emptyFirst first second name (old _ _ one).2 (old _ _ two).2
  · exact fun key policy stored => sound.policies.ids key policy (kept key policy stored).1
  · intro policyId first second one two stored stored'
    exact sound.policies.unique policyId first second one two (kept _ _ stored).1
      (kept _ _ stored').1
  · intro key policy stored
    obtain ⟨before, differ⟩ := kept key policy stored
    obtain ⟨name, refers, named⟩ := sound.policies.owner key policy before
    refine ⟨name, refers, ?_⟩
    rw [names, if_neg differ, named]
  · intro policyId owner present differ other
    rw [policies, if_neg]
    rintro ⟨policy, listed, same, located⟩
    -- the deleted file is that of the policy, whose owner is another service
    obtain ⟨key, stored⟩ := mem_getAllPolicies.mp listed
    obtain ⟨name, refers, named⟩ := sound.policies.owner key policy stored
    rw [refers] at same
    have mine := sound.services.namesApart key.1 id name named (same ▸ here)
    obtain ⟨rfl, rfl⟩ := Prod.mk.inj located
    obtain ⟨policy', stored'⟩ := Option.isSome_iff_exists.mp present
    have unique := sound.policies.unique policy.id owner key.1 policy' policy stored'
      (by rw [sound.policies.ids key policy stored]; exact stored)
    exact differ (by rw [unique, mine])

/-- Writing a policy into a file of its service, under an id no other service has. -/
theorem SoundPolicies.put (sound : store.SoundPolicies) {serviceId : Int} {policy : FilePolicy β}
    (policies : next.policies = store.policies.put (serviceId, policy.id) policy)
    (names : ∀ id, next.nameAt id = store.nameAt id)
    (owned : ∃ name, policy.service = some name ∧ store.nameAt serviceId = some (some name))
    (only : ∀ other old, store.policies.get? (other, policy.id) = some old → other = serviceId) :
    next.SoundPolicies ∧ store.KeepsFiles next (some serviceId) := by
  have written : ∀ key, next.policies.get? key =
      if key = (serviceId, policy.id) then some policy else store.policies.get? key := by
    intro key
    rw [policies, AssocMap.get?_put]
  have place : ∀ service id stored, next.policies.get? (service, id) = some stored →
      id = policy.id → service = serviceId := by
    intro service id stored found same
    rw [written] at found
    split at found
    · next here => exact (Prod.mk.inj here).1
    · exact only service stored (same ▸ found)
  refine ⟨⟨?_, ?_, ?_⟩, ?_⟩
  · intro key stored found
    rw [written] at found
    split at found
    · next here =>
        cases found
        rw [here]
    · exact sound.ids key stored found
  · intro id first second one two found found'
    by_cases same : id = policy.id
    · rw [place first id one found same, place second id two found' same]
    · have differ : ∀ service, (service, id) ≠ (serviceId, policy.id) :=
        fun _ here => same (Prod.mk.inj here).2
      rw [written, if_neg (differ _)] at found found'
      exact sound.unique id first second one two found found'
  · intro key stored found
    rw [written] at found
    rw [names]
    split at found
    · next here =>
        cases found
        rw [here]
        exact owned
    · exact sound.owner key stored found
  · intro policyId owner present differ other
    obtain ⟨old, stored⟩ := Option.isSome_iff_exists.mp present
    rw [written, if_neg]
    intro here
    have same := (Prod.mk.inj here).2
    exact differ (by rw [only owner old (same ▸ stored)])

theorem createPolicy_eq_ok {policy created : FilePolicy β}
    (performed : store.createPolicy policy = .ok (created, next)) :
    ∃ service, store.getServiceByName policy.service = some service ∧
      created.service = policy.service ∧
      created.id = getMaxId (store.getAllPolicies.map (·.id)) + 1 ∧
      handlePolicyUpdate
        { store.loadServices policy.service with
          policies := store.policies.put (service.id, created.id) created }
        service = next := by
  unfold ServiceFileStore.createPolicy at performed
  split at performed
  · cases performed
  · next service found =>
      obtain ⟨existing, _, performed⟩ := Outcome.bind_eq_ok.mp performed
      dsimp only at performed
      split at performed
      · cases performed
      · split at performed
        · cases performed
        · cases performed
          exact ⟨service, found, rfl, rfl, rfl⟩

theorem Sound.createPolicy (sound : store.Sound) {policy created : FilePolicy β}
    (performed : store.createPolicy policy = .ok (created, next))
    (named : ∀ service, store.getServiceByName policy.service = some service →
      service.name = policy.service) :
    next.Sound ∧ store.KeepsFiles next ((store.getServiceByName policy.service).map (·.id)) := by
  obtain ⟨service, found, refers, identity, rfl⟩ := createPolicy_eq_ok performed
  obtain ⟨id, stored⟩ := getServiceByName_eq_some found
  obtain ⟨services, names⟩ := sound.services.handlePolicyUpdate stored
    (store.policies.put (service.id, created.id) created) policy.service
  have fresh : ∀ key old, store.policies.get? key = some old → old.id < created.id := by
    intro key old present
    rw [identity]
    exact Int.lt_add_one_of_le (le_getMaxId
      (List.mem_map.mpr ⟨old, mem_getAllPolicies.mpr ⟨key, present⟩, rfl⟩))
  have given : ∃ name, policy.service = some name := by
    cases service' : policy.service with
    | none =>
        rw [service'] at found
        cases found
    | some name => exact ⟨name, rfl⟩
  obtain ⟨name, given⟩ := given
  rw [found, Option.map_some]
  refine (sound.policies.put rfl names ⟨name, refers.trans given, ?_⟩ ?_).imp_left (⟨services, ·⟩)
  · rw [sound.services.ids id service stored]
    exact nameAt_eq_some.mpr ⟨service, stored, (named service found).trans given⟩
  · intro other old present
    have later := fresh _ old present
    rw [sound.policies.ids _ old present] at later
    exact absurd later (lt_irrefl _)

theorem updatePolicy_eq_ok [Platform] {policy updated : FilePolicy β}
    (performed : store.updatePolicy policy = .ok (updated, next)) :
    ∃ existing service, store.getPolicy policy.id = some existing ∧
      store.getServiceByName policy.service = some service ∧
      equalsIgnoreCaseValue existing.service policy.service = true ∧
      updated.id = existing.id ∧ updated.service = policy.service ∧
      handlePolicyUpdate
        { store.loadServices policy.service with
          policies := store.policies.put (service.id, updated.id) updated }
        service = next := by
  unfold ServiceFileStore.updatePolicy at performed
  split at performed
  · cases performed
  · next existing located =>
      split at performed
      · cases performed
      · next service found =>
          split at performed
          · cases performed
          · next same =>
              obtain ⟨newNamePolicy, _, performed⟩ := Outcome.bind_eq_ok.mp performed
              dsimp only at performed
              split at performed
              · cases performed
              · cases performed
                exact ⟨existing, service, located, found, by simpa using same, rfl, rfl, rfl⟩

theorem Sound.updatePolicy [Platform] (sound : store.Sound) {policy updated : FilePolicy β}
    (performed : store.updatePolicy policy = .ok (updated, next))
    (unmoved : ∀ existing, store.getPolicy policy.id = some existing →
      equalsIgnoreCaseValue existing.service policy.service = true →
        existing.service = policy.service) :
    next.Sound ∧ store.KeepsFiles next ((store.getServiceByName policy.service).map (·.id)) := by
  obtain ⟨existing, service, located, found, same, identity, refers, rfl⟩ :=
    updatePolicy_eq_ok performed
  obtain ⟨_, key, stored⟩ := getPolicy_eq_some located
  obtain ⟨owner, present, _, ownerId, found'⟩ := sound.owner stored
  rw [unmoved existing located same] at found'
  rw [found] at found'
  cases found'
  obtain ⟨services, names⟩ := sound.services.handlePolicyUpdate present
    (store.policies.put (service.id, updated.id) updated) policy.service
  obtain ⟨name, given, named⟩ := sound.policies.owner key existing stored
  rw [found, Option.map_some]
  refine (sound.policies.put rfl names ⟨name, ?_, ?_⟩ ?_).imp_left (⟨services, ·⟩)
  · rw [refers, ← unmoved existing located same, given]
  · rw [ownerId, named]
  · intro other old held
    rw [identity, sound.policies.ids key existing stored] at held
    rw [ownerId]
    exact sound.policies.unique key.2 other key.1 old existing held stored

theorem deletePolicy_eq_ok {id : Int} (performed : store.deletePolicy id = .ok next) :
    ∃ existing service, store.getPolicy id = some existing ∧
      store.getServiceByName existing.service = some service ∧
      handlePolicyUpdate
        { store.loadServices existing.service with
          policies := store.policies.filterKeys (· ≠ (service.id, existing.id)) }
        service = next := by
  unfold ServiceFileStore.deletePolicy at performed
  split at performed
  · cases performed
  · next existing located =>
      split at performed
      · cases performed
      · next service found =>
          cases performed
          exact ⟨existing, service, located, found, rfl⟩

theorem Sound.deletePolicy (sound : store.Sound) {id : Int}
    (performed : store.deletePolicy id = .ok next) :
    next.Sound ∧ store.KeepsFiles next (((store.getPolicy id).bind fun policy =>
      store.getServiceByName policy.service).map (·.id)) := by
  obtain ⟨existing, service, located, found, rfl⟩ := deletePolicy_eq_ok performed
  obtain ⟨_, key, stored⟩ := getPolicy_eq_some located
  obtain ⟨owner, present, _, ownerId, found'⟩ := sound.owner stored
  rw [found] at found'
  cases found'
  obtain ⟨services, names⟩ := sound.services.handlePolicyUpdate present
    (store.policies.filterKeys (· ≠ (service.id, existing.id))) existing.service
  have kept : ∀ other policy, (store.policies.filterKeys
      (· ≠ (service.id, existing.id))).get? other = some policy →
        store.policies.get? other = some policy := by
    intro other policy held
    rw [AssocMap.get?_filterKeys] at held
    split at held
    · exact held
    · cases held
  refine ⟨⟨services, ⟨?_, ?_, ?_⟩⟩, ?_⟩
  · exact fun other policy held => sound.policies.ids other policy (kept other policy held)
  · intro policyId first second one two held held'
    exact sound.policies.unique policyId first second one two (kept _ _ held) (kept _ _ held')
  · intro other policy held
    rw [names]
    exact sound.policies.owner other policy (kept other policy held)
  · rw [located, Option.bind_some, found, Option.map_some]
    intro policyId other held differ place
    change ((store.policies.filterKeys (· ≠ (service.id, existing.id))).get?
      (place, policyId)).isSome = _
    rw [AssocMap.get?_filterKeys, if_pos]
    rw [decide_eq_true_iff]
    intro same
    obtain ⟨-, rfl⟩ := Prod.mk.inj same
    obtain ⟨old, held⟩ := Option.isSome_iff_exists.mp held
    rw [sound.policies.ids key existing stored] at held
    rw [ownerId] at differ
    exact differ (by rw [sound.policies.unique key.2 other key.1 old existing held stored])

section Rename

variable [Platform]

/-- The files of the policies a rename rewrites. -/
def renamedFiles (store : ServiceFileStore α β) (service : FileService α)
    (oldName : Option String) : List ((Int × Int) × FilePolicy β) :=
  (store.getAllPolicies.filter fun policy => equalsIgnoreCaseValue policy.service oldName).map
    fun policy =>
      ((service.id, policy.id),
        { policy with
          service := service.name
          version := some (nextVersion policy.version) })

theorem updateService_eq_ok {service updated : FileService α}
    (performed : store.updateService service = .ok (updated, next)) :
    ∃ existing, store.services.get? service.id = some existing ∧ updated.id = existing.id ∧
      updated.name = service.name ∧ next.services = store.services.put updated.id updated ∧
      ((equalsIgnoreCaseValue service.name existing.name = true ∧
          next.policies = store.policies ∧ next.nextServiceId = store.nextServiceId) ∨
        (equalsIgnoreCaseValue service.name existing.name = false ∧
          store.getServiceByName service.name = none ∧
          next.policies = store.policies.putAll (store.renamedFiles updated existing.name) ∧
          next.nextServiceId = (store.loadServices service.name).nextServiceId)) := by
  unfold ServiceFileStore.updateService at performed
  split at performed
  · cases performed
  · next existing found =>
      refine ⟨existing, found, ?_⟩
      cases same : equalsIgnoreCaseValue service.name existing.name with
      | true =>
          simp only [same, Bool.not_true, Bool.false_eq_true, ↓reduceIte] at performed
          cases performed
          exact ⟨rfl, rfl, rfl, .inl ⟨rfl, rfl, rfl⟩⟩
      | false =>
          simp only [same, Bool.not_false, ↓reduceIte] at performed
          split at performed
          · cases performed
          · next missing =>
              cases performed
              have policies := @policies_loadServices _ _ store service.name
              refine ⟨rfl, rfl, ?_, .inr ⟨rfl, missing, ?_, rfl⟩⟩
              · simp only [handleServiceRename, services_loadServices]
              · simp only [handleServiceRename, renamedFiles, getAllPolicies, policies]

/-- What a rename leaves at a file, when the policies it rewrites are those of the
service. -/
theorem get?_putAll_renamedFiles {service : FileService α} {oldName : Option String}
    (ids : ∀ key policy, store.policies.get? key = some policy → policy.id = key.2)
    (own : ∀ key policy, store.policies.get? key = some policy →
      equalsIgnoreCaseValue policy.service oldName = true → key.1 = service.id)
    (key : Int × Int) :
    (store.policies.putAll (store.renamedFiles service oldName)).get? key =
      (store.policies.get? key).map fun policy =>
        if equalsIgnoreCaseValue policy.service oldName then
          { policy with
            service := service.name
            version := some (nextVersion policy.version) }
        else policy := by
  have place : ∀ other policy, store.policies.get? other = some policy →
      equalsIgnoreCaseValue policy.service oldName = true →
        (service.id, policy.id) = other := by
    intro other policy stored same
    rw [ids other policy stored, ← own other policy stored same]
  obtain ⟨file, member, read⟩ | ⟨untouched, read⟩ :=
    store.policies.get?_putAll_cases (store.renamedFiles service oldName) key
  · obtain ⟨policy, listed, entry⟩ := List.mem_map.mp member
    obtain ⟨listed, same⟩ := List.mem_filter.mp listed
    obtain ⟨other, stored⟩ := mem_getAllPolicies.mp listed
    obtain ⟨here, rfl⟩ := Prod.mk.inj entry
    rw [place other policy stored same] at here
    rw [read, ← here, stored, Option.map_some, if_pos same]
  · rw [read]
    cases stored : store.policies.get? key with
    | none => rfl
    | some policy =>
        rw [Option.map_some, if_neg]
        intro same
        have entry : (key, { policy with
            service := service.name
            version := some (nextVersion policy.version) }) ∈
              store.renamedFiles service oldName := by
          rw [← place key policy stored same]
          exact List.mem_map.mpr ⟨policy, List.mem_filter.mpr
            ⟨mem_getAllPolicies.mpr ⟨key, stored⟩, same⟩, rfl⟩
        exact untouched _ entry

/-- A service keeps its name, takes another spelling of it that nothing refers to, or
takes a new name, with no policy of another service spelled like its old one. -/
def KeepsSpelling (store : ServiceFileStore α β) (service existing : FileService α) : Prop :=
  service.name = existing.name ∨
    (equalsIgnoreCaseValue service.name existing.name = true ∧
      (∀ other ∈ store.getAllServices, other.name ≠ service.name) ∧
        ∀ policy ∈ store.getAllPolicies, policy.service ≠ existing.name) ∨
    (equalsIgnoreCaseValue service.name existing.name = false ∧
      ∀ policy ∈ store.getAllPolicies,
        equalsIgnoreCaseValue policy.service existing.name = true →
          policy.service = existing.name ∧ service.name ≠ none)

omit [Platform] in
/-- A service that takes a name no other service has stays found. -/
theorem SoundServices.put (sound : store.SoundServices) {id : Int} {service : FileService α}
    (identity : service.id = id) (services : next.services = store.services.put id service)
    (unused : ∀ other name, other ≠ id → service.name = some name →
      store.nameAt other ≠ some (some name))
    (filled : service.name = some "" → store.nameAt id = some (some ""))
    (bounded : ∀ other name, next.nameAt other = some name → other < next.nextServiceId)
    (present : ∃ name, store.nameAt id = some name) : next.SoundServices := by
  have names := nameAt_put services
  refine ⟨?_, bounded, ?_, ?_⟩
  · subst identity
    exact ids_put sound service services
  · intro first second name here there
    rw [names] at here there
    split at here
    · next one =>
        split at there
        · next two => rw [one, two]
        · next two => exact absurd there (unused second name two (Option.some.inj here))
    · next one =>
        split at there
        · next two => exact absurd here (unused first name one (Option.some.inj there))
        · next two => exact sound.namesApart first second name here there
  · intro first second name here there
    have before : store.nameAt first = some (some "") := by
      rw [names] at here
      split at here
      · next one => exact one ▸ filled (Option.some.inj here)
      · exact here
    rw [names] at there
    split at there
    · next two =>
        obtain ⟨old, stored⟩ := present
        exact sound.emptyFirst first second old before (two ▸ stored)
    · exact sound.emptyFirst first second name before there

theorem eq_of_equalsIgnoreCaseValue_empty {name : Option String}
    (same : equalsIgnoreCaseValue (some "") name = true) : name = some "" := by
  cases name with
  | none => cases same
  | some text =>
      have folded := equalsIgnoreCase_iff.mp same
      simp only [String.toList_empty, List.map_nil, List.nil_eq, List.map_eq_nil_iff,
        String.toList_eq_nil_iff] at folded
      rw [folded]

omit [Platform] in
/-- Policies of services that keep their names, beside a service nothing refers to. -/
theorem SoundPolicies.of_unreferred (sound : store.SoundPolicies) {id : Int}
    (policies : next.policies = store.policies)
    (names : ∀ other, other ≠ id → next.nameAt other = store.nameAt other)
    (unreferred : ∀ key policy, store.policies.get? key = some policy → key.1 ≠ id) :
    next.SoundPolicies where
  ids := by
    rw [policies]
    exact sound.ids
  unique := by
    rw [policies]
    exact sound.unique
  owner key policy stored := by
    rw [policies] at stored
    rw [names key.1 (unreferred key policy stored)]
    exact sound.owner key policy stored

theorem Sound.updateService (sound : store.Sound) {service updated : FileService α}
    (performed : store.updateService service = .ok (updated, next))
    (spelling : ∀ existing, store.getService service.id = some existing →
      store.KeepsSpelling service existing) :
    next.Sound ∧ store.KeepsFiles next (some service.id) := by
  obtain ⟨existing, found, identity, named, services, cases⟩ := updateService_eq_ok performed
  have existingId := sound.services.ids _ existing found
  have here : store.nameAt service.id = some existing.name :=
    nameAt_eq_some.mpr ⟨existing, found, rfl⟩
  have ids := ids_put sound.services updated services
  rw [identity, existingId] at services
  have names := nameAt_put services
  rw [named] at names
  have others : ∀ other, other ≠ service.id → next.nameAt other = store.nameAt other := by
    intro other differ
    rw [names, if_neg differ]
  have owned : ∀ key policy, store.policies.get? key = some policy →
      (key.1 = service.id ↔ policy.service = existing.name) := by
    intro key policy stored
    obtain ⟨name, refers, there⟩ := sound.policies.owner key policy stored
    rw [refers]
    constructor
    · intro same
      rw [same, here, Option.some.injEq] at there
      exact there.symm
    · intro same
      rw [← same] at here
      exact sound.services.namesApart key.1 service.id name there here
  have stored : ∀ other name, next.nameAt other = some name →
      ∃ old, store.nameAt other = some old := by
    intro other name stored
    rw [names] at stored
    split at stored
    · next same => exact ⟨existing.name, same ▸ here⟩
    · exact ⟨name, stored⟩
  obtain kept | ⟨same, unused, unreferred⟩ | ⟨differ, own⟩ := spelling existing found
  · obtain ⟨_, policies, following⟩ | ⟨differ, _⟩ := cases
    · have same : ∀ other, next.nameAt other = store.nameAt other := by
        intro other
        by_cases updated : other = service.id
        · rw [names, if_pos updated, kept, updated, here]
        · exact others other updated
      refine ⟨⟨sound.services.of_nameAt ids same (.inl (le_of_eq following.symm)),
        sound.policies.of_nameAt policies ?_⟩, keepsFiles_of_policies policies _⟩
      intro id name named
      rw [same, named]
    · rw [kept, equalsIgnoreCaseValue_refl] at differ
      cases differ
  · obtain ⟨_, policies, following⟩ | ⟨differ, _⟩ := cases
    · have taken : ∀ other, store.nameAt other ≠ some service.name := by
        intro other there
        obtain ⟨found, stored, same⟩ := nameAt_eq_some.mp there
        exact unused found (mem_getAllServices.mpr ⟨other, stored⟩) same
      refine ⟨⟨sound.services.put (identity.trans existingId) services ?_ ?_ ?_ ⟨_, here⟩,
        sound.policies.of_unreferred policies others ?_⟩, keepsFiles_of_policies policies _⟩
      · intro other name _ given
        rw [named] at given
        exact given ▸ taken other
      · intro given
        rw [named] at given
        rw [given] at same
        rw [here, eq_of_equalsIgnoreCaseValue_empty same]
      · intro other name there
        rw [following]
        obtain ⟨old, before⟩ := stored other name there
        exact sound.services.bounded other old before
      · intro key policy present mine
        exact unreferred policy (mem_getAllPolicies.mpr ⟨key, present⟩)
          ((owned key policy present).mp mine)
    · rw [same] at differ
      cases differ
  · obtain ⟨same, _⟩ | ⟨_, missing, policies, following⟩ := cases
    · rw [differ] at same
      cases same
    · have read : ∀ key, next.policies.get? key = (store.policies.get? key).map fun policy =>
          if equalsIgnoreCaseValue policy.service existing.name then
            { policy with
              service := updated.name
              version := some (nextVersion policy.version) }
          else policy := by
        intro key
        rw [policies]
        refine get?_putAll_renamedFiles sound.policies.ids ?_ key
        intro key policy present same
        rw [identity, existingId, owned key policy present]
        exact (own policy (mem_getAllPolicies.mpr ⟨key, present⟩) same).1
      have before : ∀ key policy, next.policies.get? key = some policy →
          ∃ old, store.policies.get? key = some old ∧ policy.id = old.id ∧
            ((equalsIgnoreCaseValue old.service existing.name = true ∧
                policy.service = service.name) ∨
              (old.service ≠ existing.name ∧ policy.service = old.service)) := by
        intro key policy present
        rw [read, Option.map_eq_some_iff] at present
        obtain ⟨old, present, rfl⟩ := present
        refine ⟨old, present, ?_⟩
        split
        · next same => exact ⟨rfl, .inl ⟨same, named⟩⟩
        · next apart =>
            refine ⟨rfl, .inr ⟨fun same => apart ?_, rfl⟩⟩
            rw [same]
            exact equalsIgnoreCaseValue_refl existing.name
      have loaded := sound.services.loadServices service.name
      refine ⟨⟨sound.services.put (identity.trans existingId) services ?_ ?_ ?_ ⟨_, here⟩,
        ⟨?_, ?_, ?_⟩⟩, ?_⟩
      · intro other name _ given
        rw [named] at given
        exact (getServiceByName_eq_none (given ▸ missing)).1 other
      · intro given
        rw [named] at given
        rw [(getServiceByName_eq_none (given ▸ missing)).2 rfl service.id] at here
        cases here
      · intro other name there
        rw [following]
        obtain ⟨old, there⟩ := stored other name there
        exact loaded.bounded other old (by rw [nameAt_loadServices, there])
      · intro key policy present
        obtain ⟨old, present, identity, _⟩ := before key policy present
        rw [identity, sound.policies.ids key old present]
      · intro policyId first second one two present present'
        obtain ⟨_, present, _⟩ := before _ _ present
        obtain ⟨_, present', _⟩ := before _ _ present'
        exact sound.policies.unique policyId first second _ _ present present'
      · intro key policy present
        obtain ⟨old, present, _, ⟨same, refers⟩ | ⟨differ, refers⟩⟩ := before key policy present
        · obtain ⟨mine, given⟩ := own old (mem_getAllPolicies.mpr ⟨key, present⟩) same
          obtain ⟨name, given⟩ := Option.ne_none_iff_exists'.mp given
          refine ⟨name, refers.trans given, ?_⟩
          rw [names, if_pos ((owned key old present).mpr mine), given]
        · rw [refers, others key.1 fun mine => differ ((owned key old present).mp mine)]
          exact sound.policies.owner key old present
      · intro policyId owner _ _ other
        rw [read, Option.isSome_map]

end Rename

end Calls

section Runs

variable [Platform]

/-- The names a call is given are spelled like those it refers to. -/
def SpellsNames (store : ServiceFileStore α β) : Call α β → Prop
  | .createPolicy policy => ∀ service, store.getServiceByName policy.service = some service →
      service.name = policy.service
  | .updatePolicy policy => ∀ existing, store.getPolicy policy.id = some existing →
      equalsIgnoreCaseValue existing.service policy.service = true →
        existing.service = policy.service
  | .updateService service => ∀ existing, store.getService service.id = some existing →
      store.KeepsSpelling service existing
  | _ => True

/-- The policies of the services a call is not for belong where they did. -/
def KeepsOwners (store : ServiceFileStore α β) (call : Call α β) : Prop :=
  ∀ policyId owner, store.BelongsTo policyId owner → store.serviceOf call ≠ some owner →
    ∀ other, (step store call).BelongsTo policyId other ↔ store.BelongsTo policyId other

theorem Sound.perform (sound : store.Sound) {call : Call α β} {next : ServiceFileStore α β}
    (performed : store.perform call = .ok next) (spelled : store.SpellsNames call) :
    next.Sound ∧ store.KeepsFiles next (store.serviceOf call) := by
  cases call with
  | createService service =>
      obtain ⟨⟨created, _⟩, called, rfl⟩ := Outcome.map_eq_ok.mp performed
      exact sound.createService called
  | updateService service =>
      obtain ⟨⟨updated, _⟩, called, rfl⟩ := Outcome.map_eq_ok.mp performed
      exact sound.updateService called spelled
  | deleteService id => exact sound.deleteService performed
  | createPolicy policy =>
      obtain ⟨⟨created, _⟩, called, rfl⟩ := Outcome.map_eq_ok.mp performed
      exact sound.createPolicy called spelled
  | updatePolicy policy =>
      obtain ⟨⟨updated, _⟩, called, rfl⟩ := Outcome.map_eq_ok.mp performed
      exact sound.updatePolicy called spelled
  | deletePolicy id => exact sound.deletePolicy performed

theorem Sound.step (sound : store.Sound) {call : Call α β} (spelled : store.SpellsNames call) :
    (step store call).Sound ∧ store.KeepsFiles (step store call) (store.serviceOf call) := by
  unfold ServiceFileStore.step
  exact @Outcome.getState_induction _ _
    (fun next => next.Sound ∧ store.KeepsFiles next (store.serviceOf call)) store
    ⟨sound, fun _ _ _ _ _ => rfl⟩ _ fun _ performed => sound.perform performed spelled

omit [Platform] in
theorem sound_empty : ({} : ServiceFileStore α β).Sound := by
  have unnamed : ∀ id, ({} : ServiceFileStore α β).nameAt id = none := fun _ => rfl
  refine ⟨⟨?_, ?_, ?_, ?_⟩, ⟨?_, ?_, ?_⟩⟩
  · intro id service stored
    cases stored
  · intro id name stored
    rw [unnamed] at stored
    cases stored
  · intro id other name stored
    rw [unnamed] at stored
    cases stored
  · intro id other name stored
    rw [unnamed] at stored
    cases stored
  · intro key policy stored
    cases stored
  · intro id first second one two stored
    cases stored
  · intro key policy stored
    cases stored

/-- **Referential integrity.** In a run of calls that spell the names they refer to,
every policy names a service that is found and has it among its policies, and no call
for one service changes where the policies of another one belong. -/
theorem resolves_and_keepsOwners (calls : List (Call α β))
    (spelled : ∀ done call rest, calls = done ++ call :: rest → (run done).SpellsNames call) :
    (∀ done rest, calls = done ++ rest → (run done : ServiceFileStore α β).Resolves) ∧
      ∀ done call rest, calls = done ++ call :: rest →
        (run done : ServiceFileStore α β).KeepsOwners call := by
  have always : ∀ done rest, calls = done ++ rest →
      (run done : ServiceFileStore α β).Sound := @Run.forall_prefix_of_allowed _ _ _
    (fun (store : ServiceFileStore α β) call => ((), ServiceFileStore.step store call))
    Sound SpellsNames (fun _ _ sound spelled => (sound.step spelled).1) {} sound_empty calls spelled
  refine ⟨fun done rest split => (always done rest split).resolves, ?_⟩
  intro done call rest split policyId owner belongs differ other
  have sound := always done _ split
  obtain ⟨sound', keeps⟩ := sound.step (spelled done call rest split)
  rw [sound'.belongsTo_iff, sound.belongsTo_iff,
    keeps policyId owner (sound.belongsTo_iff.mp belongs) differ]

end Runs

section Spelling

attribute [local instance] Platform.ascii

/-- A service gets another name. -/
def renamingRun : List (Call Unit Unit) :=
  [.createService { name := some "sales", content := () },
    .createPolicy { service := some "sales", name := some "orders", content := () },
    .updateService { id := 0, name := some "finance", content := () },
    .updatePolicy { id := 0, service := some "finance", name := some "ledger", content := () }]

theorem renaming_resolves_and_keepsOwners :
    (∀ done rest, renamingRun = done ++ rest →
        (run done : ServiceFileStore Unit Unit).Resolves) ∧
      ∀ done call rest, renamingRun = done ++ call :: rest →
        (run done : ServiceFileStore Unit Unit).KeepsOwners call := by
  have spelled : Run.Throughout
      (fun (store : ServiceFileStore Unit Unit) call => ((), ServiceFileStore.step store call))
      SpellsNames {} renamingRun := by
    refine ⟨trivial, ?_, ?_, ?_, trivial⟩
    · intro service found
      cases found
      rfl
    · intro existing found
      cases found
      refine .inr (.inr ⟨by decide, ?_⟩)
      intro policy listed _
      rw [show ServiceFileStore.getAllPolicies _ = [_] from rfl, List.mem_singleton] at listed
      subst listed
      exact ⟨rfl, nofun⟩
    · intro existing found _
      cases found
      rfl
  exact resolves_and_keepsOwners renamingRun spelled.at_split

/-- A service is given another spelling of its name. -/
def respellingRun : List (Call Unit Unit) :=
  [.createService { name := some "Sales", content := () },
    .createPolicy { service := some "Sales", name := some "orders", content := () },
    .updateService { id := 0, name := some "sales", content := () }]

/-- One of two services whose names differ in letter case is renamed. -/
def twinsRun : List (Call Unit Unit) :=
  [.createService { name := some "Sales", content := () },
    .createService { name := some "SALES", content := () },
    .createPolicy { service := some "SALES", name := some "orders", content := () }]

/-- The respelled service is not found by its policy, and the rename takes the other
service's policy along. -/
theorem spellings_break_references :
    ¬ (run respellingRun : ServiceFileStore Unit Unit).Resolves ∧
      ¬ (run twinsRun : ServiceFileStore Unit Unit).KeepsOwners
        (.updateService { id := 0, name := some "finance", content := () }) := by
  constructor
  · intro resolves
    obtain ⟨service, found, _⟩ := resolves (0, 0) _ rfl
    cases found
  · intro keeps
    have before : (run twinsRun : ServiceFileStore Unit Unit).BelongsTo 0 1 :=
      ⟨(1, 0), _, _, rfl, rfl, rfl, rfl⟩
    have after := (keeps 0 1 before (by decide) 0).mp ⟨(0, 0), _, _, rfl, rfl, rfl, rfl⟩
    obtain ⟨key, policy, service, stored, _, found, same⟩ := after
    have listed := AssocMap.get?_eq_some_iff.mp stored
    rw [show (run twinsRun : ServiceFileStore Unit Unit).policies.entries = [_] from rfl,
      List.mem_singleton] at listed
    cases listed
    cases found
    cases same

end Spelling

end ServiceFileStore

end Ranger

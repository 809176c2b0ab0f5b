import Ranger.Admin.ServiceStore
import Ranger.Foundation.Outcome

/-! # What a policy edit changes in the database

Creating, updating or deleting a policy moves the version of one service and touches
the policies of that service; the policies of other services at most lose one, which
goes to the service.
-/

namespace Ranger

open Foundation

namespace ServiceDBStore

section Services

/-- A service with its version moved. -/
def bumpRow (service : RangerService) : RangerService :=
  { service with
    policyVersion := some (match service.policyVersion with
      | none => 1
      | some policyVersion => policyVersion + 1) }

variable {store : ServiceDBStore} {serviceName : String} {service : RangerService}

theorem findService_eq_some (found : store.findService serviceName = some service) :
    service ∈ store.services ∧ service.name = serviceName :=
  ⟨List.mem_of_find?_eq_some found, by simpa using List.find?_some found⟩

/-- The version of the service that is found moves, and no other one. -/
theorem findService_updatePolicyVersion (keys : (store.services.map (·.id)).Nodup)
    (found : store.findService serviceName = some service) (name : String) :
    (store.updatePolicyVersion service).findService name =
      if name = serviceName then (store.findService name).map bumpRow
      else store.findService name := by
  obtain ⟨stored, named⟩ := findService_eq_some found
  have read : (store.updatePolicyVersion service).findService name =
      (store.findService name).map fun row =>
        if row.id = service.id then
          { row with
            policyVersion := some (match service.policyVersion with
              | none => 1
              | some policyVersion => policyVersion + 1) }
        else row := by
    unfold updatePolicyVersion findService
    rw [List.find?_map]
    congr 2
    funext row
    simp only [Function.comp_apply]
    split <;> rfl
  rw [read]
  by_cases same : name = serviceName
  · subst same
    rw [if_pos rfl, found]
    simp only [Option.map_some, ↓reduceIte, bumpRow]
  · rw [if_neg same]
    cases other : store.findService name with
    | none => rfl
    | some row =>
        obtain ⟨storedRow, namedRow⟩ := findService_eq_some other
        have apart : row.id ≠ service.id := by
          intro sameId
          have sameRow := List.inj_on_of_nodup_map keys storedRow stored sameId
          exact same (namedRow.symm.trans ((congrArg RangerService.name sameRow).trans named))
        rw [Option.map_some, if_neg apart]

theorem ids_updatePolicyVersion (store : ServiceDBStore) (service : RangerService) :
    (store.updatePolicyVersion service).services.map (·.id) = store.services.map (·.id) := by
  unfold updatePolicyVersion
  rw [List.map_map]
  refine List.map_congr_left fun row _ => ?_
  simp only [Function.comp_apply]
  split <;> rfl

end Services

/-- Ids are keys, and those of policies were given out. -/
structure Keyed (store : ServiceDBStore) : Prop where
  services : (store.services.map (·.id)).Nodup
  policies : (store.policies.map (·.id)).Nodup
  given : ∀ policy ∈ store.policies, ∃ id, policy.id = some id ∧ id < store.nextPolicyId

/-- The type of a service. -/
def serviceDefOf (store : ServiceDBStore) (serviceName : String) : Option RangerServiceDef :=
  (store.findService serviceName).bind fun service => store.findServiceDef service.type

/-- An edit of the policies of one service. -/
structure Edited (serviceName : String) (store after : ServiceDBStore) : Prop where
  keyed : after.Keyed
  services : ∀ name, after.findService name =
    if name = serviceName then (store.findService name).map bumpRow else store.findService name
  serviceDefs : after.serviceDefs = store.serviceDefs
  others : ∀ policy ∈ after.policies, policy.service ≠ serviceName → policy ∈ store.policies

theorem Edited.serviceDefOf {serviceName : String} {store after : ServiceDBStore}
    (edited : Edited serviceName store after) (name : String) :
    after.serviceDefOf name = store.serviceDefOf name := by
  unfold ServiceDBStore.serviceDefOf findServiceDef
  rw [edited.services name, edited.serviceDefs]
  by_cases same : name = serviceName
  · rw [if_pos same]
    cases store.findService name <;> rfl
  · rw [if_neg same]

section Edits

variable {store after : ServiceDBStore} {policy ret : RangerPolicy}

/-- The store with other policies and the version of a service moved. -/
theorem Edited.of_updatePolicyVersion (keyed : store.Keyed) {policies : List RangerPolicy}
    {nextPolicyId : Int} {service : RangerService} {serviceName : String}
    (found : store.findService serviceName = some service)
    (keys : (policies.map (·.id)).Nodup)
    (given : ∀ policy ∈ policies, ∃ id, policy.id = some id ∧ id < nextPolicyId)
    (others : ∀ policy ∈ policies, policy.service ≠ serviceName → policy ∈ store.policies) :
    Edited serviceName store
      (updatePolicyVersion { store with policies := policies, nextPolicyId := nextPolicyId }
        service) where
  keyed :=
    { services := by
        rw [ids_updatePolicyVersion]
        exact keyed.services
      policies := keys
      given := given }
  services name :=
    @findService_updatePolicyVersion
      { store with policies := policies, nextPolicyId := nextPolicyId } serviceName service
      keyed.services found name
  serviceDefs := rfl
  others := others

theorem serviceOf_eq_ok {service : RangerService} {serviceDef : RangerServiceDef}
    (known : store.serviceOf policy = .ok (service, serviceDef)) :
    store.findService policy.service = some service ∧
      store.serviceDefOf policy.service = some serviceDef := by
  unfold serviceOf at known
  split at known
  · nomatch known
  · next found =>
    split at known
    · nomatch known
    · next foundDef =>
      cases known
      refine ⟨found, ?_⟩
      unfold serviceDefOf
      rw [found]
      exact foundDef

/-- What a successful `createPolicy` stores and leaves. -/
theorem stored_of_createPolicy (created : store.createPolicy policy = .ok (ret, after)) :
    ∃ service serviceDef, store.findService policy.service = some service ∧
      store.serviceDefOf policy.service = some serviceDef ∧
      ret = store.stored serviceDef
        { policy with id := some store.nextPolicyId, version := some 1 } ∧
      after = updatePolicyVersion
        { store with policies := store.policies ++ [ret], nextPolicyId := store.nextPolicyId + 1 }
        service := by
  unfold createPolicy at created
  obtain ⟨⟨service, serviceDef⟩, known, created⟩ := Outcome.bind_eq_ok.mp created
  obtain ⟨found, typed⟩ := serviceOf_eq_ok known
  dsimp only at created
  split at created
  · nomatch created
  · cases created
    exact ⟨service, serviceDef, found, typed, rfl, rfl⟩

theorem Edited.of_createPolicy (keyed : store.Keyed)
    (created : store.createPolicy policy = .ok (ret, after)) :
    Edited policy.service store after ∧
      ∃ serviceDef, store.serviceDefOf policy.service = some serviceDef ∧
        ret.service = policy.service ∧ ret.resources = storedResources serviceDef policy.resources ∧
          after.policies = store.policies ++ [ret] := by
  obtain ⟨service, serviceDef, found, typed, rfl, rfl⟩ := stored_of_createPolicy created
  refine ⟨.of_updatePolicyVersion keyed found ?_ ?_ ?_, serviceDef, typed, rfl, rfl, rfl⟩
  · rw [List.map_append, List.map_singleton]
    refine List.nodup_append.mpr ⟨keyed.policies, List.nodup_singleton _, ?_⟩
    intro id listed other new same
    obtain ⟨old, stored, rfl⟩ := List.mem_map.mp listed
    obtain ⟨oldId, oldGiven, below⟩ := keyed.given old stored
    rw [same, List.mem_singleton.mp new] at oldGiven
    cases oldGiven
    exact Int.lt_irrefl _ below
  · intro other listed
    obtain old | new := List.mem_append.mp listed
    · obtain ⟨id, given, below⟩ := keyed.given other old
      exact ⟨id, given, Int.lt_trans below (Int.lt_succ _)⟩
    · rw [List.mem_singleton.mp new]
      exact ⟨_, rfl, Int.lt_succ _⟩
  · intro other listed elsewhere
    obtain old | new := List.mem_append.mp listed
    · exact old
    · rw [List.mem_singleton.mp new] at elsewhere
      exact absurd rfl elsewhere

theorem findPolicy_eq_some {id : Option Int} (found : store.findPolicy id = some policy) :
    policy ∈ store.policies ∧ policy.id = id := by
  refine ⟨List.mem_of_find?_eq_some found, ?_⟩
  have passes := List.find?_some found
  rw [Bool.and_eq_true] at passes
  exact beq_iff_eq.mp passes.2

/-- A policy takes the place of the one with its id. -/
theorem ids_replaced (policies : List RangerPolicy) {updated : RangerPolicy} {id : Option Int}
    (own : updated.id = id) :
    (policies.map fun row => if row.id = id then updated else row).map (·.id) =
      policies.map (·.id) := by
  rw [List.map_map]
  refine List.map_congr_left fun row _ => ?_
  simp only [Function.comp_apply]
  split
  · next same => exact own.trans same.symm
  · rfl

/-- What a successful `updatePolicy` stores and leaves, in place of the policy of the id. -/
theorem stored_of_updatePolicy [Platform]
    (updated : store.updatePolicy policy = .ok (ret, after)) :
    ∃ existing service serviceDef, store.findPolicy policy.id = some existing ∧
      store.findService policy.service = some service ∧
      store.serviceDefOf policy.service = some serviceDef ∧
      ret = store.stored serviceDef
        { policy with version := some (nextPolicyVersion policy.version) } ∧
      after = updatePolicyVersion
        { store with
          policies := store.policies.map fun row => if row.id = policy.id then ret else row }
        service := by
  unfold updatePolicy at updated
  split at updated
  · nomatch updated
  · next existing foundPolicy =>
    obtain ⟨⟨service, serviceDef⟩, known, updated⟩ := Outcome.bind_eq_ok.mp updated
    obtain ⟨found, typed⟩ := serviceOf_eq_ok known
    dsimp only at updated
    split at updated
    · nomatch updated
    · split at updated
      · nomatch updated
      · cases updated
        exact ⟨existing, service, serviceDef, foundPolicy, found, typed, rfl, rfl⟩

theorem Edited.of_updatePolicy [Platform] (keyed : store.Keyed)
    (updated : store.updatePolicy policy = .ok (ret, after)) :
    Edited policy.service store after ∧
      ∃ serviceDef, store.serviceDefOf policy.service = some serviceDef ∧
        ret.service = policy.service ∧ ret.resources = storedResources serviceDef policy.resources ∧
          ret.id = policy.id ∧
            after.policies = store.policies.map fun row =>
              if row.id = policy.id then ret else row := by
  obtain ⟨existing, service, serviceDef, foundPolicy, found, typed, rfl, rfl⟩ :=
    stored_of_updatePolicy updated
  obtain ⟨stored, sameId⟩ := findPolicy_eq_some foundPolicy
  refine ⟨.of_updatePolicyVersion keyed found ?_ ?_ ?_, serviceDef, typed, rfl, rfl, rfl, rfl⟩
  · exact Eq.mpr (congrArg List.Nodup (ids_replaced store.policies rfl)) keyed.policies
  · intro other listed
    obtain ⟨row, storedRow, rfl⟩ := List.mem_map.mp listed
    split
    · obtain ⟨id, given, below⟩ := keyed.given existing stored
      exact ⟨id, sameId.symm.trans given, below⟩
    · exact keyed.given row storedRow
  · intro other listed elsewhere
    obtain ⟨row, storedRow, rfl⟩ := List.mem_map.mp listed
    split
    · next same =>
      rw [if_pos same] at elsewhere
      exact absurd rfl elsewhere
    · exact storedRow

theorem Edited.of_deletePolicy (keyed : store.Keyed) {id : Int}
    (deleted : store.deletePolicy id = .ok after) :
    ∃ serviceName, Edited serviceName store after ∧
      ∀ policy ∈ after.policies, policy ∈ store.policies := by
  unfold deletePolicy at deleted
  obtain ⟨answer, _, deleted⟩ := Outcome.bind_eq_ok.mp deleted
  cases answer with
  | none => nomatch deleted
  | some policy =>
      dsimp only at deleted
      split at deleted
      · nomatch deleted
      · next service found =>
        cases deleted
        have kept : ∀ other ∈ store.policies.filter (·.id != some id), other ∈ store.policies :=
          fun other listed => List.mem_of_mem_filter listed
        refine ⟨policy.service, .of_updatePolicyVersion keyed found ?_ ?_ ?_, kept⟩
        · exact keyed.policies.sublist (List.filter_sublist.map _)
        · exact fun other listed => keyed.given other (kept other listed)
        · exact fun other listed _ => kept other listed

end Edits

end ServiceDBStore

end Ranger

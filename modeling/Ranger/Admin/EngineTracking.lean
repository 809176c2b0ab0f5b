import Ranger.Admin.ExactMatch
import Ranger.Admin.PolicyEdits

/-! # Engines that know the policies of their service

An engine that is kept was made of the policies its service had at some version. While
the service shows that version it has no other policies, whatever was edited elsewhere.
-/

namespace Ranger

open Foundation

/-- The policies of a service have levels of its type, each value once, and no two of
them have the same resources. -/
structure Apart (serviceDef : Option RangerServiceDef) (serviceName : String)
    (policies : List RangerPolicy) : Prop where
  defined : ∀ policy ∈ policies, policy.service = serviceName → ∀ found ∈ serviceDef,
    Defined found policy.resources
  distinct : ∀ policy ∈ policies, policy.service = serviceName → NoRepeats policy.resources
  apart : ∀ first ∈ policies, ∀ second ∈ policies, first.service = serviceName →
    second.service = serviceName → SameResources first.resources second.resources →
      first.id = second.id

section Apart

variable {serviceDef : Option RangerServiceDef} {serviceName : String}
  {policies after : List RangerPolicy}

theorem Apart.mono (apart : Apart serviceDef serviceName policies)
    (fewer : ∀ policy ∈ after, policy.service = serviceName → policy ∈ policies) :
    Apart serviceDef serviceName after where
  defined policy listed own := apart.defined policy (fewer policy listed own) own
  distinct policy listed own := apart.distinct policy (fewer policy listed own) own
  apart first listed second other own ownOther :=
    apart.apart first (fewer first listed own) second (fewer second other ownOther) own ownOther

/-- A policy that joins the others, or takes the place of one, stays apart from them. -/
theorem Apart.join (apart : Apart serviceDef serviceName policies) {policy : RangerPolicy}
    (defined : ∀ found ∈ serviceDef, Defined found policy.resources)
    (distinct : NoRepeats policy.resources)
    (members : ∀ other ∈ after, other = policy ∨ other ∈ policies ∧
      (other.service = serviceName → ¬SameResources policy.resources other.resources)) :
    Apart serviceDef serviceName after where
  defined other listed own := by
    obtain rfl | ⟨old, _⟩ := members other listed
    · exact defined
    · exact apart.defined other old own
  distinct other listed own := by
    obtain rfl | ⟨old, _⟩ := members other listed
    · exact distinct
    · exact apart.distinct other old own
  apart first listed second listedOther own ownOther same := by
    obtain rfl | ⟨old, free⟩ := members first listed
    · obtain rfl | ⟨oldOther, freeOther⟩ := members second listedOther
      · rfl
      · exact absurd same (freeOther ownOther)
    · obtain rfl | ⟨oldOther, freeOther⟩ := members second listedOther
      · exact absurd same.symm (free own)
      · exact apart.apart first old second oldOther own ownOther same

/-- **A policy more.** It is stored with resources that no other policy has. -/
theorem Apart.append (apart : Apart serviceDef serviceName policies) {policy : RangerPolicy}
    {resources : AssocMap String RangerPolicyResource} (stored : policy.resources = resources)
    (defined : ∀ found ∈ serviceDef, Defined found resources) (distinct : NoRepeats resources)
    (free : ∀ other ∈ policies, other.service = serviceName →
      ¬SameResources resources other.resources) :
    Apart serviceDef serviceName (policies ++ [policy]) := by
  subst stored
  refine apart.join defined distinct fun other listed => ?_
  obtain old | new := List.mem_append.mp listed
  · exact .inr ⟨old, free other old⟩
  · exact .inl (List.mem_singleton.mp new)

/-- **A policy changed.** It is stored with resources that no policy with another id has. -/
theorem Apart.replace (apart : Apart serviceDef serviceName policies) {policy : RangerPolicy}
    {id : Option Int} {resources : AssocMap String RangerPolicyResource}
    (stored : policy.resources = resources)
    (defined : ∀ found ∈ serviceDef, Defined found resources) (distinct : NoRepeats resources)
    (free : ∀ other ∈ policies, other.id ≠ id → other.service = serviceName →
      ¬SameResources resources other.resources) :
    Apart serviceDef serviceName (policies.map fun row => if row.id = id then policy else row) := by
  subst stored
  refine apart.join defined distinct fun other listed => ?_
  obtain ⟨old, storedOld, rfl⟩ := List.mem_map.mp listed
  by_cases same : old.id = id
  · exact .inl (if_pos same)
  · rw [if_neg same]
    exact .inr ⟨storedOld, free old storedOld same⟩

/-- Policies that are apart are pairwise so. -/
theorem Apart.pairwise (apart : Apart serviceDef serviceName policies)
    (keys : (policies.map (·.id)).Nodup) :
    (policies.filter (·.service == serviceName)).Pairwise fun first second =>
      ¬SameResources first.resources second.resources := by
  have unlike : policies.Pairwise fun first second => first.id ≠ second.id :=
    List.pairwise_map.mp keys
  refine (unlike.sublist List.filter_sublist).imp_of_mem
    fun {first second} listed other ids same => ?_
  obtain ⟨stored, own⟩ := List.mem_filter.mp listed
  obtain ⟨storedOther, ownOther⟩ := List.mem_filter.mp other
  exact ids (apart.apart first stored second storedOther (beq_iff_eq.mp own)
    (beq_iff_eq.mp ownOther) same)

end Apart

/-- An engine has the enabled policies of its service. -/
def Reflects [Platform] (serviceDef : RangerServiceDef) (serviceName : String)
    (policyEngine : RangerPolicyEngineImpl) (policies : List RangerPolicy) : Prop :=
  ServiceDBStore.passes serviceName serviceName = true → ∀ policy ∈ policies,
    policy.service = serviceName → policy.isEnabled = true → ∃ base ∈ policyEngine.bases,
      base.serviceDef = serviceDef ∧ base.policy.resources = policy.resources

/-- An engine is not ahead of the store, and one that is kept when it is asked for has
every policy its service still has. -/
structure Tracks [Platform] (store : ServiceDBStore) (serviceName : String)
    (policyEngine : RangerPolicyEngineImpl) : Prop where
  behind : ∀ service, store.findService serviceName = some service →
    policyEngine.getPolicyVersion ≤ service.policyVersion.getD (-1)
  current : ∀ service serviceDef, store.findService serviceName = some service →
    store.serviceDefOf serviceName = some serviceDef →
    service.policyVersion = none ∨ service.policyVersion = some policyEngine.getPolicyVersion →
      ∃ earlier, Apart (some serviceDef) serviceName earlier ∧
        (∀ policy ∈ store.policies, policy.service = serviceName → policy ∈ earlier) ∧
          Reflects serviceDef serviceName policyEngine earlier

section Tracks

variable [Platform] {store after : ServiceDBStore} {serviceName : String}
  {policyEngine other : RangerPolicyEngineImpl}

/-- Only the policies and the version of an engine count. -/
theorem Tracks.congr (tracks : Tracks store serviceName policyEngine)
    (bases : other.bases = policyEngine.bases)
    (version : other.getPolicyVersion = policyEngine.getPolicyVersion) :
    Tracks store serviceName other where
  behind := by
    rw [version]
    exact tracks.behind
  current service serviceDef found typed shown := by
    rw [version] at shown
    obtain ⟨earlier, apart, covers, reflects⟩ := tracks.current service serviceDef found typed shown
    refine ⟨earlier, apart, covers, ?_⟩
    unfold Reflects
    rw [bases]
    exact reflects

/-- An engine follows the edits of the policies of any service: those of its own leave
it behind. -/
theorem Tracks.of_edited (tracks : Tracks store serviceName policyEngine) {edited : String}
    (edit : ServiceDBStore.Edited edited store after) : Tracks after serviceName policyEngine := by
  by_cases own : serviceName = edited
  · subst own
    have moved : ∀ service, after.findService serviceName = some service →
        ∃ version, service.policyVersion = some version ∧
          policyEngine.getPolicyVersion < version := by
      intro service found
      rw [edit.services serviceName, if_pos rfl] at found
      obtain ⟨old, foundOld, rfl⟩ := Option.map_eq_some_iff.mp found
      have behind := tracks.behind old foundOld
      refine ⟨_, rfl, ?_⟩
      cases version : old.policyVersion with
      | none =>
          rw [version, Option.getD_none] at behind
          dsimp only
          omega
      | some number =>
          rw [version, Option.getD_some] at behind
          exact Int.lt_add_one_of_le behind
    refine ⟨fun service found => ?_, fun service serviceDef found _ shown => ?_⟩
    · obtain ⟨version, shown, below⟩ := moved service found
      rw [shown]
      exact below.le
    · obtain ⟨version, moved, below⟩ := moved service found
      obtain missing | same := shown
      · rw [moved] at missing
        nomatch missing
      · rw [moved, Option.some.injEq] at same
        exact absurd same.symm below.ne
  · have services := edit.services serviceName
    rw [if_neg own] at services
    refine ⟨fun service found => tracks.behind service (services ▸ found),
      fun service serviceDef found typed shown => ?_⟩
    rw [edit.serviceDefOf] at typed
    obtain ⟨earlier, apart, covers, reflects⟩ :=
      tracks.current service serviceDef (services ▸ found) typed shown
    refine ⟨earlier, apart, fun policy listed ofService => ?_, reflects⟩
    exact covers policy (edit.others policy listed fun same => own (ofService ▸ same)) ofService

variable [ClassLoader]

/-- A new engine has the policies that are stored. -/
theorem Tracks.of_create {service : RangerService} {serviceDef : RangerServiceDef}
    (found : store.findService serviceName = some service)
    (typed : store.findServiceDef service.type = some serviceDef)
    (apart : Apart (store.serviceDefOf serviceName) serviceName store.policies)
    (configuration : RangerConfiguration) (options : RangerPolicyEngineOptions) :
    Tracks store serviceName
      (.create configuration
        { serviceName := service.name
          serviceDef := serviceDef
          policies := store.getPolicies { serviceName := serviceName }
          policyVersion := service.policyVersion } options) := by
  have known : store.serviceDefOf serviceName = some serviceDef := by
    unfold ServiceDBStore.serviceDefOf
    rw [found]
    exact typed
  refine ⟨fun row foundRow => ?_, fun row rowDef foundRow knownRow _ => ?_⟩
  · rw [found, Option.some.injEq] at foundRow
    subst foundRow
    exact Int.le_refl _
  · rw [known] at apart knownRow
    cases knownRow
    refine ⟨store.policies, apart, fun policy listed _ => listed, ?_⟩
    intro searchable policy listed own enabled
    refine ⟨_, RangerPolicyEngineImpl.mem_bases_create.mpr ⟨policy, ?_, enabled, rfl⟩, rfl, rfl⟩
    refine List.mem_filter.mpr ⟨listed, ?_⟩
    rw [own, searchable]
    rfl

end Tracks

namespace ServiceDBStore

variable [Platform]

/-- What a service answers who has the policies of some version. -/
theorem getServicePoliciesIfUpdated_cases (store : ServiceDBStore) (serviceName : String)
    (lastKnownVersion : Int) :
    (∃ message, store.getServicePoliciesIfUpdated serviceName lastKnownVersion = .error message ∧
      store.serviceDefOf serviceName = none) ∨
    (∃ service, store.findService serviceName = some service ∧
      service.policyVersion = some lastKnownVersion ∧
        store.getServicePoliciesIfUpdated serviceName lastKnownVersion = .ok none) ∨
    ∃ service serviceDef, store.findService serviceName = some service ∧
      store.findServiceDef service.type = some serviceDef ∧
        service.policyVersion ≠ some lastKnownVersion ∧
          store.getServicePoliciesIfUpdated serviceName lastKnownVersion =
            .ok (some
              { serviceName := service.name
                serviceDef := serviceDef
                policies := store.getPolicies { serviceName := serviceName }
                policyVersion := service.policyVersion }) := by
  unfold getServicePoliciesIfUpdated serviceDefOf
  cases found : store.findService serviceName with
  | none => exact .inl ⟨_, rfl, rfl⟩
  | some service =>
      by_cases same : service.policyVersion = some lastKnownVersion
      · exact .inr (.inl ⟨service, rfl, same, if_pos same⟩)
      · cases typed : store.findServiceDef service.type with
        | none =>
            refine .inl ⟨some ("service-def does not exist. id=" ++ service.type), ?_, typed⟩
            simp only [if_neg same, typed]
        | some serviceDef =>
            refine .inr (.inr ⟨service, serviceDef, rfl, typed, same, ?_⟩)
            simp only [if_neg same, typed]

end ServiceDBStore

namespace ServiceREST

variable [Platform] [ClassLoader]

/-- The engine made of the policies that are stored. -/
def newEngine (rest : ServiceREST ServiceDBStore) (serviceName : String)
    (service : RangerService) (serviceDef : RangerServiceDef) : RangerPolicyEngineImpl :=
  .create rest.configuration
    { serviceName := service.name
      serviceDef := serviceDef
      policies := rest.svcStore.getPolicies { serviceName := serviceName }
      policyVersion := service.policyVersion } rest.engineCache.options

/-- An engine is kept, unless the version of its service has moved, or a new one is made. -/
theorem getPolicyEngine_cases (rest : ServiceREST ServiceDBStore) (serviceName : String) :
    (rest.getPolicyEngine serviceName =
        (rest.engineCache.policyEngineCache.get? serviceName, rest) ∧
      ∀ policyEngine service, rest.engineCache.policyEngineCache.get? serviceName =
          some policyEngine → rest.svcStore.findService serviceName = some service →
        (rest.svcStore.serviceDefOf serviceName).isSome →
          service.policyVersion = none ∨
            service.policyVersion = some policyEngine.getPolicyVersion) ∨
    ∃ service serviceDef, rest.svcStore.findService serviceName = some service ∧
      rest.svcStore.findServiceDef service.type = some serviceDef ∧
        rest.getPolicyEngine serviceName =
          (some (rest.newEngine serviceName service serviceDef),
            rest.keepEngine serviceName (rest.newEngine serviceName service serviceDef)) := by
  have asked := fun lastKnownVersion : Int =>
    rest.svcStore.getServicePoliciesIfUpdated_cases serviceName lastKnownVersion
  unfold getPolicyEngine RangerPolicyEngineCache.getPolicyEngine
  cases kept : rest.engineCache.policyEngineCache.get? serviceName with
  | none =>
      obtain ⟨message, answer, _⟩ | ⟨service, _, _, answer⟩ |
        ⟨service, serviceDef, found, typed, _, answer⟩ := asked (-1)
      · refine .inl ⟨?_, nofun⟩
        simp only [ServiceStore.getServicePoliciesIfUpdated, Option.map_none, Option.getD_none,
          answer]
      · refine .inl ⟨?_, nofun⟩
        simp only [ServiceStore.getServicePoliciesIfUpdated, Option.map_none, Option.getD_none,
          answer]
      · have named := (ServiceDBStore.findService_eq_some found).2
        refine .inr ⟨service, serviceDef, found, typed, ?_⟩
        simp only [ServiceStore.getServicePoliciesIfUpdated, Option.map_none, Option.getD_none,
          answer, Option.isNone_none, ↓reduceIte, RangerPolicyEngineCache.addPolicyEngine,
          keepEngine, newEngine, named]
  | some policyEngine =>
      obtain ⟨message, answer, untyped⟩ | ⟨service, found, same, answer⟩ |
        ⟨service, serviceDef, found, typed, apart, answer⟩ := asked policyEngine.getPolicyVersion
      · refine .inl ⟨?_, fun _ _ _ _ typed => ?_⟩
        · simp only [ServiceStore.getServicePoliciesIfUpdated, Option.map_some, Option.getD_some,
            answer]
        · rw [untyped] at typed
          nomatch typed
      · refine .inl ⟨?_, fun _ other keptOther foundOther _ => ?_⟩
        · simp only [ServiceStore.getServicePoliciesIfUpdated, Option.map_some, Option.getD_some,
            answer]
        · rw [found, Option.some.injEq] at foundOther
          rw [Option.some.injEq] at keptOther
          subst foundOther keptOther
          exact .inr same
      · have named := (ServiceDBStore.findService_eq_some found).2
        cases version : service.policyVersion with
        | none =>
            refine .inl ⟨?_, fun _ other _ foundOther _ => ?_⟩
            · simp only [ServiceStore.getServicePoliciesIfUpdated, Option.map_some,
                Option.getD_some, answer, Option.isNone_some, version, Option.isSome_none,
                Bool.false_and, Bool.false_eq_true, ↓reduceIte]
            · rw [found, Option.some.injEq] at foundOther
              exact .inl (foundOther ▸ version)
        | some number =>
            rw [version] at apart
            have moved : (some number != some policyEngine.getPolicyVersion) = true :=
              bne_iff_ne.mpr apart
            refine .inr ⟨service, serviceDef, found, typed, ?_⟩
            simp only [ServiceStore.getServicePoliciesIfUpdated, Option.map_some,
              Option.getD_some, answer, Option.isNone_some, version, Option.isSome_some, moved,
              Bool.true_and, Bool.false_eq_true, ↓reduceIte,
              RangerPolicyEngineCache.addPolicyEngine, keepEngine, newEngine, named]

/-- Every policy of a service has its resources for itself, and the engines that are
kept know enough to keep it so. -/
structure OnePerResource (serviceName : String) (rest : ServiceREST ServiceDBStore) : Prop where
  keyed : rest.svcStore.Keyed
  apart : Apart (rest.svcStore.serviceDefOf serviceName) serviceName rest.svcStore.policies
  engine : ∀ policyEngine,
    rest.engineCache.policyEngineCache.get? serviceName = some policyEngine →
      Tracks rest.svcStore serviceName policyEngine

/-- An engine that was asked for is kept, and shows the version of its service. -/
structure Handed (name : String) (policyEngine : RangerPolicyEngineImpl)
    (rest : ServiceREST ServiceDBStore) : Prop where
  kept : rest.engineCache.policyEngineCache.get? name = some policyEngine
  shown : ∀ service, rest.svcStore.findService name = some service →
    (rest.svcStore.serviceDefOf name).isSome →
      service.policyVersion = none ∨ service.policyVersion = some policyEngine.getPolicyVersion

section Engines

variable {serviceName name : String} {rest : ServiceREST ServiceDBStore}
  {policyEngine other : RangerPolicyEngineImpl}

omit [ClassLoader] in
theorem OnePerResource.keepEngine (one : OnePerResource serviceName rest)
    (tracks : name = serviceName → Tracks rest.svcStore serviceName policyEngine) :
    OnePerResource serviceName (rest.keepEngine name policyEngine) where
  keyed := one.keyed
  apart := one.apart
  engine other kept := by
    rw [ServiceREST.keepEngine, AssocMap.get?_put] at kept
    by_cases own : serviceName = name
    · rw [if_pos own, Option.some.injEq] at kept
      exact kept ▸ tracks own.symm
    · rw [if_neg own] at kept
      exact one.engine other kept

@[simp] theorem getPolicyEngine_svcStore (rest : ServiceREST ServiceDBStore) (name : String) :
    (rest.getPolicyEngine name).2.svcStore = rest.svcStore := rfl

theorem OnePerResource.getPolicyEngine (one : OnePerResource serviceName rest) (name : String) :
    OnePerResource serviceName (rest.getPolicyEngine name).2 := by
  obtain ⟨same, _⟩ | ⟨service, serviceDef, found, typed, made⟩ := rest.getPolicyEngine_cases name
  · rw [same]
    exact one
  · rw [made]
    refine one.keepEngine fun own => ?_
    subst own
    exact Tracks.of_create found typed one.apart rest.configuration rest.engineCache.options

theorem handed_getPolicyEngine (given : (rest.getPolicyEngine name).1 = some policyEngine) :
    Handed name policyEngine (rest.getPolicyEngine name).2 := by
  obtain ⟨same, shown⟩ | ⟨service, serviceDef, found, typed, made⟩ :=
    rest.getPolicyEngine_cases name
  · rw [same] at given ⊢
    exact ⟨given, fun service found => shown policyEngine service given found⟩
  · rw [made, Option.some.injEq] at given
    rw [made]
    subst given
    refine ⟨?_, fun row foundRow _ => ?_⟩
    · rw [ServiceREST.keepEngine, AssocMap.get?_put, if_pos rfl]
    · rw [show rest.svcStore.findService name = some row from foundRow,
        Option.some.injEq] at found
      subst found
      cases version : row.policyVersion with
      | none => exact .inl rfl
      | some number =>
          refine .inr ?_
          unfold newEngine RangerPolicyEngineImpl.create RangerPolicyEngineImpl.getPolicyVersion
            RangerPolicyRepository.create
          rw [version, Option.getD_some]

/-- The engine a grantor is given is the kept one, with other match caches at most. -/
theorem OnePerResource.adminEngine (one : OnePerResource serviceName rest) (name : String)
    (userName : Option String) (userGroups : List String) (resource : RangerAccessResource) :
    OnePerResource serviceName (rest.adminEngine name userName userGroups resource).2 ∧
      (rest.adminEngine name userName userGroups resource).2.svcStore = rest.svcStore ∧
        ∀ policyEngine,
          (rest.adminEngine name userName userGroups resource).1 = some policyEngine →
            Handed name policyEngine (rest.adminEngine name userName userGroups resource).2 ∧
              ∃ asked ∈ (rest.getPolicyEngine name).1, policyEngine.bases = asked.bases := by
  have oneAsked := one.getPolicyEngine name
  have store := rest.getPolicyEngine_svcStore name
  have handed := fun policyEngine => @handed_getPolicyEngine _ _ name rest policyEngine
  unfold ServiceREST.adminEngine
  generalize rest.getPolicyEngine name = asked at oneAsked store handed ⊢
  obtain ⟨answer, after⟩ := asked
  cases answer with
  | none => exact ⟨oneAsked, store, nofun⟩
  | some policyEngine =>
      have kept := handed policyEngine rfl
      have bases := policyEngine.isAccessAllowed_bases resource userName userGroups ADMIN_ACCESS
      have version : (policyEngine.isAccessAllowed resource userName userGroups
          ADMIN_ACCESS).2.getPolicyVersion = policyEngine.getPolicyVersion := rfl
      dsimp only
      generalize policyEngine.isAccessAllowed resource userName userGroups ADMIN_ACCESS = used
        at bases version ⊢
      obtain ⟨isAdmin, usedEngine⟩ := used
      have oneUsed : OnePerResource serviceName (after.keepEngine name usedEngine) := by
        refine oneAsked.keepEngine fun own => ?_
        subst own
        exact (oneAsked.engine policyEngine kept.kept).congr bases version
      cases isAdmin with
      | false => exact ⟨oneUsed, store, nofun⟩
      | true =>
          refine ⟨oneUsed, store, fun other given => ?_⟩
          cases given
          refine ⟨⟨?_, ?_⟩, policyEngine, rfl, bases⟩
          · simp only [↓reduceIte, ServiceREST.keepEngine, AssocMap.get?_put]
          · intro service found typed
            rw [version]
            exact kept.shown service found typed

end Engines

end ServiceREST

end Ranger

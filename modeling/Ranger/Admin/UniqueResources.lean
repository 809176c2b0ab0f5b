import Ranger.Admin.EngineTracking
import Ranger.Foundation.Run

/-! # One policy for each resource

No two policies of a service are to have the same resources. Creating and updating a
policy asks the validator, which compares it with all policies of its service; a grant
asks the engine, which knows the enabled ones only.
-/

namespace Ranger

open Foundation

namespace ServiceREST

section Conditions

variable [Platform] [ClassLoader]

section Edits

variable {serviceName name : String} {rest : ServiceREST ServiceDBStore} {after : ServiceDBStore}

omit [ClassLoader] in
/-- The edit of the policies of a service keeps them apart, or is of another service. -/
theorem OnePerResource.of_edited (one : OnePerResource serviceName rest)
    (edited : ServiceDBStore.Edited name rest.svcStore after)
    (apart : name = serviceName →
      Apart (rest.svcStore.serviceDefOf serviceName) serviceName after.policies) :
    OnePerResource serviceName { rest with svcStore := after } where
  keyed := edited.keyed
  apart := by
    rw [edited.serviceDefOf]
    by_cases own : name = serviceName
    · exact apart own
    · refine one.apart.mono fun policy listed ofService => edited.others policy listed ?_
      exact fun same => own (same.symm.trans ofService)
  engine policyEngine kept := (one.engine policyEngine kept).of_edited edited

omit [Platform] [ClassLoader] in
theorem exists_findService_of_serviceDefOf {store : ServiceDBStore} {serviceDef : RangerServiceDef}
    (typed : store.serviceDefOf name = some serviceDef) :
    ∃ service, store.findService name = some service := by
  obtain ⟨service, found, _⟩ := Option.bind_eq_some_iff.mp typed
  exact ⟨service, found⟩

omit [ClassLoader] in
/-- **Edits of the policy found.** A stored policy keeps its resources, and no other
policy of the service has these. -/
theorem OnePerResource.storeEdited (one : OnePerResource serviceName rest)
    {policy : RangerPolicy} (listed : policy ∈ rest.svcStore.policies)
    (edit : List RangerPolicyItem → List RangerPolicyItem × Bool) :
    OnePerResource serviceName (rest.storeEdited policy edit).2 := by
  unfold ServiceREST.storeEdited
  generalize edit policy.policyItems = edited
  obtain ⟨policyItems, policyUpdated⟩ := edited
  cases policyUpdated with
  | false => exact one
  | true =>
      simp only [↓reduceIte]
      cases performed : ServiceStore.updatePolicy rest.svcStore
          { policy with policyItems := policyItems } with
      | error message => exact one
      | ok result =>
          obtain ⟨ret, after⟩ := result
          obtain ⟨edited, serviceDef, typed, service, resources, id, policies⟩ :=
            ServiceDBStore.Edited.of_updatePolicy one.keyed performed
          refine one.of_edited edited fun own => ?_
          dsimp only at own typed resources id policies
          subst own
          have defined := one.apart.defined policy listed rfl
          have kept : ret.resources = policy.resources :=
            resources.trans (storedResources_of_defined (defined serviceDef typed))
          rw [policies]
          exact one.apart.replace kept defined (one.apart.distinct policy listed rfl)
            fun old stored another ofOld same =>
              another (one.apart.apart policy listed old stored rfl ofOld same).symm

omit [ClassLoader] in
/-- A policy that is found for a grant is a stored one. -/
theorem mem_policies_of_getExactMatchPolicyForResource {policyEngine : RangerPolicyEngineImpl}
    {resource : RangerAccessResource} {policy : RangerPolicy}
    (exact : rest.getExactMatchPolicyForResource policyEngine resource = .ok (some policy)) :
    policy ∈ rest.svcStore.policies := by
  obtain ⟨id, read⟩ := rest.getPolicy_of_getExactMatchPolicyForResource exact
  change rest.svcStore.getPolicy id = .ok (some policy) at read
  unfold ServiceDBStore.getPolicy at read
  split at read
  · nomatch read
  · next found =>
    cases read
    exact (ServiceDBStore.findPolicy_eq_some found).1

omit [ClassLoader] in
/-- The store has what the engine finds, or fails. -/
theorem getExactMatchPolicy_of_missed {policyEngine : RangerPolicyEngineImpl}
    {resource : RangerAccessResource}
    (missed : rest.getExactMatchPolicyForResource policyEngine resource = .ok none) :
    policyEngine.getExactMatchPolicy resource = none := by
  unfold getExactMatchPolicyForResource at missed
  split at missed
  · assumption
  · split at missed
    · cases missed
    · next id _ =>
      change rest.svcStore.getPolicy id = .ok none at missed
      unfold ServiceDBStore.getPolicy at missed
      split at missed <;> cases missed

/-- The resources of a policy as they are stored are those it is given with, its values
are told apart, and a search by the name of its service finds what it is compared with. -/
structure Comparable (store : ServiceDBStore) (serviceName : String)
    (resources : AssocMap String RangerPolicyResource) : Prop where
  searchable : ServiceDBStore.passes serviceName serviceName = true
  defined : ∀ serviceDef ∈ store.serviceDefOf serviceName, Defined serviceDef resources
  distinct : NoRepeats resources

instance (store : ServiceDBStore) (serviceName : String)
    (resources : AssocMap String RangerPolicyResource) :
    Decidable (Comparable store serviceName resources) :=
  decidable_of_iff
    (ServiceDBStore.passes serviceName serviceName = true ∧
      (∀ serviceDef ∈ store.serviceDefOf serviceName, Defined serviceDef resources) ∧
        NoRepeats resources)
    ⟨fun ⟨searchable, defined, distinct⟩ => ⟨searchable, defined, distinct⟩,
      fun comparable => ⟨comparable.searchable, comparable.defined, comparable.distinct⟩⟩

omit [ClassLoader] in
/-- A policy that passes the validator has its resources for itself. -/
theorem not_same_of_isValid {store : ServiceDBStore} {policy other : RangerPolicy}
    {action : Action} {isAdmin : Bool}
    (valid : RangerPolicyValidator.isValid store policy action isAdmin = [])
    (comparable : Comparable store policy.service policy.resources)
    (stored : other ∈ store.policies) (own : other.service = policy.service)
    (distinct : NoRepeats other.resources) (apart : action = .update → other.id ≠ policy.id) :
    ¬SameResources policy.resources other.resources := by
  intro same
  obtain ⟨before, resources⟩ := List.append_eq_nil_iff.mp valid
  obtain ⟨before, _⟩ := List.append_eq_nil_iff.mp before
  obtain ⟨_, service⟩ := List.append_eq_nil_iff.mp before
  have named : isBlank policy.service = false := by
    unfold RangerPolicyValidator.isValidService at service
    split at service
    · nomatch service
    · next named => exact Bool.eq_false_iff.mpr named
  unfold RangerPolicyValidator.isValidResources at resources
  rw [named, if_neg Bool.false_ne_true] at resources
  have unique := (List.append_eq_nil_iff.mp resources).2
  unfold RangerPolicyValidator.isPolicyResourceUnique at unique
  split at unique
  · next free =>
    have listed : other ∈ RangerPolicyValidator.getPolicies store policy.service "" := by
      refine List.mem_filter.mpr ⟨stored, ?_⟩
      rw [own, comparable.searchable]
      rfl
    have refused := List.find?_eq_none.mp free other listed
    rw [Bool.and_eq_true, not_and] at refused
    have skipped : (!(other.id == policy.id && action == .update)) = true := by
      cases action with
      | create => simp
      | delete => simp
      | update => simpa using apart rfl
    refine refused skipped (beq_iff_eq.mpr ?_)
    exact resourceSignature_eq_of_same comparable.distinct distinct same
  · nomatch unique

theorem OnePerResource.ensureAdminAccess (one : OnePerResource serviceName rest)
    (session : UserSession) (resources : AssocMap String RangerPolicyResource) :
    OnePerResource serviceName (rest.ensureAdminAccess session name resources).2 := by
  unfold ServiceREST.ensureAdminAccess
  have asked := one.getPolicyEngine name
  split
  · exact one
  · dsimp only
    split <;> exact asked

/-- An edit that passes the validator keeps the resources apart if the store does. -/
theorem OnePerResource.editPolicy (one : OnePerResource serviceName rest) {session : UserSession}
    {policy : RangerPolicy} {action : Action}
    {denial : WebApplicationException → WebApplicationException}
    {edit : ServiceDBStore → Throws (RangerPolicy × ServiceDBStore)}
    (edited : RangerPolicyValidator.isValid rest.svcStore policy action session.isUserAdmin = [] →
      ∀ ret after, edit rest.svcStore = .ok (ret, after) →
        ServiceDBStore.Edited policy.service rest.svcStore after ∧
          (policy.service = serviceName →
            Apart (rest.svcStore.serviceDefOf serviceName) serviceName after.policies)) :
    OnePerResource serviceName (rest.editPolicy session policy action denial edit).2 := by
  have asked := @OnePerResource.ensureAdminAccess _ _ _ policy.service _ one
    session policy.resources
  have store := rest.ensureAdminAccess_svcStore session policy.service policy.resources
  unfold ServiceREST.editPolicy
  cases validated : RangerPolicyValidator.validate rest.svcStore policy action
      session.isUserAdmin with
  | error message => exact one
  | ok _ =>
      generalize rest.ensureAdminAccess session policy.service policy.resources = answer
        at asked store ⊢
      obtain ⟨access, admitted⟩ := answer
      dsimp only at asked store ⊢
      cases access with
      | error denied => exact asked
      | ok granted =>
          cases granted
          dsimp only
          rw [store]
          cases performed : edit rest.svcStore with
          | error message => exact asked
          | ok result =>
              obtain ⟨ret, after⟩ := result
              have valid : RangerPolicyValidator.isValid rest.svcStore policy action
                  session.isUserAdmin = [] := by
                unfold RangerPolicyValidator.validate RangerPolicyValidator.report at validated
                split at validated
                · nomatch validated
                · split at validated
                  · next valid => exact valid
                  · nomatch validated
              obtain ⟨edits, apart⟩ := edited valid ret after performed
              dsimp only
              rw [← store] at edits apart
              exact asked.of_edited edits apart

theorem OnePerResource.createPolicy (one : OnePerResource serviceName rest)
    (session : UserSession) (newGuid : String) {policy : RangerPolicy}
    (comparable : policy.service = serviceName →
      Comparable rest.svcStore serviceName policy.resources) :
    OnePerResource serviceName (rest.createPolicy session newGuid policy).2 := by
  have sameService : (named newGuid policy).service = policy.service := by
    unfold named
    split <;> rfl
  have sameResources : (named newGuid policy).resources = policy.resources := by
    unfold named
    split <;> rfl
  unfold ServiceREST.createPolicy
  generalize named newGuid policy = given at sameService sameResources ⊢
  refine one.editPolicy fun valid ret after performed => ?_
  obtain ⟨edited, serviceDef, typed, service, resources, policies⟩ :=
    ServiceDBStore.Edited.of_createPolicy one.keyed performed
  refine ⟨edited, fun own => ?_⟩
  subst own
  have fits := comparable sameService.symm
  rw [← sameResources] at fits
  have defined := fits.defined serviceDef typed
  have kept := resources.trans (storedResources_of_defined defined)
  rw [policies]
  exact one.apart.append kept fits.defined fits.distinct fun other old ofService =>
    not_same_of_isValid valid fits old ofService (one.apart.distinct other old ofService) nofun

theorem OnePerResource.updatePolicy (one : OnePerResource serviceName rest)
    (session : UserSession) {policy : RangerPolicy}
    (comparable : policy.service = serviceName →
      Comparable rest.svcStore serviceName policy.resources) :
    OnePerResource serviceName (rest.updatePolicy session policy).2 := by
  unfold ServiceREST.updatePolicy
  refine one.editPolicy fun valid ret after performed => ?_
  obtain ⟨edited, serviceDef, typed, service, resources, id, policies⟩ :=
    ServiceDBStore.Edited.of_updatePolicy one.keyed performed
  refine ⟨edited, fun own => ?_⟩
  subst own
  have fits := comparable rfl
  have defined := fits.defined serviceDef typed
  have kept := resources.trans (storedResources_of_defined defined)
  rw [policies]
  exact one.apart.replace kept fits.defined fits.distinct fun other old another ofService =>
    not_same_of_isValid valid fits old ofService (one.apart.distinct other old ofService)
      fun _ => another

theorem OnePerResource.deletePolicy (one : OnePerResource serviceName rest)
    (session : UserSession) (id : Int) :
    OnePerResource serviceName (rest.deletePolicy session id).2 := by
  unfold ServiceREST.deletePolicy
  split
  · exact one
  · split
    · exact one
    · exact one
    · next policy _ =>
      have asked := @OnePerResource.ensureAdminAccess _ _ _ policy.service _ one session
        policy.resources
      have store := rest.ensureAdminAccess_svcStore session policy.service policy.resources
      generalize rest.ensureAdminAccess session policy.service policy.resources = answer
        at asked store ⊢
      obtain ⟨access, admitted⟩ := answer
      cases access with
      | error denied => exact asked
      | ok _ =>
          dsimp only
          split
          · exact asked
          · next after performed =>
            obtain ⟨edited, edits, kept⟩ :=
              ServiceDBStore.Edited.of_deletePolicy asked.keyed performed
            exact asked.of_edited edits fun _ =>
              asked.apart.mono fun other listed _ => kept other listed

end Edits

section Grants

/-- No disabled policy of the service has the resources the grant would create a policy
for; they are levels of its type, which has some. -/
structure FreeFor (store : ServiceDBStore) (serviceName : String) (request : GrantRevokeRequest) :
    Prop where
  searchable : ServiceDBStore.passes serviceName serviceName = true
  defined : ∀ serviceDef ∈ store.serviceDefOf serviceName,
    serviceDef.resources ≠ [] ∧ Defined serviceDef (grantedResources request)
  disabled : ∀ policy ∈ store.policies, policy.service = serviceName →
    policy.isEnabled = false → ¬SameResources policy.resources (grantedResources request)

instance (store : ServiceDBStore) (serviceName : String) (request : GrantRevokeRequest) :
    Decidable (FreeFor store serviceName request) :=
  decidable_of_iff
    (ServiceDBStore.passes serviceName serviceName = true ∧
      (∀ serviceDef ∈ store.serviceDefOf serviceName,
        (serviceDef.resources.isEmpty = false ∧ Defined serviceDef (grantedResources request))) ∧
        ∀ policy ∈ store.policies, policy.service = serviceName → policy.isEnabled = false →
          ¬SameResources policy.resources (grantedResources request))
    ⟨fun ⟨searchable, defined, disabled⟩ =>
        ⟨searchable, fun serviceDef known =>
          ⟨List.isEmpty_eq_false_iff.mp (defined serviceDef known).1,
            (defined serviceDef known).2⟩, disabled⟩,
      fun free => ⟨free.searchable, fun serviceDef known =>
        ⟨List.isEmpty_eq_false_iff.mpr (free.defined serviceDef known).1,
          (free.defined serviceDef known).2⟩, free.disabled⟩⟩

variable {serviceName name : String} {rest : ServiceREST ServiceDBStore}

omit [Platform] [ClassLoader] in
theorem grantedResources_noRepeats (request : GrantRevokeRequest) :
    NoRepeats (grantedResources request) := by
  intro entry listed
  obtain ⟨_, _, rfl⟩ := List.mem_map.mp listed
  exact List.nodup_singleton _

omit [ClassLoader] in
/-- **Created by grant.** A grant that finds no exact match among the enabled policies
creates one that is the only one, unless a disabled one has the resources. -/
theorem OnePerResource.createGranted (one : OnePerResource serviceName rest)
    {policyEngine : RangerPolicyEngineImpl} (handed : Handed name policyEngine rest)
    {request : GrantRevokeRequest}
    (missed : policyEngine.getExactMatchPolicy { elements := some request.resource } = none)
    (free : name = serviceName → FreeFor rest.svcStore serviceName request) {time : String}
    {ret : RangerPolicy} {after : ServiceDBStore}
    (performed : ServiceStore.createPolicy rest.svcStore (grantedPolicy name time request) =
      .ok (ret, after)) :
    OnePerResource serviceName { rest with svcStore := after } := by
  obtain ⟨edited, serviceDef, typed, service, resources, policies⟩ :=
    ServiceDBStore.Edited.of_createPolicy one.keyed performed
  refine one.of_edited edited fun own => ?_
  have here : name = serviceName := own
  subst here
  have fits := free rfl
  obtain ⟨levels, defined⟩ := fits.defined serviceDef typed
  have kept : ret.resources = grantedResources request :=
    resources.trans (storedResources_of_defined defined)
  obtain ⟨row, found⟩ := exists_findService_of_serviceDefOf typed
  have shown := handed.shown row found (Option.isSome_iff_exists.mpr ⟨serviceDef, typed⟩)
  obtain ⟨earlier, apart, covers, reflects⟩ :=
    (one.engine policyEngine handed.kept).current row serviceDef found typed shown
  rw [policies]
  refine one.apart.append kept (fun other known => (fits.defined other known).2)
    (grantedResources_noRepeats request) fun other old ofService same => ?_
  cases enabled : other.isEnabled with
  | false => exact fits.disabled other old ofService enabled same.symm
  | true =>
      -- the engine has the policy, so that it would have been found
      have before := covers other old ofService
      obtain ⟨base, member, ofType, sameResources⟩ :=
        reflects fits.searchable other before ofService enabled
      have exact : base.isSingleAndExactMatch { elements := some request.resource } = true := by
        apply isSingleAndExactMatch_of_same
        · rwa [ofType]
        · rw [ofType, sameResources]
          exact apart.defined other before ofService serviceDef rfl
        · rw [sameResources]
          exact apart.distinct other before ofService
        · rw [sameResources]
          exact same.symm
      rw [policyEngine.getExactMatchPolicy_eq, Option.map_eq_none_iff] at missed
      exact List.find?_eq_none.mp missed base member exact

theorem OnePerResource.grantAccess (one : OnePerResource serviceName rest)
    (userGroups : List String) (time : String) {request : GrantRevokeRequest}
    (free : name = serviceName → ∀ policyEngine ∈ (rest.getPolicyEngine name).1,
      policyEngine.getExactMatchPolicy { elements := some request.resource } = none →
        FreeFor rest.svcStore serviceName request) :
    OnePerResource serviceName (rest.grantAccess name userGroups time request).2 := by
  obtain ⟨asked, store, handed⟩ := one.adminEngine name (some request.grantor) userGroups
    { elements := some request.resource }
  unfold ServiceREST.grantAccess
  dsimp only
  generalize rest.adminEngine name (some request.grantor) userGroups
    { elements := some request.resource } = answer at asked store handed ⊢
  obtain ⟨access, admitted⟩ := answer
  cases access with
  | none => exact asked
  | some policyEngine =>
      obtain ⟨given, known, member, bases⟩ := handed policyEngine rfl
      dsimp only at asked store given ⊢
      cases found : admitted.getExactMatchPolicyForResource policyEngine
          { elements := some request.resource } with
      | error message => exact asked
      | ok match? =>
        cases match? with
        | some policy =>
          exact asked.storeEdited (mem_policies_of_getExactMatchPolicyForResource found)
            (grantToPolicyItems request)
        | none =>
          dsimp only
          split
          · exact asked
          · next ret after performed =>
            have exact := getExactMatchPolicy_of_missed found
            have unmatched := exact
            rw [policyEngine.getExactMatchPolicy_eq, bases, ← known.getExactMatchPolicy_eq]
              at unmatched
            rw [← store] at free
            exact asked.createGranted given exact (fun own => free own known member unmatched)
              performed

theorem OnePerResource.revokeAccess (one : OnePerResource serviceName rest)
    (userGroups : List String) (request : GrantRevokeRequest) :
    OnePerResource serviceName (rest.revokeAccess name userGroups request).2 := by
  obtain ⟨asked, _⟩ := one.adminEngine name (some request.grantor) userGroups
    { elements := some request.resource }
  unfold ServiceREST.revokeAccess
  dsimp only
  generalize rest.adminEngine name (some request.grantor) userGroups
    { elements := some request.resource } = answer at asked ⊢
  obtain ⟨access, admitted⟩ := answer
  cases access with
  | none => exact asked
  | some policyEngine =>
      dsimp only at asked ⊢
      cases found : admitted.getExactMatchPolicyForResource policyEngine
          { elements := some request.resource } with
      | error message => exact asked
      | ok match? =>
        cases match? with
        | some policy =>
          exact asked.storeEdited (mem_policies_of_getExactMatchPolicyForResource found)
            (revokeFromPolicyItems request)
        | none => exact asked

end Grants

section Runs

/-- A service without policies, and no engine of it that is ahead. -/
structure Vacant (serviceName : String) (rest : ServiceREST ServiceDBStore) : Prop where
  keyed : rest.svcStore.Keyed
  vacant : ∀ policy ∈ rest.svcStore.policies, policy.service ≠ serviceName
  behind : ∀ policyEngine service,
    rest.engineCache.policyEngineCache.get? serviceName = some policyEngine →
      rest.svcStore.findService serviceName = some service →
        policyEngine.getPolicyVersion ≤ service.policyVersion.getD (-1)

/-- What a call that stores a policy in a service has to see to. -/
def KeepsApart (serviceName : String) (rest : ServiceREST ServiceDBStore) : PolicyCall → Prop
  | .createPolicy _ _ policy =>
      policy.service = serviceName → Comparable rest.svcStore serviceName policy.resources
  | .updatePolicy _ policy =>
      policy.service = serviceName → Comparable rest.svcStore serviceName policy.resources
  | .deletePolicy _ _ => True
  | .grantAccess name _ _ request =>
      name = serviceName → ∀ policyEngine ∈ (rest.getPolicyEngine name).1,
        policyEngine.getExactMatchPolicy { elements := some request.resource } = none →
          FreeFor rest.svcStore serviceName request
  | .revokeAccess _ _ _ => True

instance (serviceName : String) (rest : ServiceREST ServiceDBStore) (call : PolicyCall) :
    Decidable (KeepsApart serviceName rest call) := by
  cases call <;> unfold KeepsApart <;> infer_instance

variable {serviceName : String} {rest : ServiceREST ServiceDBStore}

omit [ClassLoader] in
theorem OnePerResource.of_vacant (vacant : Vacant serviceName rest) :
    OnePerResource serviceName rest where
  keyed := vacant.keyed
  apart :=
    { defined := fun policy listed own => absurd own (vacant.vacant policy listed)
      distinct := fun policy listed own => absurd own (vacant.vacant policy listed)
      apart := fun policy listed _ _ own => absurd own (vacant.vacant policy listed) }
  engine policyEngine kept :=
    { behind := fun service found => vacant.behind policyEngine service kept found
      current := by
        intro service serviceDef found _ _
        have none : ∀ policy : RangerPolicy, policy ∉ [] := fun _ => List.not_mem_nil
        refine ⟨[], ⟨?_, ?_, ?_⟩, fun policy listed own => ?_, ?_⟩
        · exact fun policy listed => absurd listed (none policy)
        · exact fun policy listed => absurd listed (none policy)
        · exact fun policy listed => absurd listed (none policy)
        · exact absurd own (vacant.vacant policy listed)
        · exact fun _ policy listed => absurd listed (none policy) }

/-- **Calls.** Every call keeps one policy for each resource, when it sees to it. -/
theorem OnePerResource.perform (one : OnePerResource serviceName rest) {call : PolicyCall}
    (keeps : KeepsApart serviceName rest call) :
    OnePerResource serviceName (rest.perform call).2 := by
  cases call <;> dsimp only [ServiceREST.perform, KeepsApart] at keeps ⊢
  case createPolicy session newGuid policy => exact one.createPolicy session newGuid keeps
  case updatePolicy session policy => exact one.updatePolicy session keeps
  case deletePolicy session id => exact one.deletePolicy session id
  case grantAccess name userGroups time request =>
    exact one.grantAccess userGroups time keeps
  case revokeAccess name userGroups request => exact one.revokeAccess userGroups request

/-- The administration after a run of calls. -/
def afterCalls (rest : ServiceREST ServiceDBStore) (calls : List PolicyCall) :
    ServiceREST ServiceDBStore :=
  Run.final perform rest calls

/-- **One policy for each resource.** Over a run of calls that all see to it, no two
policies of a service that had none have the same resources. -/
theorem policies_pairwise_apart_of_keepsApart (vacant : Vacant serviceName rest)
    {calls : List PolicyCall}
    (kept : Run.Throughout perform (KeepsApart serviceName) rest calls) :
    ∀ done later, calls = done ++ later →
      ((rest.afterCalls done).svcStore.policies.filter (·.service == serviceName)).Pairwise
        fun first second => ¬SameResources first.resources second.resources := by
  intro done later split
  have steps : ∀ rest call, OnePerResource serviceName rest → KeepsApart serviceName rest call →
      OnePerResource serviceName (perform rest call).2 := fun _ _ one keeps => one.perform keeps
  have one : OnePerResource serviceName (rest.afterCalls done) :=
    Run.forall_prefix_of_allowed steps (.of_vacant vacant) kept.at_split done later split
  exact one.apart.pairwise one.keyed.policies

end Runs

end Conditions

section Disabled

attribute [local instance] Platform.ascii ClassLoader.addresses

/-- A cluster without policies. -/
def emptyCluster : ServiceREST ServiceDBStore where
  svcStore :=
    { serviceDefs :=
        [{ name := "hdfs", resources := [{ name := "path" }], accessTypes := [{ name := "read" }] }]
      services := [{ id := 1, name := "cluster", type := "hdfs" }]
      policies := []
      users := ["alice", "bob"]
      groups := []
      nextPolicyId := 1 }
  configuration := ∅
  engineCache := ⟨adminPolicyEngineOptions, ∅⟩

def admin : UserSession := { isUserAdmin := true, loginId := some "admin" }

/-- A policy for paths of the cluster. -/
def pathPolicy (name : String) (values : List String) (policyItem : RangerPolicyItem) :
    RangerPolicy where
  service := "cluster"
  name := name
  resources := ⟨[("path", { values := values })], List.nodup_singleton _⟩
  policyItems := [policyItem]

/-- Bob grants alice access to a path. -/
def bobGrants (path : String) : PolicyCall :=
  .grantAccess "cluster" [] "noon"
    { grantor := "bob"
      resource := .single "path" (some path)
      users := ["alice"]
      accessTypes := ["read"] }

/-- Bob administers two paths, and the policy of one of them is disabled. -/
def disabledRun : List PolicyCall :=
  [.createPolicy admin "" (pathPolicy "paths" ["/data", "/logs"]
      { users := ["bob"], delegateAdmin := true }),
    .createPolicy admin ""
      { pathPolicy "data" ["/data"] { users := ["alice"], accesses := [⟨"read", true⟩] } with
        isEnabled := false }]

/-- Bob grants access to the other path, and to the one of the policy once it is enabled. -/
def enabledRun : List PolicyCall :=
  disabledRun ++
    [bobGrants "/logs",
      .updatePolicy admin
        { pathPolicy "data" ["/data"] { users := ["alice"], accesses := [⟨"read", true⟩] } with
          id := some 2 },
      bobGrants "/data"]

theorem vacant_emptyCluster : Vacant "cluster" emptyCluster where
  keyed := ⟨by decide, by decide, nofun⟩
  vacant _ listed := absurd listed List.not_mem_nil
  behind _ _ kept := nomatch kept

theorem enabledRun_pairwise_apart :
    ((emptyCluster.afterCalls enabledRun).svcStore.policies.filter
      (·.service == "cluster")).Pairwise
        fun first second => ¬SameResources first.resources second.resources :=
  policies_pairwise_apart_of_keepsApart vacant_emptyCluster (by decide +kernel) _ []
    (List.append_nil _).symm

/-- **A disabled policy is passed over.** A grant makes a second policy for the resource
of a disabled one. -/
theorem disabled_policy_doubled_by_grant :
    (Run.outputs perform emptyCluster (disabledRun ++ [bobGrants "/data"])).all (·.isOk) = true ∧
      ¬((emptyCluster.afterCalls (disabledRun ++ [bobGrants "/data"])).svcStore.policies.filter
        (·.service == "cluster")).Pairwise
          fun first second => ¬SameResources first.resources second.resources := by
  decide +kernel

end Disabled

end ServiceREST

end Ranger

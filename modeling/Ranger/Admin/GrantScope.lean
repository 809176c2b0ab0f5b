import Ranger.Admin.ExactMatch
import Ranger.Admin.GrantAccess
import Ranger.Admin.PolicyCreate
import Ranger.Admin.PolicyEdits

/-! # The reach of policies made for grants

A grant is admitted by a match of the resource it names, and the policy that is made
for it reads the same values as patterns, with the recursive flag of the request. It
stays inside the delegation when some delegating policy that matches the resource covers
the new one level by level, which names of resources are.
-/

namespace Ranger

open Foundation RangerDefaultPolicyEvaluator

namespace ServiceREST

section Matchers

variable (request : GrantRevokeRequest) (serviceDef : RangerServiceDef)

theorem get?_grantedResources (name : String) :
    (grantedResources request).get? name = (request.resource.get? name).map fun value =>
      { values := [value.getD ""], isRecursive := request.isRecursive } := by
  unfold grantedResources AssocMap.get?
  dsimp only
  induction request.resource.entries with
  | nil => rfl
  | cons entry rest ih =>
      rw [List.map_cons, List.lookup_cons, List.lookup_cons, ih]
      cases name == entry.1 <;> rfl

theorem keys_grantedResources : (grantedResources request).keys = request.resource.keys := by
  unfold grantedResources AssocMap.keys
  rw [List.map_map]
  rfl

/-- The matcher of a policy made for a grant at a level. -/
def grantedMatcher (name : String) : Option RangerResourceMatcher :=
  (levelDef serviceDef name).bind fun resourceDef =>
    (request.resource.get? name).map fun value =>
      .createResourceMatcher resourceDef
        { values := [value.getD ""], isRecursive := request.isRecursive }

variable {request serviceDef}

theorem get?_matchers_granted {evaluator : RangerDefaultPolicyEvaluator}
    (resources : evaluator.policy.resources = grantedResources request) (name : String) :
    evaluator.matchers.get? name = grantedMatcher request evaluator.serviceDef name := by
  rw [get?_matchers, resources, get?_grantedResources, grantedMatcher]
  simp only [Option.map_map, Function.comp_def]

/-- A policy that matches a resource matches the resource map of the policy a grant makes
of it. -/
theorem isMatchMap_grantedResources [Platform] {evaluator : RangerDefaultPolicyEvaluator}
    (matched : evaluator.isMatch { elements := some request.resource } = true) :
    evaluator.isMatchMap (grantedResources request) = true := by
  unfold isMatch at matched
  simp only [Bool.and_eq_true, Bool.not_eq_true', List.all_eq_true] at matched
  obtain ⟨⟨keys, nonempty⟩, levels⟩ := matched
  apply (evaluator.isMatchMap_iff _).mpr
  refine ⟨?_, fun empty => by simp [empty] at nonempty, fun resourceDef member => ?_⟩
  · rw [keys_grantedResources]
    exact keys
  · have level := levels resourceDef member
    unfold matchesLevel RangerAccessResource.getValue at level
    dsimp only at level
    unfold matchesValuesAt valuesAt
    rw [get?_grantedResources]
    cases found : evaluator.matchers.get? resourceDef.name with
    | none => rfl
    | some matcher =>
        rw [found] at level
        dsimp only at level ⊢
        cases given : request.resource.get? resourceDef.name with
        | none =>
            rw [given] at level
            exact level
        | some value =>
            rw [given] at level
            -- a missing value is matched like the empty one that is stored
            cases value with
            | none => simpa [RangerResourceMatcher.matchesValues, matcher.isMatch_empty] using level
            | some text => simpa [RangerResourceMatcher.matchesValues] using level

end Matchers

section Creation

variable [Platform] [ClassLoader] (rest : ServiceREST ServiceDBStore) (serviceName : String)
  (userGroups : List String) (time : String) (request : GrantRevokeRequest)

/-- A grant that is accepted and answered by a new policy, with the engine that is asked
and the definition the new policy has. -/
structure CreatesPolicy (policyEngine : RangerPolicyEngineImpl) (serviceDef : RangerServiceDef)
    (created : RangerPolicy) : Prop where
  engine : (rest.getPolicyEngine serviceName).1 = some policyEngine
  typed : rest.svcStore.serviceDefOf serviceName = some serviceDef
  accepted : (rest.grantAccess serviceName userGroups time request).1.isOk = true
  stored : (rest.grantAccess serviceName userGroups time request).2.svcStore.policies =
    rest.svcStore.policies ++ [created]

/-- Every resource the policy a grant makes matches is matched by an enabled policy that
delegates to the grantor. -/
def GrantStaysInside : Prop :=
  ∀ policyEngine serviceDef created,
    rest.CreatesPolicy serviceName userGroups time request policyEngine serviceDef created →
      ∀ options resource, (init created serviceDef options).isMatch resource = true →
        ∃ evaluator ∈ policyEngine.policyRepository.policyEvaluators,
          evaluator.base.policy.isEnabled = true ∧
            Delegates evaluator.base.policy (some request.grantor) userGroups ∧
            evaluator.base.isMatch resource = true

/-- An enabled policy that delegates to the grantor, matches the resource of the grant and
covers every level it shares with the policy that is made. -/
structure CoversGrant (serviceDef : RangerServiceDef) (evaluator : RangerDefaultPolicyEvaluator) :
    Prop where
  sameDef : evaluator.serviceDef = serviceDef
  enabled : evaluator.policy.isEnabled = true
  delegates : Delegates evaluator.policy (some request.grantor) userGroups
  matched : evaluator.isMatch { elements := some request.resource } = true
  levels : ∀ name general special, evaluator.matchers.get? name = some general →
    grantedMatcher request serviceDef name = some special →
      RangerResourceMatcher.LevelCovered general special

/-- If the grant makes a policy, some delegating policy of the engine covers it. -/
def GrantCovered : Prop :=
  ∀ policyEngine serviceDef created,
    rest.CreatesPolicy serviceName userGroups time request policyEngine serviceDef created →
      ∃ evaluator ∈ policyEngine.policyRepository.policyEvaluators,
        CoversGrant userGroups request serviceDef evaluator.base

variable {rest serviceName userGroups time request}

omit [ClassLoader] in
/-- The rows an edited policy leaves are as many as before. -/
private theorem length_storeEdited (policy : RangerPolicy)
    (edit : List RangerPolicyItem → List RangerPolicyItem × Bool) :
    (rest.storeEdited policy edit).2.svcStore.policies.length =
      rest.svcStore.policies.length := by
  unfold storeEdited
  generalize edit policy.policyItems = edited
  obtain ⟨policyItems, policyUpdated⟩ := edited
  dsimp only
  split
  · split
    · rfl
    · next ret svcStore performed =>
      change rest.svcStore.updatePolicy _ = .ok (ret, svcStore) at performed
      obtain ⟨_, service, _, _, _, _, _, rfl⟩ :=
        ServiceDBStore.stored_of_updatePolicy performed
      exact List.length_map _
  · rfl

/-- A grant that makes a policy was admitted, and stores the policy with the resources of
the request that the service type defines. -/
theorem stored_of_createsPolicy {policyEngine : RangerPolicyEngineImpl}
    {serviceDef : RangerServiceDef} {created : RangerPolicy}
    (creates : rest.CreatesPolicy serviceName userGroups time request policyEngine serviceDef
      created) :
    (policyEngine.isAccessAllowed { elements := some request.resource } (some request.grantor)
        userGroups ADMIN_ACCESS).1 = true ∧
      created.resources =
        ServiceDBStore.storedResources serviceDef (grantedResources request) := by
  obtain ⟨engine, typed, accepted, stored⟩ := creates
  unfold grantAccess at accepted stored
  dsimp only at accepted stored
  split at accepted
  · nomatch accepted
  · next admitted after given =>
    rw [given] at stored
    obtain ⟨store, asked, known, affirmed⟩ := rest.adminEngine_eq_some given
    cases engine.symm.trans known
    refine ⟨congrArg Prod.fst affirmed, ?_⟩
    dsimp only at stored
    split at accepted
    · nomatch accepted
    · next policy found =>
      -- an edited policy leaves no row more
      rw [found] at stored
      have rows := congrArg List.length stored
      rw [List.length_append, ← store] at rows
      dsimp only at rows
      rw [length_storeEdited] at rows
      simp at rows
    · next found =>
      rw [found] at stored
      dsimp only at stored
      split at accepted
      · nomatch accepted
      · next ret svcStore performed =>
        rw [performed] at stored
        dsimp only at stored
        rw [store] at performed
        obtain ⟨service, definition, _, foundDef, rfl, rfl⟩ :=
          ServiceDBStore.stored_of_createPolicy performed
        cases typed.symm.trans foundDef
        have last := (List.append_cancel_left stored : _ = _)
        cases last
        rfl

/-- **A covered grant stays inside the delegation.** -/
theorem grantStaysInside_of_covered
    (covered : rest.GrantCovered serviceName userGroups time request) :
    rest.GrantStaysInside serviceName userGroups time request := by
  intro policyEngine serviceDef created creates options resource matched
  obtain ⟨evaluator, listed, covers⟩ := covered policyEngine serviceDef created creates
  refine ⟨evaluator, listed, covers.enabled, covers.delegates, ?_⟩
  have checked := isMatchMap_grantedResources covers.matched
  obtain ⟨keys, _⟩ := (evaluator.base.isMatchMap_iff _).mp checked
  -- the levels of the request are levels of the policy that matches it
  have defined : Defined serviceDef (grantedResources request) := by
    intro name key
    obtain ⟨matcher, found⟩ :=
      (evaluator.base.containsKey_matchers_iff name).mp (List.all_eq_true.mp keys name key)
    obtain ⟨resourceDef, _, counted, _⟩ := matcher_parts found
    obtain ⟨member, named⟩ := levelDef_mem counted
    rw [covers.sameDef] at member
    exact List.any_eq_true.mpr ⟨resourceDef, member, beq_iff_eq.mpr named⟩
  have resources : (init created serviceDef options).policy.resources =
      grantedResources request :=
    (stored_of_createsPolicy creates).2.trans (storedResources_of_defined defined)
  have unexcluded : ∀ name policyResource,
      (grantedResources request).get? name = some policyResource →
        policyResource.isExcludes = false := by
    intro name policyResource given
    rw [get?_grantedResources] at given
    obtain ⟨value, _, rfl⟩ := Option.map_eq_some_iff.mp given
    rfl
  apply isMatch_of_covered evaluator.base (init created serviceDef options) covers.sameDef
    ?_ ?_ ?_ resource matched
  · rw [resources]
    exact checked
  · intro resourceDef _ policyResource
    rw [resources]
    exact unexcluded resourceDef.name policyResource
  · intro resourceDef _ general special foundGeneral foundSpecial
    rw [get?_matchers_granted resources] at foundSpecial
    exact covers.levels resourceDef.name general special foundGeneral foundSpecial

/-- The grant is of one object: it is not recursive, and has a name that is not empty at
every level it mentions. -/
structure NamesObject (request : GrantRevokeRequest) (serviceDef : RangerServiceDef) : Prop where
  flat : request.isRecursive = false
  names : ∀ name special, grantedMatcher request serviceDef name = some special →
    special.base.policyValues ≠ [] ∧
      ∀ value ∈ special.base.policyValues, special.base.IsName value

/-- The evaluators of an engine are for enabled policies under the definition, match
without a memory, and take no other letter for a separator. -/
structure Faithful (policyEngine : RangerPolicyEngineImpl) (serviceDef : RangerServiceDef) :
    Prop where
  enabled : ∀ evaluator ∈ policyEngine.policyRepository.policyEvaluators,
    evaluator.base.policy.isEnabled = true
  sameDef : ∀ evaluator ∈ policyEngine.policyRepository.policyEvaluators,
    evaluator.base.serviceDef = serviceDef
  uncached : ∀ evaluator ∈ policyEngine.policyRepository.policyEvaluators,
    evaluator.type ≠ .cached
  apart : ∀ evaluator ∈ policyEngine.policyRepository.policyEvaluators, ∀ name matcher,
    evaluator.base.matchers.get? name = some matcher → matcher.SeparatorApart

omit [ClassLoader] in
/-- A level of a grant of one object is covered by whatever there is. -/
theorem NamesObject.levelCovered {serviceDef : RangerServiceDef}
    (object : NamesObject request serviceDef) {name : String}
    {general special : RangerResourceMatcher} (apart : general.SeparatorApart)
    (granted : grantedMatcher request serviceDef name = some special) :
    RangerResourceMatcher.LevelCovered general special := by
  obtain ⟨valued, plain⟩ := object.names name special granted
  have flat : special.isRecursive = false := by
    obtain ⟨resourceDef, _, made⟩ := Option.bind_eq_some_iff.mp granted
    obtain ⟨value, _, rfl⟩ := Option.map_eq_some_iff.mp made
    unfold RangerResourceMatcher.createResourceMatcher
    split
    · exact object.flat
    · rfl
  cases excludes : general.base.policyIsExcludes with
  | true => exact .outside excludes valued flat apart plain
  | false => exact .values excludes fun value listed => .name (plain value listed) flat apart

/-- **A grant of one object stays inside the delegation.** -/
theorem grantStaysInside_of_names
    (object : ∀ policyEngine serviceDef created,
      rest.CreatesPolicy serviceName userGroups time request policyEngine serviceDef created →
        NamesObject request serviceDef ∧ Faithful policyEngine serviceDef) :
    rest.GrantStaysInside serviceName userGroups time request := by
  apply grantStaysInside_of_covered
  intro policyEngine serviceDef created creates
  obtain ⟨named, faithful⟩ := object policyEngine serviceDef created creates
  obtain ⟨evaluator, listed, delegates, matched⟩ :=
    policyEngine.isAccessAllowed_admin_iff.mp (stored_of_createsPolicy creates).1
  have asked : (evaluator.isMatch { elements := some request.resource }).1 =
      evaluator.base.isMatch { elements := some request.resource } := by
    unfold RangerPolicyEvaluator.isMatch
    split
    · next cached => exact absurd cached (faithful.uncached evaluator listed)
    · rfl
  refine ⟨evaluator, listed, faithful.sameDef evaluator listed, faithful.enabled evaluator listed,
    delegates, asked ▸ matched, fun name general special found granted => ?_⟩
  exact named.levelCovered (faithful.apart evaluator listed name general found) granted

end Creation

section Recursion

attribute [local instance] Platform.ascii ClassLoader.addresses

/-- Bob, who administers two directories, gives alice what is below one of them. -/
def grantTree : GrantRevokeRequest where
  grantor := "bob"
  resource := ⟨[("path", some "/home")], List.nodup_singleton _⟩
  users := ["alice"]
  accessTypes := ["read"]
  isRecursive := true

/-- The directory alone. -/
def grantDirectory : GrantRevokeRequest :=
  { grantTree with isRecursive := false }

/-- Alice is given the files that bob has no say over. -/
theorem grant_reaches_below : ¬ hdfsREST.GrantStaysInside "cluster" [] "noon" grantTree := by
  intro inside
  have creates : hdfsREST.CreatesPolicy "cluster" [] "noon" grantTree hdfsEngine hdfsServiceDef
      (hdfsREST.svcStore.stored hdfsServiceDef
        { grantedPolicy "cluster" "noon" grantTree with id := some 2, version := some 1 }) :=
    { engine := rfl
      typed := rfl
      accepted := by decide +kernel
      stored := rfl }
  obtain ⟨evaluator, listed, _, _, matched⟩ := inside _ _ _ creates {}
    { elements := some ⟨[("path", some "/home/alice/secret")], List.nodup_singleton _⟩ }
    (by decide +kernel)
  rw [← mem_hdfsEngine.mp listed] at matched
  have unmatched : (init directoryPolicy hdfsServiceDef adminPolicyEngineOptions).isMatch
      { elements := some ⟨[("path", some "/home/alice/secret")], List.nodup_singleton _⟩ } =
        false := by
    decide +kernel
  exact Bool.false_ne_true (unmatched.symm.trans matched)

/-- The directory alone is bob's to give. -/
theorem grant_stays_at_directory :
    hdfsREST.GrantStaysInside "cluster" [] "noon" grantDirectory := by
  apply grantStaysInside_of_covered
  intro policyEngine serviceDef created creates
  have sameEngine : hdfsEngine = policyEngine := Option.some.inj creates.engine
  have sameDef : hdfsServiceDef = serviceDef := Option.some.inj creates.typed
  subst sameEngine sameDef
  refine ⟨_, mem_hdfsEngine.mpr rfl, rfl, rfl, ?_, by decide +kernel, ?_⟩
  · exact ⟨_, List.mem_cons_self, by decide +kernel, rfl⟩
  · intro name general special found granted
    have path : name = "path" := by
      obtain ⟨resourceDef, counted, _⟩ := Option.bind_eq_some_iff.mp granted
      obtain ⟨member, named⟩ := levelDef_mem counted
      rw [← named, List.mem_singleton.mp member]
    subst path
    rw [← Option.some.inj found, ← Option.some.inj granted]
    apply RangerResourceMatcher.LevelCovered.values rfl
    intro value listed
    have single : value = "/home" :=
      List.mem_singleton.mp (RangerResourceMatcher.mem_policyValues.mp listed).1
    subst single
    apply RangerResourceMatcher.ValueCovered.name ⟨by decide, fun _ => by decide⟩ rfl
    -- the delegation is not recursive, and looks for no separator
    intro deep
    nomatch deep

end Recursion

end ServiceREST

end Ranger

import Ranger.Admin.GrantAccess
import Ranger.Admin.ResourceSignature
import Ranger.PolicyEvaluator.Levels

/-! # The policy a grant finds

A grant edits the policy that matches its resource exactly. Among the policies an
engine has, one with the resources the grant would create a policy for is found.
-/

namespace Ranger

open Foundation

/-- The levels of a resource map are levels of a service type. -/
def Defined (serviceDef : RangerServiceDef) (resources : AssocMap String RangerPolicyResource) :
    Prop := ∀ name ∈ resources.keys, serviceDef.resources.any (·.name == name) = true

instance (serviceDef : RangerServiceDef) (resources : AssocMap String RangerPolicyResource) :
    Decidable (Defined serviceDef resources) :=
  inferInstanceAs (Decidable (∀ name ∈ resources.keys,
    serviceDef.resources.any (·.name == name) = true))

theorem storedResources_of_defined {serviceDef : RangerServiceDef}
    {resources : AssocMap String RangerPolicyResource} (defined : Defined serviceDef resources) :
    ServiceDBStore.storedResources serviceDef resources = resources := by
  unfold ServiceDBStore.storedResources AssocMap.filterKeys
  obtain ⟨entries, nodup⟩ := resources
  have kept : (entries.filter fun entry => serviceDef.resources.any (·.name == entry.1)) =
      entries :=
    List.filter_eq_self.mpr fun entry listed => defined entry.1 (List.mem_map_of_mem listed)
  simp only [kept]

section Exact

variable [Platform]

namespace RangerPolicyEngineImpl

/-- What the evaluators of an engine were initialised with. -/
def bases (engine : RangerPolicyEngineImpl) : List RangerDefaultPolicyEvaluator :=
  engine.policyRepository.policyEvaluators.map (·.base)

/-- A question about access changes the match caches only. -/
theorem isAccessAllowed_bases (engine : RangerPolicyEngineImpl) (resource : RangerAccessResource)
    (user : Option String) (userGroups : List String) (accessType : String) :
    (engine.isAccessAllowed resource user userGroups accessType).2.bases = engine.bases := by
  have matching : ∀ evaluator : RangerPolicyEvaluator,
      (evaluator.isMatch resource).2.base = evaluator.base := by
    intro evaluator
    unfold RangerPolicyEvaluator.isMatch
    split <;> rfl
  have asking : ∀ evaluator : RangerPolicyEvaluator,
      (evaluator.isAccessAllowed resource user userGroups accessType).2.base =
        evaluator.base := by
    intro evaluator
    unfold RangerPolicyEvaluator.isAccessAllowed
    split
    · exact matching evaluator
    · rfl
  have kept := (@Scan.scan_invariant _ _
    (fun (evaluator : RangerPolicyEvaluator) (_ : Bool) =>
      evaluator.isAccessAllowed resource user userGroups accessType)
    id (fun _ => True) (fun _ => True) (fun first second => second.base = first.base)
    (fun evaluator _ _ _ => ⟨trivial, asking evaluator⟩) (fun _ _ => rfl)
    engine.policyRepository.policyEvaluators false (fun _ _ => trivial) trivial).2
  have mapped : ∀ {first second : List RangerPolicyEvaluator},
      List.Forall₂ (fun first second : RangerPolicyEvaluator => second.base = first.base)
        first second → second.map (·.base) = first.map (·.base) := by
    intro first second same
    induction same with
    | nil => rfl
    | cons head _ ih => rw [List.map_cons, List.map_cons, head, ih]
  exact mapped kept

theorem getExactMatchPolicy_eq (engine : RangerPolicyEngineImpl)
    (resource : RangerAccessResource) :
    engine.getExactMatchPolicy resource =
      (engine.bases.find? (·.isSingleAndExactMatch resource)).map (·.policy) := by
  unfold getExactMatchPolicy bases
  rw [List.find?_map, Option.map_map]
  rfl

theorem mem_bases_create [ClassLoader] {configuration : RangerConfiguration}
    {servicePolicies : ServicePolicies} {options : RangerPolicyEngineOptions}
    {base : RangerDefaultPolicyEvaluator} :
    base ∈ (create configuration servicePolicies options).bases ↔
      ∃ policy ∈ servicePolicies.policies, policy.isEnabled = true ∧
        RangerDefaultPolicyEvaluator.init policy servicePolicies.serviceDef options = base := by
  unfold bases
  rw [List.mem_map]
  constructor
  · rintro ⟨evaluator, member, rfl⟩
    obtain ⟨policy, listed, enabled, rfl⟩ := mem_policyEvaluators.mp member
    exact ⟨policy, listed, enabled, rfl⟩
  · rintro ⟨policy, listed, enabled, rfl⟩
    exact ⟨_, mem_policyEvaluators.mpr ⟨policy, listed, enabled, rfl⟩, rfl⟩

end RangerPolicyEngineImpl

/-- A value that is the only one of a level is matched exactly. -/
theorem RangerResourceMatcher.isSingleAndExactMatch_of_single (resourceDef : RangerResourceDef)
    {resource : RangerPolicyResource} {value : Option String}
    (single : resource.values = [value.getD ""]) (included : resource.isExcludes = false) :
    (createResourceMatcher resourceDef resource).isSingleAndExactMatch value = true := by
  have base : (createResourceMatcher resourceDef resource).base =
      ⟨resourceDef.matcherOptions, resource⟩ := by
    unfold createResourceMatcher
    split <;> rfl
  unfold isSingleAndExactMatch
  rw [base]
  unfold RangerAbstractResourceMatcher.isSingleAndExactMatch
    RangerAbstractResourceMatcher.policyIsExcludes RangerAbstractResourceMatcher.isMatchAny
    RangerAbstractResourceMatcher.policyValues
  simp only [single, included, Bool.false_eq_true, ↓reduceIte]
  cases value with
  | none => rfl
  | some text =>
      rw [Option.getD_some]
      by_cases blank : text.isEmpty = true
      · rw [List.filter_cons_of_neg (by simp [blank]), List.filter_nil]
        exact blank
      · rw [List.filter_cons_of_pos (by simpa using blank), List.filter_nil]
        simp only [List.any_cons, List.any_nil, Bool.or_false, List.isEmpty_cons]
        split
        · next stars => exact stars
        · unfold RangerAbstractResourceMatcher.equalsValue
          split
          · exact equalsIgnoreCase_refl text
          · exact beq_self_eq_true text

open RangerDefaultPolicyEvaluator ServiceREST

/-- **Exact matches.** The policy that has the resources a grant would create a policy
for is an exact match for the grant. -/
theorem isSingleAndExactMatch_of_same {evaluator : RangerDefaultPolicyEvaluator}
    {request : GrantRevokeRequest} (levels : evaluator.serviceDef.resources ≠ [])
    (defined : Defined evaluator.serviceDef evaluator.policy.resources)
    (distinct : NoRepeats evaluator.policy.resources)
    (same : SameResources evaluator.policy.resources (grantedResources request)) :
    evaluator.isSingleAndExactMatch { elements := some request.resource } = true := by
  have grantedKeys : (grantedResources request).keys = request.resource.keys := by
    unfold AssocMap.keys grantedResources
    rw [List.map_map]
    rfl
  have used : ∀ name, name ∈ evaluator.policy.resources.keys ↔ name ∈ request.resource.keys := by
    intro name
    rw [same.1 name, grantedKeys]
  have constrained : ∀ name, evaluator.matchers.containsKey name = true ↔
      name ∈ evaluator.policy.resources.keys := by
    intro name
    rw [containsKey_matchers_iff, get?_matchers]
    constructor
    · rintro ⟨matcher, found⟩
      obtain ⟨resourceDef, _, found⟩ := Option.bind_eq_some_iff.mp found
      obtain ⟨resource, found, _⟩ := Option.map_eq_some_iff.mp found
      exact AssocMap.isSome_get?_iff.mp (by rw [found]; rfl)
    · intro listed
      obtain ⟨resourceDef, level, named⟩ := List.any_eq_true.mp (defined name listed)
      have counts := isSome_levelDef level
      rw [beq_iff_eq.mp named] at counts
      obtain ⟨counting, found⟩ := Option.isSome_iff_exists.mp counts
      obtain ⟨resource, foundResource⟩ :=
        Option.isSome_iff_exists.mp (AssocMap.isSome_get?_iff.mpr listed)
      rw [found, foundResource]
      exact ⟨_, rfl⟩
  have keys : evaluator.keysMatch request.resource.keys = true :=
    List.all_eq_true.mpr fun name listed => (constrained name).mpr ((used name).mpr listed)
  have matcherKeys : evaluator.matchers.keys.all request.resource.keys.contains = true :=
    List.all_eq_true.mpr fun name listed =>
      List.contains_iff_mem.mpr
        ((used name).mp ((constrained name).mp (AssocMap.containsKey_iff.mpr listed)))
  have level : ∀ resourceDef ∈ evaluator.serviceDef.resources,
      evaluator.isSingleAndExactMatchAtLevel { elements := some request.resource } resourceDef =
        true := by
    intro resourceDef _
    unfold isSingleAndExactMatchAtLevel RangerAccessResource.getValue
    dsimp only
    cases found : evaluator.matchers.get? resourceDef.name with
    | none =>
        have free : resourceDef.name ∉ request.resource.keys := by
          intro listed
          have key := (constrained _).mpr ((used _).mpr listed)
          obtain ⟨matcher, present⟩ := (evaluator.containsKey_matchers_iff _).mp key
          rw [found] at present
          nomatch present
        rw [AssocMap.get?_eq_none_iff.mpr free]
        rfl
    | some matcher =>
        rw [get?_matchers] at found
        obtain ⟨counting, _, found⟩ := Option.bind_eq_some_iff.mp found
        obtain ⟨resource, foundResource, rfl⟩ := Option.map_eq_some_iff.mp found
        have listed := AssocMap.isSome_get?_iff.mp (by rw [foundResource]; rfl)
        obtain ⟨value, foundValue⟩ :=
          Option.isSome_iff_exists.mp (AssocMap.isSome_get?_iff.mpr ((used _).mp listed))
        have granted : (grantedResources request).get? resourceDef.name =
            some { values := [value.getD ""], isRecursive := request.isRecursive } :=
          AssocMap.get?_eq_some_iff.mpr
            (List.mem_map_of_mem (AssocMap.get?_eq_some_iff.mp foundValue))
        obtain ⟨values, excludes, _⟩ := same.2 _ resource _ foundResource granted
        have nodup := distinct _ (AssocMap.get?_eq_some_iff.mp foundResource)
        have single : resource.values = [value.getD ""] :=
          List.perm_singleton.mp
            ((List.perm_ext_iff_of_nodup nodup (List.nodup_singleton _)).mpr values)
        rw [foundValue]
        exact RangerResourceMatcher.isSingleAndExactMatch_of_single counting single excludes
  unfold isSingleAndExactMatch
  have some : evaluator.serviceDef.resources.isEmpty = false := List.isEmpty_eq_false_iff.mpr levels
  simp only [RangerAccessResource.getKeys, keys, matcherKeys, some, Bool.not_false, Bool.and_self,
    Bool.true_and]
  exact List.all_eq_true.mpr level

end Exact

end Ranger

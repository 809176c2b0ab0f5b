import Ranger.PolicyEvaluator.Default
import Ranger.ResourceCover

/-! # Policies level by level

The matcher a policy has at a resource level, and matching resources and resource
maps as a test of every level. A policy whose levels cover those of another one
covers its resources.
-/

namespace Ranger

open Foundation

namespace RangerDefaultPolicyEvaluator

section Matchers

variable (evaluator : RangerDefaultPolicyEvaluator)

/-- The definition that counts for a level: the last one of the name. -/
def levelDef (serviceDef : RangerServiceDef) (name : String) : Option RangerResourceDef :=
  serviceDef.resources.reverse.find? (·.name == name)

private theorem lookup_matchers (resources : AssocMap String RangerPolicyResource)
    (levels : List RangerResourceDef) (name : String) :
    (levels.filterMap fun resourceDef =>
        (resources.get? resourceDef.name).map fun policyResource =>
          (resourceDef.name,
            RangerResourceMatcher.createResourceMatcher resourceDef policyResource)).lookup name =
      (levels.find? (·.name == name)).bind fun resourceDef =>
        (resources.get? name).map (RangerResourceMatcher.createResourceMatcher resourceDef) := by
  induction levels with
  | nil => rfl
  | cons resourceDef rest ih =>
      by_cases here : resourceDef.name = name
      · subst here
        cases constrained : resources.get? resourceDef.name with
        | none =>
            rw [List.filterMap_cons_none (by rw [constrained]; rfl), ih, constrained]
            simp
        | some policyResource =>
            rw [List.filterMap_cons_some (by rw [constrained]; rfl)]
            simp
      · have apart : (resourceDef.name == name) = false := beq_eq_false_iff_ne.mpr here
        have behind : (name == resourceDef.name) = false := beq_eq_false_iff_ne.mpr (Ne.symm here)
        rw [List.find?_cons_of_neg (by simp [apart]), ← ih]
        cases constrained : resources.get? resourceDef.name with
        | none => rw [List.filterMap_cons_none (by rw [constrained]; rfl)]
        | some policyResource =>
            rw [List.filterMap_cons_some (by rw [constrained]; rfl), List.lookup_cons, behind]

/-- The matcher at a level: there is one if the service defines the level and the
policy constrains it. -/
theorem get?_matchers (name : String) :
    evaluator.matchers.get? name = (levelDef evaluator.serviceDef name).bind fun resourceDef =>
      (evaluator.policy.resources.get? name).map
        (RangerResourceMatcher.createResourceMatcher resourceDef) := by
  unfold matchers levelDef
  rw [AssocMap.get?_putAll, ← List.filterMap_reverse, lookup_matchers, AssocMap.get?_empty,
    Option.or_none]

/-- A level of the service has a definition that counts. -/
theorem isSome_levelDef {serviceDef : RangerServiceDef} {resourceDef : RangerResourceDef}
    (member : resourceDef ∈ serviceDef.resources) :
    (levelDef serviceDef resourceDef.name).isSome = true := by
  apply List.find?_isSome.mpr
  exact ⟨resourceDef, List.mem_reverse.mpr member, beq_self_eq_true _⟩

theorem levelDef_mem {serviceDef : RangerServiceDef} {name : String}
    {resourceDef : RangerResourceDef} (defined : levelDef serviceDef name = some resourceDef) :
    resourceDef ∈ serviceDef.resources ∧ resourceDef.name = name := by
  constructor
  · exact List.mem_reverse.mp (List.mem_of_find?_eq_some defined)
  · simpa using List.find?_some defined

theorem containsKey_matchers_iff (name : String) :
    evaluator.matchers.containsKey name = true ↔
      ∃ matcher, evaluator.matchers.get? name = some matcher := by
  rw [AssocMap.containsKey_iff, ← AssocMap.isSome_get?_iff, Option.isSome_iff_exists]

end Matchers

section Maps

variable [Platform] (evaluator : RangerDefaultPolicyEvaluator)

/-- The values a resource map has at a level. -/
def valuesAt (resources : AssocMap String RangerPolicyResource) (name : String) : List String :=
  ((resources.get? name).map (·.values)).getD []

/-- The test of one level by `isMatch(Map)`, when unconstrained levels have no values. -/
def matchesValuesAt (resources : AssocMap String RangerPolicyResource)
    (resourceDef : RangerResourceDef) : Bool :=
  match evaluator.matchers.get? resourceDef.name with
  | none => true
  | some matcher => matcher.matchesValues (valuesAt resources resourceDef.name)

omit [Platform] in
private theorem valuesAt_of_keysMatch {resources : AssocMap String RangerPolicyResource}
    (keys : evaluator.keysMatch resources.keys = true) {name : String}
    (unconstrained : evaluator.matchers.get? name = none) : valuesAt resources name = [] := by
  unfold valuesAt
  cases found : resources.get? name with
  | none => rfl
  | some policyResource =>
      have key : name ∈ resources.keys :=
        AssocMap.isSome_get?_iff.mp (by rw [found]; rfl)
      have constrained := List.all_eq_true.mp keys name key
      rw [containsKey_matchers_iff, unconstrained] at constrained
      obtain ⟨_, impossible⟩ := constrained
      cases impossible

private theorem isMatchMapLoop_eq {resources : AssocMap String RangerPolicyResource}
    (keys : evaluator.keysMatch resources.keys = true) (levels : List RangerResourceDef)
    (ret : Bool) :
    evaluator.isMatchMapLoop resources ret levels =
      if levels.isEmpty then ret else levels.all (evaluator.matchesValuesAt resources) := by
  induction levels generalizing ret with
  | nil => rfl
  | cons resourceDef rest ih =>
      have step : evaluator.isMatchMapLoop resources ret (resourceDef :: rest) =
          (evaluator.matchesValuesAt resources resourceDef &&
            evaluator.isMatchMapLoop resources true rest) := by
        rw [isMatchMapLoop]
        unfold matchesValuesAt
        cases found : evaluator.matchers.get? resourceDef.name with
        | none =>
            have none_given := evaluator.valuesAt_of_keysMatch keys found
            unfold valuesAt at none_given
            simp [none_given]
        | some matcher =>
            dsimp only
            have test : (if (((resources.get? resourceDef.name).map (·.values)).getD []).isEmpty
                then matcher.isMatch none
                else (((resources.get? resourceDef.name).map (·.values)).getD []).all
                  fun resourceValue => matcher.isMatch (some resourceValue)) =
                matcher.matchesValues (valuesAt resources resourceDef.name) := rfl
            simp only [test]
            cases matcher.matchesValues (valuesAt resources resourceDef.name) <;> simp
      rw [step, ih, List.isEmpty_cons, if_neg Bool.false_ne_true, List.all_cons]
      cases rest with
      | nil => simp
      | cons next others => simp

/-- What `isMatch(Map)` tests. -/
theorem isMatchMap_iff (resources : AssocMap String RangerPolicyResource) :
    evaluator.isMatchMap resources = true ↔
      evaluator.keysMatch resources.keys = true ∧ evaluator.serviceDef.resources ≠ [] ∧
        ∀ resourceDef ∈ evaluator.serviceDef.resources,
          evaluator.matchesValuesAt resources resourceDef = true := by
  unfold isMatchMap
  rw [Bool.and_eq_true]
  refine and_congr_right fun keys => ?_
  rw [isMatchMapLoop_eq evaluator keys]
  cases evaluator.serviceDef.resources with
  | nil => simp
  | cons first rest => simp

end Maps

section Cover

/-- The matcher of a level has the options of the level and the values the policy has
there. -/
theorem matcher_parts {evaluator : RangerDefaultPolicyEvaluator} {name : String}
    {matcher : RangerResourceMatcher} (found : evaluator.matchers.get? name = some matcher) :
    ∃ resourceDef policyResource, levelDef evaluator.serviceDef name = some resourceDef ∧
      evaluator.policy.resources.get? name = some policyResource ∧
      matcher.base = ⟨resourceDef.matcherOptions, policyResource⟩ := by
  rw [get?_matchers] at found
  obtain ⟨resourceDef, defined, constrained⟩ := Option.bind_eq_some_iff.mp found
  obtain ⟨policyResource, given, rfl⟩ := Option.map_eq_some_iff.mp constrained
  refine ⟨resourceDef, policyResource, defined, given, ?_⟩
  unfold RangerResourceMatcher.createResourceMatcher
  split <;> rfl

/-- A policy constrains the levels of the service it has values for. -/
private theorem valuesAt_of_unconstrained {evaluator : RangerDefaultPolicyEvaluator}
    {resourceDef : RangerResourceDef} (member : resourceDef ∈ evaluator.serviceDef.resources)
    (unconstrained : evaluator.matchers.get? resourceDef.name = none) :
    valuesAt evaluator.policy.resources resourceDef.name = [] := by
  obtain ⟨definition, defined⟩ := Option.isSome_iff_exists.mp (isSome_levelDef member)
  rw [get?_matchers, defined, Option.bind_some, Option.map_eq_none_iff] at unconstrained
  rw [valuesAt, unconstrained]
  rfl

variable [Platform] (general special : RangerDefaultPolicyEvaluator)
  (sameDef : general.serviceDef = special.serviceDef)

omit [Platform] in
/-- A policy whose names another one has been matched by constrains no further level. -/
private theorem exists_matcher_of_keysMatch
    (keys : general.keysMatch special.policy.resources.keys = true) {name : String}
    {specialMatcher : RangerResourceMatcher}
    (found : special.matchers.get? name = some specialMatcher) :
    ∃ generalMatcher, general.matchers.get? name = some generalMatcher := by
  obtain ⟨_, policyResource, _, given, _⟩ := matcher_parts found
  have key : name ∈ special.policy.resources.keys :=
    AssocMap.isSome_get?_iff.mp (by rw [given]; rfl)
  exact (general.containsKey_matchers_iff name).mp (List.all_eq_true.mp keys name key)

private theorem matchesLevel_of_unconstrained {resourceDef : RangerResourceDef}
    (member : resourceDef ∈ special.serviceDef.resources)
    (unconstrained : special.matchers.get? resourceDef.name = none)
    (level : general.matchesValuesAt special.policy.resources resourceDef = true)
    {resource : RangerAccessResource} (matched : special.matchesLevel resource resourceDef = true) :
    general.matchesLevel resource resourceDef = true := by
  unfold matchesLevel at matched ⊢
  unfold matchesValuesAt at level
  rw [unconstrained] at matched
  cases found : general.matchers.get? resourceDef.name with
  | none => exact matched
  | some generalMatcher =>
      rw [found, valuesAt_of_unconstrained member unconstrained] at level
      have missing : generalMatcher.isMatch none = true := level
      cases value : resource.getValue resourceDef.name with
      | none => exact missing
      | some text =>
          rw [value] at matched
          have empty : text = "" := String.isEmpty_iff.mp matched
          rw [empty]
          exact generalMatcher.isMatch_empty.trans missing

include sameDef

private theorem matchesLevel_of_covered {resourceDef : RangerResourceDef}
    {generalMatcher specialMatcher : RangerResourceMatcher}
    (generalFound : general.matchers.get? resourceDef.name = some generalMatcher)
    (specialFound : special.matchers.get? resourceDef.name = some specialMatcher)
    (includes : ∀ policyResource,
      special.policy.resources.get? resourceDef.name = some policyResource →
        policyResource.isExcludes = false)
    (covered : RangerResourceMatcher.LevelCovered generalMatcher specialMatcher)
    (level : general.matchesValuesAt special.policy.resources resourceDef = true)
    {resource : RangerAccessResource} (matched : special.matchesLevel resource resourceDef = true) :
    general.matchesLevel resource resourceDef = true := by
  obtain ⟨definition, policyResource, defined, given, specialParts⟩ := matcher_parts specialFound
  obtain ⟨other, _, otherDefined, _, generalParts⟩ := matcher_parts generalFound
  rw [sameDef, defined, Option.some.injEq] at otherDefined
  have options : generalMatcher.base.options = specialMatcher.base.options := by
    rw [generalParts, specialParts, otherDefined]
  have values : valuesAt special.policy.resources resourceDef.name =
      specialMatcher.base.policyResource.values := by
    rw [valuesAt, given, specialParts]
    rfl
  have includesLevel : specialMatcher.base.policyIsExcludes = false := by
    rw [specialParts]
    exact includes policyResource given
  unfold matchesLevel at matched ⊢
  unfold matchesValuesAt at level
  rw [specialFound] at matched
  rw [generalFound, values] at level
  rw [generalFound]
  exact RangerResourceMatcher.isMatch_of_levelCovered options includesLevel covered level _ matched

/-- **Covering policies.** A policy that matches the resource map of another one, and
covers it at every level both constrain, matches every resource the other one
matches. -/
theorem isMatch_of_covered (checked : general.isMatchMap special.policy.resources = true)
    (includes : ∀ resourceDef ∈ special.serviceDef.resources, ∀ policyResource,
      special.policy.resources.get? resourceDef.name = some policyResource →
        policyResource.isExcludes = false)
    (covered : ∀ resourceDef ∈ special.serviceDef.resources, ∀ generalMatcher specialMatcher,
      general.matchers.get? resourceDef.name = some generalMatcher →
      special.matchers.get? resourceDef.name = some specialMatcher →
        RangerResourceMatcher.LevelCovered generalMatcher specialMatcher)
    (resource : RangerAccessResource) (matched : special.isMatch resource = true) :
    general.isMatch resource = true := by
  obtain ⟨keys, _, levels⟩ := (general.isMatchMap_iff _).mp checked
  unfold isMatch at matched ⊢
  simp only [Bool.and_eq_true, Bool.not_eq_true', List.all_eq_true] at matched ⊢
  obtain ⟨⟨specialKeys, nonempty⟩, specialLevels⟩ := matched
  refine ⟨⟨?_, by rwa [sameDef]⟩, ?_⟩
  · apply List.all_eq_true.mpr
    intro name key
    have specialKey := List.all_eq_true.mp specialKeys name key
    rw [containsKey_matchers_iff] at specialKey ⊢
    obtain ⟨_, found⟩ := specialKey
    exact exists_matcher_of_keysMatch general special keys found
  · rw [sameDef]
    intro resourceDef member
    have level := levels resourceDef (sameDef ▸ member)
    have specialLevel := specialLevels resourceDef member
    cases specialFound : special.matchers.get? resourceDef.name with
    | none =>
        exact matchesLevel_of_unconstrained general special member specialFound level specialLevel
    | some specialMatcher =>
        obtain ⟨generalMatcher, generalFound⟩ :=
          exists_matcher_of_keysMatch general special keys specialFound
        exact matchesLevel_of_covered general special sameDef generalFound specialFound
          (includes resourceDef member)
          (covered resourceDef member generalMatcher specialMatcher generalFound specialFound) level
          specialLevel

end Cover

end RangerDefaultPolicyEvaluator

end Ranger

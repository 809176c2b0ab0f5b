import Ranger.PolicyEvaluator.Levels

/-! # Resource maps as sets of resources

A resource map lists values for the levels of a service. It stands for the resources that
have one of the values at every level, and a policy matches the map when it matches all
of them.
-/

namespace Ranger

open Foundation

namespace RangerDefaultPolicyEvaluator

section Choices

variable {resources : AssocMap String RangerPolicyResource} {resource : RangerAccessResource}

/-- A level of a policy: the policy constrains it and the service defines it. -/
def IsLevel (evaluator : RangerDefaultPolicyEvaluator) (name : String) : Prop :=
  name ∈ evaluator.policy.resources.keys ∧
    ∃ resourceDef ∈ evaluator.serviceDef.resources, resourceDef.name = name

/-- A resource that has one of the values listed for each name, and nothing else. -/
structure Picks (resources : AssocMap String RangerPolicyResource)
    (resource : RangerAccessResource) : Prop where
  keys : ∀ name, name ∈ resource.getKeys ↔ valuesAt resources name ≠ []
  value : ∀ name, valuesAt resources name ≠ [] →
    ∃ value ∈ valuesAt resources name, resource.getValue name = some value

theorem getValue_of_not_mem {name : String} (missing : name ∉ resource.getKeys) :
    resource.getValue name = none := by
  unfold RangerAccessResource.getKeys at missing
  unfold RangerAccessResource.getValue
  cases elements : resource.elements with
  | none => rfl
  | some elements =>
      rw [elements] at missing
      dsimp only
      rw [AssocMap.get?_eq_none_iff.mpr missing, Option.join_none]

theorem Picks.getValue_of_empty (picks : Picks resources resource) {name : String}
    (empty : valuesAt resources name = []) : resource.getValue name = none :=
  getValue_of_not_mem fun member => (picks.keys name).mp member empty

/-- Another value of a list may be picked instead. -/
theorem Picks.setValue (picks : Picks resources resource) {name value : String}
    (member : value ∈ valuesAt resources name) :
    Picks resources (resource.setValue name (some value)) := by
  have listed : valuesAt resources name ≠ [] := List.ne_nil_of_mem member
  refine ⟨fun other => ?_, fun other nonempty => ?_⟩
  · rw [RangerAccessResource.mem_getKeys_setValue, picks.keys]
    exact or_iff_right_of_imp fun same => same ▸ listed
  · rw [RangerAccessResource.getValue_setValue]
    by_cases same : other = name
    · rw [if_pos same, same]
      exact ⟨value, member, rfl⟩
    · rw [if_neg same]
      exact picks.value other nonempty

/-- The first value of every list that has one. -/
def firstValues (resources : AssocMap String RangerPolicyResource) :
    AssocMap String (Option String) :=
  ⟨(resources.entries.filter fun entry => !entry.2.values.isEmpty).map fun entry =>
    (entry.1, entry.2.values.head?), by
    rw [List.map_map]
    exact resources.nodup.sublist (List.filter_sublist.map _)⟩

def firstPick (resources : AssocMap String RangerPolicyResource) : RangerAccessResource where
  elements := some (firstValues resources)

theorem valuesAt_of_mem {name : String} {policyResource : RangerPolicyResource}
    (member : (name, policyResource) ∈ resources.entries) :
    valuesAt resources name = policyResource.values := by
  rw [valuesAt, AssocMap.get?_eq_some_iff.mpr member]
  rfl

/-- A name with values has an entry. -/
theorem exists_mem_of_valuesAt {name : String} (nonempty : valuesAt resources name ≠ []) :
    ∃ policyResource, (name, policyResource) ∈ resources.entries ∧
      valuesAt resources name = policyResource.values := by
  cases found : resources.get? name with
  | none =>
      rw [valuesAt, found] at nonempty
      exact absurd rfl nonempty
  | some policyResource =>
      have member := AssocMap.mem_of_get?_eq_some found
      exact ⟨policyResource, member, valuesAt_of_mem member⟩

theorem picks_firstPick (resources : AssocMap String RangerPolicyResource) :
    Picks resources (firstPick resources) := by
  refine ⟨fun name => ⟨fun member => ?_, fun nonempty => ?_⟩, fun name nonempty => ?_⟩
  · obtain ⟨_, listed, rfl⟩ := List.mem_map.mp member
    obtain ⟨entry, kept, rfl⟩ := List.mem_map.mp listed
    obtain ⟨original, nonempty⟩ := List.mem_filter.mp kept
    rw [valuesAt_of_mem original]
    intro empty
    rw [empty] at nonempty
    cases nonempty
  · obtain ⟨policyResource, member, same⟩ := exists_mem_of_valuesAt nonempty
    rw [same] at nonempty
    refine List.mem_map.mpr ⟨_, List.mem_map.mpr ⟨_, List.mem_filter.mpr ⟨member, ?_⟩, rfl⟩, rfl⟩
    rw [Bool.not_eq_true', Bool.eq_false_iff, ne_eq, List.isEmpty_iff]
    exact nonempty
  · obtain ⟨policyResource, member, same⟩ := exists_mem_of_valuesAt nonempty
    rw [same] at nonempty ⊢
    obtain ⟨value, rest, split⟩ := List.exists_cons_of_ne_nil nonempty
    refine ⟨value, split ▸ List.mem_cons_self, ?_⟩
    have written : (name, policyResource.values.head?) ∈ (firstValues resources).entries := by
      refine List.mem_map.mpr ⟨_, List.mem_filter.mpr ⟨member, ?_⟩, rfl⟩
      rw [split]
      rfl
    rw [split] at written
    exact congrArg Option.join (AssocMap.get?_eq_some_iff.mpr written)

end Choices

section Matching

variable [Platform] {evaluator : RangerDefaultPolicyEvaluator}
  {resources : AssocMap String RangerPolicyResource} {resource : RangerAccessResource}

omit [Platform] in
theorem containsKey_matchers_of_isLevel {name : String} (level : evaluator.IsLevel name) :
    evaluator.matchers.containsKey name = true := by
  obtain ⟨constrained, resourceDef, defined, rfl⟩ := level
  obtain ⟨definition, found⟩ := Option.isSome_iff_exists.mp (isSome_levelDef defined)
  obtain ⟨policyResource, given⟩ :=
    Option.isSome_iff_exists.mp (AssocMap.isSome_get?_iff.mpr constrained)
  rw [containsKey_matchers_iff, get?_matchers, found, given]
  exact ⟨_, rfl⟩

omit [Platform] in
/-- The names of a map are known to the policy when those of a pick are, if the names
without values are levels. -/
theorem keysMatch_iff_of_picks (picks : Picks resources resource)
    (levels : ∀ name ∈ resources.keys, valuesAt resources name = [] → evaluator.IsLevel name) :
    evaluator.keysMatch resources.keys = true ↔ evaluator.keysMatch resource.getKeys = true := by
  unfold keysMatch
  rw [List.all_eq_true, List.all_eq_true]
  constructor
  · intro known name member
    obtain ⟨policyResource, listed, _⟩ := exists_mem_of_valuesAt ((picks.keys name).mp member)
    exact known name (List.mem_map.mpr ⟨_, listed, rfl⟩)
  · intro known name member
    by_cases empty : valuesAt resources name = []
    · exact containsKey_matchers_of_isLevel (levels name member empty)
    · exact known name ((picks.keys name).mpr empty)

/-- A level matches the values of a map when it matches what is picked there. -/
theorem matchesLevel_of_matchesValuesAt (picks : Picks resources resource)
    (keys : evaluator.keysMatch resource.getKeys = true) {resourceDef : RangerResourceDef}
    (matched : evaluator.matchesValuesAt resources resourceDef = true) :
    evaluator.matchesLevel resource resourceDef = true := by
  unfold matchesValuesAt at matched
  unfold matchesLevel
  cases found : evaluator.matchers.get? resourceDef.name with
  | none =>
      have missing : resourceDef.name ∉ resource.getKeys := by
        intro member
        have known := List.all_eq_true.mp keys _ member
        rw [AssocMap.containsKey_iff, ← AssocMap.isSome_get?_iff, found] at known
        cases known
      dsimp only
      rw [getValue_of_not_mem missing]
      rfl
  | some matcher =>
      rw [found] at matched
      by_cases empty : valuesAt resources resourceDef.name = []
      · dsimp only at matched ⊢
        rw [empty] at matched
        rw [picks.getValue_of_empty empty]
        exact matched
      · obtain ⟨value, member, picked⟩ := picks.value _ empty
        dsimp only at matched ⊢
        rw [picked]
        unfold RangerResourceMatcher.matchesValues at matched
        rw [if_neg (by rwa [List.isEmpty_iff])] at matched
        exact List.all_eq_true.mp matched value member

/-- **A map and its resources.** A policy matches a resource map exactly when it matches
every resource that has one of the values at each level. -/
theorem isMatchMap_iff_forall_picks
    (levels : ∀ name ∈ resources.keys, valuesAt resources name = [] → evaluator.IsLevel name) :
    evaluator.isMatchMap resources = true ↔
      ∀ resource, Picks resources resource → evaluator.isMatch resource = true := by
  rw [isMatchMap_iff]
  constructor
  · intro ⟨keys, nonempty, matched⟩ resource picks
    have known := (keysMatch_iff_of_picks picks levels).mp keys
    unfold isMatch
    rw [known, Bool.true_and, Bool.and_eq_true, Bool.not_eq_true', List.isEmpty_eq_false_iff,
      List.all_eq_true]
    exact ⟨nonempty, fun resourceDef member =>
      matchesLevel_of_matchesValuesAt picks known (matched resourceDef member)⟩
  · intro every
    have parts : ∀ resource, Picks resources resource →
        evaluator.keysMatch resource.getKeys = true ∧ evaluator.serviceDef.resources ≠ [] ∧
          ∀ resourceDef ∈ evaluator.serviceDef.resources,
            evaluator.matchesLevel resource resourceDef = true := by
      intro resource picks
      have matched := every resource picks
      unfold isMatch at matched
      rw [Bool.and_eq_true, Bool.and_eq_true, Bool.not_eq_true', List.isEmpty_eq_false_iff,
        List.all_eq_true] at matched
      exact ⟨matched.1.1, matched.1.2, matched.2⟩
    have first := picks_firstPick resources
    obtain ⟨known, nonempty, matched⟩ := parts _ first
    refine ⟨(keysMatch_iff_of_picks first levels).mpr known, nonempty, fun resourceDef member => ?_⟩
    have level := matched resourceDef member
    unfold matchesValuesAt
    cases found : evaluator.matchers.get? resourceDef.name with
    | none => rfl
    | some matcher =>
        dsimp only
        unfold RangerResourceMatcher.matchesValues
        by_cases empty : valuesAt resources resourceDef.name = []
        · rw [if_pos (List.isEmpty_iff.mpr empty)]
          simp only [matchesLevel, found, first.getValue_of_empty empty] at level
          exact level
        · rw [if_neg (by rwa [List.isEmpty_iff]), List.all_eq_true]
          intro value listed
          -- the resource that differs from the first one by this value
          have level := (parts _ (first.setValue listed)).2.2 resourceDef member
          simp only [matchesLevel, found, RangerAccessResource.getValue_setValue, ↓reduceIte]
            at level
          exact level

end Matching

section Warehouse

attribute [local instance] Platform.ascii

def warehouseServiceDef : RangerServiceDef where
  name := "hive"
  resources := [{ name := "database" }, { name := "table" }]
  accessTypes := [{ name := "select" }]

def salesPolicy : RangerPolicy where
  resources := ⟨[("database", { values := ["sales*"] }), ("table", { values := ["*"] })], by decide⟩
  policyItems := []

def salesDatabases : AssocMap String RangerPolicyResource :=
  ⟨[("database", { values := ["sales", "sales2014"] }), ("table", { values := [] })], by decide⟩

/-- Both databases are matched, each without a table. -/
theorem salesDatabases_matched :
    (init salesPolicy warehouseServiceDef {}).isMatchMap salesDatabases = true ↔
      ∀ resource, Picks salesDatabases resource →
        (init salesPolicy warehouseServiceDef {}).isMatch resource = true := by
  refine isMatchMap_iff_forall_picks fun name member empty => ?_
  have table : name = "table" := by
    rcases List.mem_cons.mp member with rfl | later
    · cases empty
    · exact List.mem_singleton.mp later
  subst table
  exact ⟨List.mem_cons_of_mem _ List.mem_cons_self, { name := "table" },
    List.mem_cons_of_mem _ List.mem_cons_self, rfl⟩

end Warehouse

end RangerDefaultPolicyEvaluator

end Ranger

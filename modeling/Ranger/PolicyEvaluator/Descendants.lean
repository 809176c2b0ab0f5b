import Ranger.PolicyEvaluator.Levels

/-! # What lies below a matched resource

A resource that leaves levels of a policy unset is extended by giving them names.
A matcher that includes its values matches a missing name only when it matches
any name; one that excludes them matches a missing name whenever some name is
left, and still turns away the names its values read.
-/

namespace Ranger

open Foundation

namespace RangerDefaultPolicyEvaluator

/-- A resource with the names of another one, and names at further levels the policy
constrains. -/
structure IsDescendant (evaluator : RangerDefaultPolicyEvaluator)
    (resource descendant : RangerAccessResource) : Prop where
  keys : ∀ name ∈ descendant.getKeys,
    name ∈ resource.getKeys ∨ evaluator.matchers.containsKey name = true
  values : ∀ name, descendant.getValue name = resource.getValue name ∨
    (isEmptyValue (resource.getValue name) = true ∧ evaluator.matchers.containsKey name = true ∧
      isEmptyValue (descendant.getValue name) = false)

section Values

variable [Platform]

/-- At every constrained level the resource leaves unset, either the values are
included, or no value reads any name. -/
def ExcludesNothingBelow (evaluator : RangerDefaultPolicyEvaluator)
    (resource : RangerAccessResource) : Prop :=
  ∀ name matcher, evaluator.matchers.get? name = some matcher →
    isEmptyValue (resource.getValue name) = true → matcher.base.policyIsExcludes = true →
      ∀ policyValue ∈ matcher.base.policyValues, ∀ text : String, text ≠ "" →
        matcher.reads text policyValue = false

end Values

theorem isDescendant_setValue {evaluator : RangerDefaultPolicyEvaluator}
    {resource : RangerAccessResource} {name text : String}
    (unset : isEmptyValue (resource.getValue name) = true)
    (constrained : evaluator.matchers.containsKey name = true) (given : text ≠ "") :
    evaluator.IsDescendant resource (resource.setValue name (some text)) where
  keys := by
    intro other key
    obtain rfl | kept := RangerAccessResource.mem_getKeys_setValue.mp key
    · exact Or.inr constrained
    · exact Or.inl kept
  values := by
    intro other
    rw [RangerAccessResource.getValue_setValue]
    by_cases same : other = name
    · subst same
      have named : isEmptyValue (some text) = false := by
        simpa [isEmptyValue, String.isEmpty_iff] using given
      rw [if_pos rfl]
      exact Or.inr ⟨unset, constrained, named⟩
    · rw [if_neg same]
      exact Or.inl rfl

section Match

variable [Platform]

theorem isMatch_of_isEmptyValue (matcher : RangerResourceMatcher) {value : Option String}
    (unset : isEmptyValue value = true) : matcher.isMatch value = matcher.isMatch none := by
  cases value with
  | none => rfl
  | some text =>
      have empty : text = "" := String.isEmpty_iff.mp unset
      rw [empty]
      exact matcher.isMatch_empty

/-- A matcher that matches a missing name matches a name, unless its values are
excluded and one of them reads the name. -/
theorem isMatch_some_of_none {matcher : RangerResourceMatcher}
    (missing : matcher.isMatch none = true) (text : String) :
    matcher.isMatch (some text) = true ↔
      (matcher.base.policyIsExcludes = true →
        ∀ policyValue ∈ matcher.base.policyValues, matcher.reads text policyValue = false) := by
  rw [RangerResourceMatcher.isMatch_none] at missing
  rw [RangerResourceMatcher.isMatch_some]
  cases excluding : matcher.base.policyIsExcludes with
  | false =>
      rw [excluding] at missing
      have any : matcher.base.isMatchAny = true := missing
      simp [any]
  | true =>
      rw [excluding] at missing
      have specific : matcher.base.isMatchAny = false := by simpa using missing
      simp [specific]

variable {evaluator : RangerDefaultPolicyEvaluator} {resource : RangerAccessResource}

private theorem isMatch_none_of_unset (matched : evaluator.isMatch resource = true)
    {resourceDef : RangerResourceDef} (member : resourceDef ∈ evaluator.serviceDef.resources)
    {matcher : RangerResourceMatcher}
    (found : evaluator.matchers.get? resourceDef.name = some matcher)
    (unset : isEmptyValue (resource.getValue resourceDef.name) = true) :
    matcher.isMatch none = true := by
  unfold isMatch at matched
  simp only [Bool.and_eq_true, List.all_eq_true] at matched
  have level := matched.2 resourceDef member
  unfold matchesLevel at level
  rw [found] at level
  rw [← isMatch_of_isEmptyValue matcher unset]
  exact level

/-- A resource below a matched one is matched if nothing below is excluded. -/
theorem isMatch_of_isDescendant (matched : evaluator.isMatch resource = true)
    (keeps : evaluator.ExcludesNothingBelow resource) {descendant : RangerAccessResource}
    (below : evaluator.IsDescendant resource descendant) :
    evaluator.isMatch descendant = true := by
  have whole := matched
  unfold isMatch at whole ⊢
  simp only [Bool.and_eq_true, List.all_eq_true] at whole ⊢
  refine ⟨⟨?_, whole.1.2⟩, ?_⟩
  · apply List.all_eq_true.mpr
    intro name key
    obtain old | constrained := below.keys name key
    · exact List.all_eq_true.mp whole.1.1 name old
    · exact constrained
  · intro resourceDef member
    have level := whole.2 resourceDef member
    unfold matchesLevel at level ⊢
    obtain same | ⟨unset, constrained, given⟩ := below.values resourceDef.name
    · rwa [same]
    · obtain ⟨matcher, found⟩ := (evaluator.containsKey_matchers_iff _).mp constrained
      have missing := isMatch_none_of_unset matched member found unset
      rw [found]
      cases value : descendant.getValue resourceDef.name with
      | none =>
          rw [value] at given
          cases given
      | some text =>
          have named : text ≠ "" := by
            intro empty
            rw [value, empty] at given
            cases given
          apply (isMatch_some_of_none missing text).mpr
          intro excluding policyValue listed
          exact keeps resourceDef.name matcher found unset excluding policyValue listed text named

/-- **An absent level.** A matched resource stands for every resource below it exactly
when no level it leaves unset is one whose excluded values read some name. -/
theorem isMatch_descendants_iff (matched : evaluator.isMatch resource = true) :
    (∀ descendant, evaluator.IsDescendant resource descendant →
      evaluator.isMatch descendant = true) ↔ evaluator.ExcludesNothingBelow resource := by
  constructor
  · intro throughout name matcher found unset excluding policyValue listed text given
    have constrained := (evaluator.containsKey_matchers_iff name).mpr ⟨matcher, found⟩
    obtain ⟨definition, _, defined, _, _⟩ := matcher_parts found
    obtain ⟨member, rfl⟩ := levelDef_mem defined
    have named := throughout _ (isDescendant_setValue unset constrained given)
    have missing := isMatch_none_of_unset matched member found unset
    apply (isMatch_some_of_none missing text).mp _ excluding policyValue listed
    unfold isMatch at named
    simp only [Bool.and_eq_true, List.all_eq_true] at named
    have level := named.2 definition member
    unfold matchesLevel at level
    rwa [found, RangerAccessResource.getValue_setValue, if_pos rfl] at level
  · intro keeps descendant below
    exact isMatch_of_isDescendant matched keeps below

/-- Values that are not matched with the ancestors of paths may not be excluded below. -/
theorem excludesNothingBelow_iff
    (plain : ∀ name matcher, evaluator.matchers.get? name = some matcher →
      matcher.isRecursive = false ∨ matcher.base.optWildCard = false) :
    evaluator.ExcludesNothingBelow resource ↔
      ∀ name matcher, evaluator.matchers.get? name = some matcher →
        isEmptyValue (resource.getValue name) = true → matcher.base.policyIsExcludes = true →
          matcher.base.policyValues = [] := by
  refine forall₂_congr fun name matcher => forall₃_congr fun found _ _ => ?_
  constructor
  · intro silent
    apply List.eq_nil_iff_forall_not_mem.mpr
    intro policyValue listed
    have given : policyValue ≠ "" := by
      simpa using (RangerResourceMatcher.mem_policyValues.mp listed).2
    have unread := silent policyValue listed policyValue given
    rw [RangerResourceMatcher.reads_self (plain name matcher found) policyValue] at unread
    cases unread
  · intro none policyValue listed
    rw [none] at listed
    cases listed

end Match

section Families

attribute [local instance] Platform.ascii

/-- Tables, their families and columns. -/
def hbaseServiceDef : RangerServiceDef where
  name := "hbase"
  resources := [{ name := "table" }, { name := "column-family" }, { name := "column" }]
  accessTypes := [{ name := "read" }]

/-- A policy on the columns of the family of personal data in a table. -/
def columnEvaluator (columns : RangerPolicyResource) : RangerDefaultPolicyEvaluator where
  policy :=
    { resources := ⟨[("table", { values := ["patients"] }),
        ("column-family", { values := ["personal"] }), ("column", columns)], by simp⟩
      policyItems := [] }
  serviceDef := hbaseServiceDef

/-- The whole family, no column being named. -/
def personalFamily : RangerAccessResource where
  elements := some ⟨[("table", some "patients"), ("column-family", some "personal")], by decide⟩

/-- A policy on all columns but one matches the family as a whole, and not the column. -/
theorem family_hides_excluded_column :
    (columnEvaluator { values := ["ssn"], isExcludes := true }).isMatch personalFamily = true ∧
      (columnEvaluator { values := ["ssn"], isExcludes := true }).IsDescendant personalFamily
        (personalFamily.setValue "column" (some "ssn")) ∧
      (columnEvaluator { values := ["ssn"], isExcludes := true }).isMatch
        (personalFamily.setValue "column" (some "ssn")) = false :=
  ⟨by decide +kernel, isDescendant_setValue (by decide) (by decide) (by decide),
    by decide +kernel⟩

/-- A policy on all columns matches every column of the family. -/
theorem family_shows_columns :
    (∀ descendant, (columnEvaluator { values := ["*"] }).IsDescendant personalFamily descendant →
      (columnEvaluator { values := ["*"] }).isMatch descendant = true) ↔
      (columnEvaluator { values := ["*"] }).ExcludesNothingBelow personalFamily :=
  isMatch_descendants_iff (by decide +kernel)

end Families

end RangerDefaultPolicyEvaluator

end Ranger

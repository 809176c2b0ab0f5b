import Ranger.Admin.ExactMatch
import Ranger.RecursivePaths

/-! # What an exact match means

An exact match takes a resource for the name of a policy, to edit the policy in place of
making a new one. It is meant to find policies that match the resource and list nothing
else.
-/

namespace Ranger

open Foundation

section Rebuilt

variable {separator : Char} {path : List Char}

/-- Putting a path together again leaves separators out, and nothing else. -/
theorem rebuilt_sublist (elements : split separator path ≠ []) :
    (rebuilt separator path).Sublist path ∧
      (rebuilt separator path).filter (· ≠ separator) = path.filter (· ≠ separator) := by
  have parts : ((pieces separator path).1 ++
      (pieces separator path).2.flatMap (separator :: ·)).Sublist path ∧
        ((pieces separator path).1 ++
          (pieces separator path).2.flatMap (separator :: ·)).filter (· ≠ separator) =
            path.filter (· ≠ separator) := by
    clear elements
    induction path with
    | nil => exact ⟨List.Sublist.refl _, rfl⟩
    | cons char rest ih =>
        obtain ⟨shorter, others⟩ := ih
        by_cases cut : char = separator
        · by_cases gap : (pieces separator rest).1 = []
          · rw [gap, List.nil_append] at shorter others
            simp only [pieces, cut, ↓reduceIte, gap, List.nil_append]
            refine ⟨shorter.cons _, others.trans ?_⟩
            rw [List.filter_cons_of_neg (by simp)]
          · simp only [pieces, cut, ↓reduceIte, gap, List.nil_append, List.flatMap_cons,
              List.cons_append]
            refine ⟨shorter.cons_cons _, ?_⟩
            rw [List.filter_cons_of_neg (by simp), List.filter_cons_of_neg (by simp)]
            exact others
        · simp only [pieces, cut, ↓reduceIte, List.cons_append]
          refine ⟨shorter.cons_cons _, ?_⟩
          rw [List.filter_cons_of_pos (by simpa using cut),
            List.filter_cons_of_pos (by simpa using cut), others]
  rw [rebuilt_eq elements]
  exact parts

/-- A path that is not spelled as it is put together has more separators. -/
theorem countP_rebuilt_lt (elements : split separator path ≠ [])
    (other : rebuilt separator path ≠ path) {alike : Char → Bool}
    (counts : alike separator = true) :
    (rebuilt separator path).countP alike < path.countP alike := by
  obtain ⟨shorter, others⟩ := rebuilt_sublist elements
  have lengths : (rebuilt separator path).length < path.length :=
    lt_of_le_of_ne shorter.length_le fun same => other (shorter.eq_of_length same)
  have apart : ∀ text : List Char, text.countP alike =
      (text.filter (· ≠ separator)).countP alike +
        (text.length - (text.filter (· ≠ separator)).length) := by
    intro text
    induction text with
    | nil => rfl
    | cons char rest ih =>
        have bound := List.length_filter_le (fun char => decide (char ≠ separator)) rest
        by_cases cut : char = separator
        · rw [List.filter_cons_of_neg (by simpa using cut),
            List.countP_cons_of_pos (by rw [cut]; exact counts), ih, List.length_cons]
          omega
        · rw [List.filter_cons_of_pos (by simpa using cut), List.countP_cons, List.countP_cons,
            ih, List.length_cons, List.length_cons]
          omega
  have bound := List.length_filter_le (fun char => decide (char ≠ separator))
    (rebuilt separator path)
  rw [apart (rebuilt separator path), apart path, others]
  rw [others] at bound
  omega

end Rebuilt

namespace RangerPathResourceMatcher

variable [Platform] {base : RangerAbstractResourceMatcher} {name policyValue : String}

/-- A pattern asks for the separators it is spelled with. -/
theorem countP_asks_wildcardTokens {separator : Char}
    (plain : separator ≠ '*' ∧ separator ≠ '?') (value : String) :
    (wildcardTokens value).countP (Glob.Token.asks base.fold (base.fold separator)) =
      value.toList.countP fun char => decide (base.fold char = base.fold separator) := by
  obtain ⟨star, mark⟩ := RangerResourceMatcher.fold_ne_wildcard base plain
  unfold wildcardTokens
  rw [List.countP_map]
  refine List.countP_congr fun char _ => ?_
  by_cases isStar : char = '*'
  · simp only [Function.comp_apply, isStar, ↓reduceIte, Glob.Token.asks, Bool.false_eq_true,
      false_iff, decide_eq_true_eq]
    exact fun same => star same.symm
  · by_cases isMark : char = '?'
    · have other : '?' ≠ '*' := by decide
      simp only [Function.comp_apply, isMark, other, ↓reduceIte, Glob.Token.asks,
        Bool.false_eq_true, false_iff, decide_eq_true_eq]
      exact fun same => mark same.symm
    · simp only [Function.comp_apply, isStar, isMark, ↓reduceIte, Glob.Token.asks]

/-- A value that is spelled with more separators than its elements need is matched by
none of the paths the loop builds from it. -/
theorem rebuilt_eq_of_isRecursiveWildCardMatch {separator : Char}
    (plain : separator ≠ '*' ∧ separator ≠ '?')
    (alike : name.toList.map base.fold = policyValue.toList.map base.fold)
    (elements : split separator name.toList ≠ [])
    (matched : isRecursiveWildCardMatch name.toList
      (if policyValue.toList.getLast? = some separator then policyValue.push WILDCARD_ASTERISK
      else policyValue) separator base.fold = true) :
    rebuilt separator name.toList = name.toList := by
  by_contra other
  obtain ⟨ancestor, member, accepted⟩ := (isRecursiveWildCardMatch_iff elements).mp matched
  obtain ⟨back, whole, _⟩ := exists_back_of_mem_ancestorPaths member
  have fewer := @countP_rebuilt_lt _ _ elements other
    (fun char => decide (base.fold char = base.fold separator)) (decide_eq_true rfl)
  rw [whole, List.countP_append] at fewer
  have same : name.toList.countP (fun char => decide (base.fold char = base.fold separator)) =
      policyValue.toList.countP fun char => decide (base.fold char = base.fold separator) := by
    have counts := congrArg (List.countP fun folded => decide (folded = base.fold separator)) alike
    rwa [List.countP_map, List.countP_map] at counts
  have asked : policyValue.toList.countP
      (fun char => decide (base.fold char = base.fold separator)) ≤
        ancestor.countP fun char => decide (base.fold char = base.fold separator) := by
    rw [← countP_asks_wildcardTokens plain]
    split at accepted
    · obtain ⟨front, rest, rfl, inside⟩ := wildcardMatch_push_iff.mp accepted
      rw [List.countP_append]
      exact (Glob.countP_asks_le ((Glob.accepts_iff_mem_language ..).mp inside)).trans
        (Nat.le_add_right _ _)
    · exact Glob.countP_asks_le ((Glob.accepts_iff_mem_language ..).mp accepted)
  omega

end RangerPathResourceMatcher

namespace RangerResourceMatcher

variable [Platform] (matcher : RangerResourceMatcher) (value : Option String)

/-- The level matches anything, or lists one value, not an excluded one, that is the given
one up to the letter case the matcher ignores. -/
def ListsOnly : Prop :=
  matcher.base.isMatchAny = true ∨
    matcher.base.policyIsExcludes = false ∧ ∃ policyValue name,
      matcher.base.policyValues = [policyValue] ∧ value = some name ∧
        matcher.base.equalsValue name policyValue = true

/-- The loop over the elements of a path comes by the path itself: it has no elements, or
is spelled as they are put together again, or the separator is a wildcard and the path is
found all the same. -/
def IsFound (name : String) : Prop :=
  let separator := RangerPathResourceMatcher.pathSeparatorChar matcher.base
  split separator name.toList = [] ∨ rebuilt separator name.toList = name.toList ∨
    (separator = '*' ∨ separator = '?') ∧
      matcher.base.policyValues.any (matcher.reads name) = true

/-- The level does not exclude, and a path that is matched element by element is found. -/
structure IncludesName : Prop where
  includes : matcher.base.policyIsExcludes = false
  found : matcher.isRecursive = true → matcher.base.optWildCard = true →
    matcher.base.isMatchAny = false → ∀ name, value = some name → matcher.IsFound name

variable {matcher value}

theorem listsOnly_of_single (includes : matcher.base.policyIsExcludes = false)
    (single : matcher.isSingleAndExactMatch value = true) : matcher.ListsOnly value := by
  unfold isSingleAndExactMatch RangerAbstractResourceMatcher.isSingleAndExactMatch at single
  split at single
  · next none =>
    refine .inl ?_
    rw [RangerAbstractResourceMatcher.isMatchAny, none]
    rfl
  · next policyValue one =>
    rw [includes, if_neg Bool.false_ne_true] at single
    cases any : matcher.base.isMatchAny with
    | true => exact .inl any
    | false =>
        cases value with
        | none => cases single
        | some name =>
            simp only [any, Bool.false_eq_true, ↓reduceIte] at single
            exact .inr ⟨includes, policyValue, name, one, rfl, single⟩
  · cases single

/-- A value that is equal to the name reads it, if the name is found. -/
theorem reads_of_equalsValue {name policyValue : String}
    (one : matcher.base.policyValues = [policyValue])
    (equal : matcher.base.equalsValue name policyValue = true)
    (found : matcher.isRecursive = true → matcher.base.optWildCard = true →
      matcher.IsFound name) : matcher.reads name policyValue = true := by
  have alike := matcher.base.equalsValue_iff.mp equal
  by_cases deep : matcher.isRecursive = true ∧ matcher.base.optWildCard = true
  · obtain ⟨deep, wild⟩ := deep
    have itself : wildcardMatch matcher.base.fold name.toList policyValue = true := by
      have flat := matcher.base.matchesValue_alike alike policyValue
      have self : matcher.base.matchesValue policyValue policyValue = true :=
        @reads_self _ (.default matcher.base) (.inl rfl) policyValue
      rw [self, RangerAbstractResourceMatcher.matchesValue, if_pos wild] at flat
      exact flat
    have longer : wildcardMatch matcher.base.fold name.toList
        (if policyValue.toList.getLast? =
            some (RangerPathResourceMatcher.pathSeparatorChar matcher.base) then
          policyValue.push WILDCARD_ASTERISK
        else policyValue) = true := by
      split
      · exact RangerPathResourceMatcher.wildcardMatch_push_iff.mpr
          ⟨_, [], (List.append_nil _).symm, itself⟩
      · exact itself
    have filled : name.toList ≠ [] := by
      intro empty
      rw [empty, List.map_nil] at alike
      have member : policyValue ∈ matcher.base.policyValues := by
        rw [one]
        exact List.mem_singleton_self _
      exact (mem_policyValues.mp member).2 (List.map_eq_nil_iff.mp alike.symm)
    by_cases none : split (RangerPathResourceMatcher.pathSeparatorChar matcher.base)
        name.toList = []
    · rw [reads_deep deep wild, RangerPathResourceMatcher.isRecursiveWildCardMatch, if_neg filled,
        if_pos none]
      exact longer
    · rcases (found deep wild).resolve_left none with whole | ⟨_, read⟩
      · rw [reads_deep deep wild, RangerPathResourceMatcher.isRecursiveWildCardMatch_iff none]
        refine ⟨_, RangerPathResourceMatcher.rebuilt_mem_ancestorPaths none, ?_⟩
        rw [whole]
        exact longer
      · rw [one, List.any_cons, List.any_nil, Bool.or_false] at read
        exact read
  · have plain : matcher.isRecursive = false ∨ matcher.base.optWildCard = false := by
      simpa only [not_and_or, Bool.not_eq_true] using deep
    rw [reads_alike (fun recursive wild => absurd ⟨recursive, wild⟩ deep) alike]
    exact reads_self plain policyValue

/-- An exact match of a level is a match and lists nothing else, exactly if the level does
not exclude and its name is found. -/
theorem isMatch_and_listsOnly_iff (single : matcher.isSingleAndExactMatch value = true) :
    matcher.isMatch value = true ∧ matcher.ListsOnly value ↔ matcher.IncludesName value := by
  constructor
  · rintro ⟨matched, lists⟩
    have includes : matcher.base.policyIsExcludes = false := by
      rcases lists with any | ⟨includes, _⟩
      · cases excludes : matcher.base.policyIsExcludes with
        | false => rfl
        | true =>
            cases value with
            | none =>
                rw [isMatch_none, excludes, any] at matched
                nomatch matched
            | some name =>
                rw [isMatch_some, excludes, any] at matched
                nomatch matched
      · exact includes
    refine ⟨includes, fun deep wild specific name given => ?_⟩
    subst given
    rcases lists with any | ⟨_, policyValue, other, one, same, equal⟩
    · rw [specific] at any
      nomatch any
    · cases same
      rw [isMatch_some, includes, if_neg Bool.false_ne_true, specific, Bool.false_or] at matched
      by_cases wildcard : RangerPathResourceMatcher.pathSeparatorChar matcher.base = '*' ∨
          RangerPathResourceMatcher.pathSeparatorChar matcher.base = '?'
      · exact .inr (.inr ⟨wildcard, matched⟩)
      · by_cases none : split (RangerPathResourceMatcher.pathSeparatorChar matcher.base)
            name.toList = []
        · exact .inl none
        · rw [one, List.any_cons, List.any_nil, Bool.or_false, reads_deep deep wild] at matched
          exact .inr (.inl (RangerPathResourceMatcher.rebuilt_eq_of_isRecursiveWildCardMatch
            (not_or.mp wildcard) (matcher.base.equalsValue_iff.mp equal) none matched))
  · rintro ⟨includes, found⟩
    have lists := listsOnly_of_single includes single
    refine ⟨?_, lists⟩
    rcases lists with any | ⟨_, policyValue, name, one, rfl, equal⟩
    · cases value with
      | none => rw [isMatch_none, includes, if_neg Bool.false_ne_true, any]
      | some name => rw [isMatch_some, includes, if_neg Bool.false_ne_true, any, Bool.true_or]
    · rw [isMatch_some, includes, if_neg Bool.false_ne_true]
      cases any : matcher.base.isMatchAny with
      | true => rfl
      | false =>
          rw [Bool.false_or, one, List.any_cons, List.any_nil, Bool.or_false]
          exact reads_of_equalsValue one equal fun deep wild => found deep wild any name rfl

end RangerResourceMatcher

namespace RangerDefaultPolicyEvaluator

section Exact

variable [Platform] (evaluator : RangerDefaultPolicyEvaluator) (resource : RangerAccessResource)

/-- The policy matches the resource, and lists it alone at every level it constrains. -/
structure NamesOnly : Prop where
  matched : evaluator.isMatch resource = true
  listsOnly : ∀ name matcher, evaluator.matchers.get? name = some matcher →
    matcher.ListsOnly (resource.getValue name)

/-- No level the policy constrains excludes, and paths are found element by element. -/
def IncludesNames : Prop :=
  ∀ name matcher, evaluator.matchers.get? name = some matcher →
    matcher.IncludesName (resource.getValue name)

variable {evaluator resource}

/-- An exact match is one of every level. -/
theorem single_of_isSingleAndExactMatch
    (single : evaluator.isSingleAndExactMatch resource = true) :
    evaluator.keysMatch resource.getKeys = true ∧ evaluator.serviceDef.resources ≠ [] ∧
      ∀ resourceDef ∈ evaluator.serviceDef.resources,
        evaluator.isSingleAndExactMatchAtLevel resource resourceDef = true := by
  unfold isSingleAndExactMatch at single
  split at single
  · nomatch single
  · simp only [Bool.and_eq_true, Bool.not_eq_true', List.isEmpty_eq_false_iff,
      List.all_eq_true] at single
    exact ⟨single.1.1.1, single.1.2, single.2⟩

theorem namesOnly_iff (single : evaluator.isSingleAndExactMatch resource = true) :
    NamesOnly evaluator resource ↔ IncludesNames evaluator resource := by
  obtain ⟨keys, leveled, levels⟩ := single_of_isSingleAndExactMatch single
  have atLevel : ∀ {name matcher}, evaluator.matchers.get? name = some matcher →
      ∃ resourceDef ∈ evaluator.serviceDef.resources, resourceDef.name = name ∧
        matcher.isSingleAndExactMatch (resource.getValue name) = true := by
    intro name matcher found
    have read := found
    rw [get?_matchers] at read
    obtain ⟨resourceDef, defined, _⟩ := Option.bind_eq_some_iff.mp read
    obtain ⟨member, rfl⟩ := levelDef_mem defined
    have exact := levels resourceDef member
    unfold isSingleAndExactMatchAtLevel at exact
    rw [found] at exact
    exact ⟨resourceDef, member, rfl, exact⟩
  constructor
  · rintro ⟨matched, lists⟩ name matcher found
    obtain ⟨resourceDef, member, rfl, exact⟩ := atLevel found
    refine (RangerResourceMatcher.isMatch_and_listsOnly_iff exact).mp ⟨?_, lists _ _ found⟩
    unfold isMatch at matched
    rw [Bool.and_eq_true, List.all_eq_true] at matched
    have level := matched.2 resourceDef member
    unfold matchesLevel at level
    rw [found] at level
    exact level
  · intro includes
    have both : ∀ {name matcher}, evaluator.matchers.get? name = some matcher →
        matcher.isMatch (resource.getValue name) = true ∧
          matcher.ListsOnly (resource.getValue name) := by
      intro name matcher found
      obtain ⟨_, _, _, exact⟩ := atLevel found
      exact (RangerResourceMatcher.isMatch_and_listsOnly_iff exact).mpr (includes _ _ found)
    refine ⟨?_, fun name matcher found => (both found).2⟩
    unfold isMatch
    simp only [Bool.and_eq_true, Bool.not_eq_true', List.isEmpty_eq_false_iff, List.all_eq_true]
    refine ⟨⟨keys, leveled⟩, fun resourceDef member => ?_⟩
    have exact := levels resourceDef member
    unfold isSingleAndExactMatchAtLevel at exact
    unfold matchesLevel
    cases found : evaluator.matchers.get? resourceDef.name with
    | none =>
        rw [found] at exact
        exact exact
    | some matcher => exact (both found).1

end Exact

end RangerDefaultPolicyEvaluator

namespace RangerDefaultPolicyEvaluator

section Tables

attribute [local instance] Platform.ascii

/-- The policy of a table, or of all others. -/
def tableEvaluator (isExcludes : Bool) : RangerDefaultPolicyEvaluator where
  policy :=
    { resources :=
        ⟨[("table", { values := ["tmp"], isExcludes := isExcludes })], List.nodup_singleton _⟩
      policyItems := [] }
  serviceDef := { name := "hive", resources := [{ name := "table" }], accessTypes := [] }

def tableResource (table : String) : RangerAccessResource where
  elements := some (.single "table" (some table))

theorem matchers_tableEvaluator {isExcludes : Bool} {name : String}
    {matcher : RangerResourceMatcher}
    (found : (tableEvaluator isExcludes).matchers.get? name = some matcher) :
    name = "table" ∧
      matcher = .default ⟨∅, { values := ["tmp"], isExcludes := isExcludes }⟩ := by
  have listed := mem_of_lookup_eq_some found
  exact Prod.mk.inj (List.mem_singleton.mp listed)

end Tables

end RangerDefaultPolicyEvaluator

end Ranger

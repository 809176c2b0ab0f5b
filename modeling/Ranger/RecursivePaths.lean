import Ranger.ResourceCover

/-! # Recursive matches of paths

What a recursive path matcher matches, for paths that are spelled canonically: the
prefixes of a path that its loop builds, and those that end where an element ends.
-/

namespace Ranger

open Foundation

section Canonical

variable {separator : Char}

/-- The path starts with a separator, and no element of it is empty. -/
structure IsCanonical (separator : Char) (path : List Char) : Prop where
  rooted : path.head? = some separator
  full : ¬[separator, separator] <:+: path
  closed : path = [separator] ∨ path.getLast? ≠ some separator

/-- The path goes on at an element boundary: it is at its end, or its next part starts with
a separator or follows one. -/
def EndsAtElement (separator : Char) (front back : List Char) : Prop :=
  back = [] ∨ back.head? = some separator ∨ front.getLast? = some separator

theorem intercalate_cons (piece : List Char) (others : List (List Char)) :
    [separator].intercalate (piece :: others) = piece ++ others.flatMap (separator :: ·) := by
  induction others generalizing piece with
  | nil => rw [List.intercalate_singleton, List.flatMap_nil, List.append_nil]
  | cons next others ih =>
      rw [List.intercalate_cons_cons, ih, List.append_assoc]
      rfl

theorem intercalate_append_cons (front : List (List Char)) (last : List Char)
    (behind : List (List Char)) : [separator].intercalate (front ++ last :: behind) =
      front.flatMap (· ++ [separator]) ++ last ++ behind.flatMap (separator :: ·) := by
  induction front with
  | nil => exact intercalate_cons last behind
  | cons element rest ih =>
      have more : rest ++ last :: behind ≠ [] :=
        List.append_ne_nil_of_right_ne_nil _ (List.cons_ne_nil _ _)
      obtain ⟨next, others, shape⟩ := List.exists_cons_of_ne_nil more
      rw [List.cons_append, shape, List.intercalate_cons_cons, ← shape, ih, List.flatMap_cons]
      simp only [List.append_assoc]

/-- A path put together again from its elements. -/
def rebuilt (separator : Char) (path : List Char) : List Char :=
  RangerPathResourceMatcher.initialSeparator separator path ++
    [separator].intercalate (split separator path)

theorem rebuilt_eq {path : List Char} (elements : split separator path ≠ []) :
    rebuilt separator path =
      (pieces separator path).1 ++ (pieces separator path).2.flatMap (separator :: ·) := by
  cases path with
  | nil => exact absurd rfl elements
  | cons char rest =>
      unfold rebuilt RangerPathResourceMatcher.initialSeparator split at *
      by_cases cut : char = separator
      · rw [cut] at elements ⊢
        simp only [pieces, ↓reduceIte, List.head?_cons, List.nil_append] at elements ⊢
        split at elements
        · next gap =>
          obtain ⟨piece, others, shape⟩ := List.exists_cons_of_ne_nil elements
          rw [if_pos gap, shape, intercalate_cons]
          rfl
        · next gap =>
          rw [if_neg gap, intercalate_cons]
          rfl
      · have plain : ¬(char :: rest).head? = some separator :=
          fun first => cut (Option.some.inj first)
        rw [if_neg plain, List.nil_append]
        simp only [pieces, cut, ↓reduceIte, reduceCtorEq, intercalate_cons]

/-- A text without empty pieces is put together as it was. -/
theorem rebuilt_eq_self {text : List Char} (full : ¬[separator, separator] <:+: text)
    (closed : text.getLast? ≠ some separator) : rebuilt separator text = text := by
  have parts : text = (pieces separator text).1 ++
      (pieces separator text).2.flatMap (separator :: ·) := by
    induction text with
    | nil => rfl
    | cons char rest ih =>
        have fullRest : ¬[separator, separator] <:+: rest :=
          fun gap => full (gap.trans (List.suffix_cons char rest).isInfix)
        have closedRest : rest.getLast? ≠ some separator := by
          cases rest with
          | nil => exact fun none => nomatch none
          | cons next behind => rwa [List.getLast?_cons_cons] at closed
        have read := ih fullRest closedRest
        by_cases cut : char = separator
        · subst cut
          by_cases gap : (pieces char rest).1 = []
          · rw [gap, List.nil_append] at read
            cases behind : (pieces char rest).2 with
            | nil =>
                rw [behind, List.flatMap_nil] at read
                subst read
                exact absurd rfl closed
            | cons piece others =>
                rw [behind, List.flatMap_cons] at read
                refine absurd ?_ full
                rw [read]
                exact ⟨[], piece ++ others.flatMap (char :: ·), rfl⟩
          · simp only [pieces, ↓reduceIte, gap, List.nil_append, List.flatMap_cons,
              List.cons_append]
            rw [← read]
        · simp only [pieces, cut, ↓reduceIte, List.cons_append]
          rw [← read]
  by_cases none : split separator text = []
  · have empty : text = [] := by
      unfold split at none
      by_cases gap : (pieces separator text).1 = []
      · simp only [gap, ↓reduceIte] at none
        rw [gap, none] at parts
        exact parts
      · simp only [gap, ↓reduceIte, reduceCtorEq] at none
    rw [empty]
    rfl
  · exact (rebuilt_eq none).trans parts.symm

namespace RangerPathResourceMatcher

theorem ancestorPaths_below {path : List Char} (nonempty : path ≠ []) (below : List Char) :
    ancestorPaths separator path ⊆ ancestorPaths separator (path ++ separator :: below) := by
  unfold ancestorPaths initialSeparator
  rw [split_append, List.head?_append_of_ne_nil _ nonempty]
  exact builtPaths_prefix separator _ _ _

/-- Every path the loop builds is cut off in front of a separator. -/
theorem exists_back_of_mem_ancestorPaths {path ancestor : List Char}
    (member : ancestor ∈ ancestorPaths separator path) :
    ∃ back, rebuilt separator path = ancestor ++ back ∧
      (back = [] ∨ back.head? = some separator) := by
  obtain ⟨front, last, behind, elements, rfl⟩ := mem_builtPaths separator member
  refine ⟨behind.flatMap (separator :: ·), ?_, ?_⟩
  · rw [rebuilt, elements, intercalate_append_cons]
    simp only [List.append_assoc]
  · cases behind with
    | nil => exact .inl rfl
    | cons piece others => exact .inr rfl

/-- The loop builds the whole path in the end. -/
theorem rebuilt_mem_ancestorPaths {path : List Char} (elements : split separator path ≠ []) :
    rebuilt separator path ∈ ancestorPaths separator path := by
  obtain ⟨front, last, shape⟩ := (List.eq_nil_or_concat' _).resolve_left elements
  have built : ∀ (front : List (List Char)) (start : List Char),
      start ++ front.flatMap (· ++ [separator]) ++ last ∈
        builtPaths separator start (front ++ [last]) := by
    intro front
    induction front with
    | nil =>
        intro start
        rw [List.flatMap_nil, List.append_nil]
        exact List.mem_cons_self
    | cons element rest ih =>
        intro start
        have later := ih (start ++ element ++ [separator])
        have joined : start ++ (element :: rest).flatMap (· ++ [separator]) ++ last =
            start ++ element ++ [separator] ++ rest.flatMap (· ++ [separator]) ++ last := by
          rw [List.flatMap_cons]
          simp only [List.append_assoc]
        rw [joined]
        exact List.mem_cons_of_mem _ later
  have listed := built front (initialSeparator separator path)
  rw [rebuilt, ancestorPaths, shape, intercalate_append_cons, List.flatMap_nil, List.append_nil,
    ← List.append_assoc]
  exact listed

end RangerPathResourceMatcher

namespace IsCanonical

variable {path : List Char}

theorem not_ends (canonical : IsCanonical separator path) (deep : path ≠ [separator]) :
    path.getLast? ≠ some separator := canonical.closed.resolve_left deep

/-- A canonical path other than the root has elements. -/
theorem split_ne_nil (canonical : IsCanonical separator path) (deep : path ≠ [separator]) :
    split separator path ≠ [] := by
  intro empty
  have whole := rebuilt_eq_self canonical.full (canonical.not_ends deep)
  rw [rebuilt, empty, RangerPathResourceMatcher.initialSeparator, if_pos canonical.rooted]
    at whole
  exact deep whole.symm

/-- What a canonical path starts with is canonical unless it ends with a separator. -/
theorem of_append {front back : List Char} (canonical : IsCanonical separator (front ++ back))
    (nonempty : front ≠ []) (open_ : front.getLast? ≠ some separator) :
    IsCanonical separator front where
  rooted := by
    have rooted := canonical.rooted
    rwa [List.head?_append_of_ne_nil _ nonempty] at rooted
  full gap := canonical.full (gap.trans (List.prefix_append front back).isInfix)
  closed := .inr open_

/-- A canonical path can be spelled by other letters that fold alike. -/
theorem congr {fold : Char → Char} (apart : ∀ char, fold char = fold separator → char = separator)
    {other : List Char} (canonical : IsCanonical separator path)
    (alike : other.map fold = path.map fold) : IsCanonical separator other where
  rooted := by
    have first := congrArg List.head? alike
    rw [List.head?_map, List.head?_map, canonical.rooted, Option.map_some,
      Option.map_eq_some_iff] at first
    obtain ⟨char, isFirst, folds⟩ := first
    rw [isFirst, apart char folds]
  full gap := by
    obtain ⟨front, back, spelled⟩ := gap
    rw [← spelled] at alike
    simp only [List.map_append, List.map_cons, List.append_assoc, List.cons_append,
      List.nil_append] at alike
    obtain ⟨first, rest, rfl, _, behind⟩ := List.map_eq_append_iff.mp alike.symm
    obtain ⟨one, rest, rfl, folds, behind⟩ := List.map_eq_cons_iff.mp behind
    obtain ⟨two, rest, rfl, folds', _⟩ := List.map_eq_cons_iff.mp behind
    rw [apart one folds, apart two folds'] at canonical
    exact canonical.full ⟨first, rest, List.append_assoc ..⟩
  closed := by
    refine canonical.closed.imp (fun root => ?_) fun open_ last => open_ ?_
    · rw [root] at alike
      obtain ⟨char, rest, rfl, folds, none⟩ := List.map_eq_cons_iff.mp alike
      rw [List.map_eq_nil_iff.mp none, apart char folds]
    · have same := congrArg List.getLast? alike
      rw [List.getLast?_map, List.getLast?_map, last, Option.map_some] at same
      obtain ⟨char, isLast, folds⟩ := Option.map_eq_some_iff.mp same.symm
      rw [isLast, apart char folds]

/-- A canonical path goes on within its last element. -/
theorem append_replicate (canonical : IsCanonical separator path) (deep : path ≠ [separator])
    {char : Char} (plain : char ≠ separator) (count : Nat) :
    IsCanonical separator (path ++ List.replicate count char) where
  rooted := by
    have rooted := canonical.rooted
    rwa [List.head?_append_of_ne_nil _ (fun empty => by rw [empty] at rooted; nomatch rooted)]
  full gap := by
    obtain ⟨front, back, spelled⟩ := gap
    rcases List.append_eq_append_iff.mp spelled with ⟨more, whole, _⟩ | ⟨more, whole, _⟩
    · exact canonical.full ⟨front, more, whole.symm⟩
    · next behind =>
      by_cases none : more = []
      · rw [none, List.append_nil] at whole
        exact canonical.full ⟨front, [], (List.append_nil _).trans whole⟩
      · have last := congrArg List.getLast? whole
        rw [List.getLast?_append_of_ne_nil _ none,
          List.getLast?_append_of_ne_nil _ (List.cons_ne_nil _ _)] at last
        have member : separator ∈ List.replicate count char := by
          rw [behind]
          exact List.mem_append_left _ (List.mem_of_getLast? last.symm)
        exact plain (List.eq_of_mem_replicate member).symm
  closed := by
    refine .inr fun last => ?_
    cases count with
    | zero =>
        rw [List.replicate_zero, List.append_nil] at last
        exact canonical.not_ends deep last
    | succ count =>
        rw [List.replicate_succ', ← List.append_assoc, List.getLast?_concat] at last
        exact plain (Option.some.inj last)

end IsCanonical

end Canonical

namespace RangerPathResourceMatcher

section Wildcards

variable {fold : Char → Char} {value : String}

theorem wildcardTokens_push (value : String) :
    wildcardTokens (value.push WILDCARD_ASTERISK) = wildcardTokens value ++ [.many] := by
  unfold wildcardTokens
  rw [String.toList_push, List.map_append]
  rfl

/-- Behind an added asterisk there may be any text. -/
theorem wildcardMatch_push_iff {text : List Char} :
    wildcardMatch fold text (value.push WILDCARD_ASTERISK) = true ↔
      ∃ front back, text = front ++ back ∧ wildcardMatch fold front value = true := by
  unfold wildcardMatch
  rw [wildcardTokens_push, Glob.accepts_iff_mem_language, Glob.mem_language_append]
  constructor
  · rintro ⟨front, back, same, inside, _⟩
    exact ⟨front, back, same, (Glob.accepts_iff_mem_language ..).mpr inside⟩
  · rintro ⟨front, back, same, accepted⟩
    exact ⟨front, back, same, (Glob.accepts_iff_mem_language ..).mp accepted,
      back, [], (List.append_nil back).symm, rfl⟩

/-- What matches a value with a separator at its end has one there. -/
theorem getLast?_of_wildcardMatch {separator : Char} (plain : separator ≠ '*' ∧ separator ≠ '?')
    (apart : ∀ char, fold char = fold separator → char = separator)
    (ends : value.toList.getLast? = some separator) {text : List Char}
    (accepted : wildcardMatch fold text value = true) : text.getLast? = some separator := by
  obtain ⟨stem, spelled⟩ := List.getLast?_eq_some_iff.mp ends
  have tokens : wildcardTokens value =
      wildcardTokens (String.ofList stem) ++ [.literal separator] := by
    unfold wildcardTokens
    rw [spelled, String.toList_ofList, List.map_append, List.map_singleton, if_neg plain.1,
      if_neg plain.2]
  unfold wildcardMatch at accepted
  rw [tokens, Glob.accepts_iff_mem_language, Glob.mem_language_append] at accepted
  obtain ⟨front, _, rfl, _, char, tail, rfl, folds, none⟩ := accepted
  rw [Set.mem_singleton_iff.mp none, apart char folds.symm, List.getLast?_concat]

end Wildcards

variable [Platform] (matcher : RangerAbstractResourceMatcher)

/-- A beginning of the path that ends at an element boundary matches the value. -/
def LiesBelow (path : List Char) (value : String) : Prop :=
  ∃ front back, path = front ++ back ∧ EndsAtElement (pathSeparatorChar matcher) front back ∧
    matcher.matchesValue (String.ofList front) value = true

/-- What is matched lies below a value. -/
def MatchesBelow : Prop :=
  ∀ resource : String, IsCanonical (pathSeparatorChar matcher) resource.toList →
    isMatch matcher (some resource) = true →
      ∃ value ∈ matcher.policyValues, LiesBelow matcher resource.toList value

/-- With wildcards there is a value. Without, the root is one if a value matches anything,
and otherwise the values that are paths, but for the root, lie deeper than another one. -/
def EndsValues : Prop :=
  if matcher.optWildCard then matcher.policyValues ≠ []
  else if matcher.isMatchAny then
    ∃ value ∈ matcher.policyValues, value.toList = [pathSeparatorChar matcher]
  else
    ∀ value ∈ matcher.policyValues, IsCanonical (pathSeparatorChar matcher) value.toList →
      value.toList ≠ [pathSeparatorChar matcher] →
        ∃ other ∈ matcher.policyValues, ∃ front back, value.toList = front ++ back ∧
          back ≠ [] ∧ EndsAtElement (pathSeparatorChar matcher) front back ∧
            matcher.equalsValue (String.ofList front) other = true

variable {matcher} (includes : matcher.policyIsExcludes = false)
  (deep : policyIsRecursive matcher = true)

include includes in
theorem isMatch_includes (resource : String) : isMatch matcher (some resource) =
    (matcher.isMatchAny ||
      matcher.policyValues.any ((RangerResourceMatcher.path matcher).reads resource)) := by
  have matched := (RangerResourceMatcher.path matcher).isMatch_some resource
  rw [RangerResourceMatcher.base, includes] at matched
  exact matched

section Deep

variable (plain : pathSeparatorChar matcher ≠ '*' ∧ pathSeparatorChar matcher ≠ '?')
  (apart : ∀ char, matcher.fold char = matcher.fold (pathSeparatorChar matcher) →
    char = pathSeparatorChar matcher)

include deep plain apart in
/-- The wildcard match of a path looks at beginnings that end with an element. -/
theorem liesBelow_of_wildcards (wild : matcher.optWildCard = true) {resource : String}
    (canonical : IsCanonical (pathSeparatorChar matcher) resource.toList) {value : String}
    (read : (RangerResourceMatcher.path matcher).reads resource value = true) :
    LiesBelow matcher resource.toList value := by
  rw [@RangerResourceMatcher.reads_deep _ (.path matcher) deep wild] at read
  dsimp only [RangerResourceMatcher.base] at read
  obtain ⟨text, back, whole, closed, accepted⟩ : ∃ text back,
      resource.toList = text ++ back ∧
      (back = [] ∨ back.head? = some (pathSeparatorChar matcher)) ∧
      wildcardMatch matcher.fold text
        (if value.toList.getLast? = some (pathSeparatorChar matcher) then
          value.push WILDCARD_ASTERISK
        else value) = true := by
    by_cases root : resource.toList = [pathSeparatorChar matcher]
    · have none : split (pathSeparatorChar matcher) resource.toList = [] := by
        rw [root]
        exact split_append (pathSeparatorChar matcher) [] []
      unfold isRecursiveWildCardMatch at read
      rw [if_pos none] at read
      split at read
      · nomatch read
      · exact ⟨_, [], (List.append_nil _).symm, .inl rfl, read⟩
    · obtain ⟨ancestor, member, accepted⟩ :=
        (isRecursiveWildCardMatch_iff (canonical.split_ne_nil root)).mp read
      obtain ⟨back, whole, closed⟩ := exists_back_of_mem_ancestorPaths member
      rw [rebuilt_eq_self canonical.full (canonical.not_ends root)] at whole
      exact ⟨ancestor, back, whole, closed, accepted⟩
  have matched : ∀ {front : List Char}, wildcardMatch matcher.fold front value = true →
      matcher.matchesValue (String.ofList front) value = true := by
    intro front accepted
    unfold RangerAbstractResourceMatcher.matchesValue
    rw [if_pos wild, String.toList_ofList]
    exact accepted
  split at accepted
  · next ends =>
    obtain ⟨front, rest, rfl, inside⟩ := wildcardMatch_push_iff.mp accepted
    refine ⟨front, rest ++ back, ?_, .inr (.inr ?_), matched inside⟩
    · rw [whole, List.append_assoc]
    · exact getLast?_of_wildcardMatch plain apart ends inside
  · refine ⟨text, back, whole, ?_, matched accepted⟩
    exact closed.imp id .inl

end Deep

section Literal

variable (apart : ∀ char, matcher.fold char = matcher.fold (pathSeparatorChar matcher) →
    char = pathSeparatorChar matcher)

/-- Without wildcards a value is compared as it is. -/
theorem matchesValue_literal (literal : matcher.optWildCard = false) {front : List Char}
    {value : String} : matcher.matchesValue (String.ofList front) value = true ↔
      front.map matcher.fold = value.toList.map matcher.fold := by
  unfold RangerAbstractResourceMatcher.matchesValue
  rw [literal, if_neg Bool.false_ne_true, matcher.equalsValue_iff, String.toList_ofList]

include deep in
/-- Without wildcards a recursive match is one of the beginning of a path. -/
theorem reads_literal_iff (literal : matcher.optWildCard = false) {resource value : String} :
    (RangerResourceMatcher.path matcher).reads resource value = true ↔
      ∃ front back, resource.toList = front ++ back ∧
        front.map matcher.fold = value.toList.map matcher.fold := by
  rw [@RangerResourceMatcher.reads_literal _ (.path matcher) deep literal,
    List.isPrefixOf_iff_prefix]
  dsimp only [RangerResourceMatcher.base]
  constructor
  · rintro ⟨rest, whole⟩
    obtain ⟨front, back, same, folds, _⟩ := List.map_eq_append_iff.mp whole.symm
    exact ⟨front, back, same, folds⟩
  · rintro ⟨front, back, whole, folds⟩
    exact ⟨back.map matcher.fold, by rw [whole, List.map_append, folds]⟩

/-- A path longer than every value ends at an element of a value only where it is cut. -/
theorem exists_cut_of_liesBelow (literal : matcher.optWildCard = false) {resource : String}
    {value : String} (short : value.toList.length < resource.toList.length)
    (below : LiesBelow matcher resource.toList value) :
    ∃ front back, resource.toList = front ++ back ∧ back ≠ [] ∧
      (back.head? = some (pathSeparatorChar matcher) ∨
        front.getLast? = some (pathSeparatorChar matcher)) ∧
      front.map matcher.fold = value.toList.map matcher.fold := by
  obtain ⟨front, back, whole, ends, matched⟩ := below
  have folds := (matchesValue_literal literal).mp matched
  have partly : back ≠ [] := by
    rintro rfl
    have lengths := congrArg List.length folds
    rw [List.length_map, List.length_map] at lengths
    rw [whole, List.append_nil, lengths] at short
    exact Nat.lt_irrefl _ short
  exact ⟨front, back, whole, partly, ends.resolve_left partly, folds⟩

end Literal

omit [Platform] in
/-- A bound on the lengths of the values. -/
theorem exists_length_bound (values : List String) :
    ∃ bound, ∀ value ∈ values, value.toList.length ≤ bound := by
  induction values with
  | nil => exact ⟨0, fun _ member => nomatch member⟩
  | cons value rest ih =>
      obtain ⟨bound, holds⟩ := ih
      refine ⟨max value.toList.length bound, fun other member => ?_⟩
      rcases List.mem_cons.mp member with rfl | later
      · exact Nat.le_max_left _ _
      · exact (holds other later).trans (Nat.le_max_right _ _)

section Sound

variable (separator : pathSeparatorChar matcher = DEFAULT_PATH_SEPERATOR_CHAR)
  (slash : ∀ char, foldCase char = foldCase '/' → char = '/')

include separator slash in
theorem apart_of_slash (char : Char)
    (same : matcher.fold char = matcher.fold (pathSeparatorChar matcher)) :
    char = pathSeparatorChar matcher := by
  rw [separator] at same ⊢
  unfold RangerAbstractResourceMatcher.fold at same
  split at same
  · exact slash char same
  · exact same

omit [Platform] in
/-- Long enough a path below a value, so that no value is spelled like it. -/
theorem exists_long_path {path : List Char} (canonical : IsCanonical '/' path)
    (nonroot : path ≠ ['/']) (values : List String) : ∃ count,
      IsCanonical '/' (path ++ List.replicate count 'x') ∧
        ∀ value ∈ values, value.toList.length < (path ++ List.replicate count 'x').length := by
  obtain ⟨bound, holds⟩ := exists_length_bound values
  refine ⟨bound + 1, canonical.append_replicate nonroot (by decide) _, ?_⟩
  intro value member
  have short := holds value member
  rw [List.length_append, List.length_replicate]
  omega

omit [Platform] in
/-- A cut of a lengthened path in front of its end is a cut of the path. -/
theorem cut_of_long {path front back : List Char} {count : Nat}
    (canonical : IsCanonical '/' path) (nonroot : path ≠ ['/'])
    (whole : path ++ List.replicate count 'x' = front ++ back)
    (cut : back.head? = some '/' ∨ front.getLast? = some '/') :
    ∃ rest, path = front ++ rest ∧ rest ≠ [] ∧ EndsAtElement '/' front rest := by
  have other : ∀ {chars : List Char}, '/' ∈ chars → ¬chars ⊆ List.replicate count 'x' := by
    intro chars member within
    have same := List.eq_of_mem_replicate (within member)
    revert same
    decide
  rcases List.append_eq_append_iff.mp whole with ⟨more, longer, behind⟩ | ⟨rest, shorter, behind⟩
  · exfalso
    have tail : back ⊆ List.replicate count 'x' := by
      rw [behind]
      exact List.subset_append_right _ _
    rcases cut with starts | ends
    · exact other (List.mem_of_head? starts) tail
    · by_cases none : more = []
      · rw [longer, none, List.append_nil] at ends
        exact canonical.not_ends nonroot ends
      · rw [longer, List.getLast?_append_of_ne_nil _ none] at ends
        refine other (List.mem_of_getLast? ends) ?_
        rw [behind]
        exact List.subset_append_left _ _
  · by_cases none : rest = []
    · exfalso
      rw [none, List.append_nil] at shorter
      rw [none, List.nil_append] at behind
      rcases cut with starts | ends
      · exact other (List.mem_of_head? starts) (behind ▸ List.Subset.refl _)
      · exact canonical.not_ends nonroot (shorter ▸ ends)
    · refine ⟨rest, shorter, none, .inr (cut.imp (fun starts => ?_) id)⟩
      rwa [behind, List.head?_append_of_ne_nil _ none] at starts

include includes in
theorem exists_reads_of_isMatch (specific : matcher.isMatchAny = false) {resource : String}
    (matched : isMatch matcher (some resource) = true) : ∃ value ∈ matcher.policyValues,
      (RangerResourceMatcher.path matcher).reads resource value = true := by
  rw [isMatch_includes includes, specific, Bool.false_or, List.any_eq_true] at matched
  exact matched

include includes deep separator slash in
theorem matchesBelow_wild_iff (wild : matcher.optWildCard = true) :
    MatchesBelow matcher ↔ matcher.policyValues ≠ [] := by
  have plain : pathSeparatorChar matcher ≠ '*' ∧ pathSeparatorChar matcher ≠ '?' := by
    rw [separator]
    decide
  constructor
  · intro sound none
    have any : matcher.isMatchAny = true := by
      unfold RangerAbstractResourceMatcher.isMatchAny
      rw [none]
      rfl
    have root : IsCanonical (pathSeparatorChar matcher) "/".toList :=
      ⟨by rw [separator]; rfl, by rw [separator]; decide, .inl (by rw [separator]; rfl)⟩
    obtain ⟨value, member, _⟩ := sound "/" root (by rw [isMatch_includes includes, any]; rfl)
    rw [none] at member
    nomatch member
  · intro valued resource canonical matched
    cases any : matcher.isMatchAny with
    | true =>
        rw [RangerAbstractResourceMatcher.isMatchAny, List.isEmpty_eq_false_iff.mpr valued,
          Bool.or_false, List.any_eq_true] at any
        obtain ⟨value, member, asterisks⟩ := any
        refine ⟨value, member, resource.toList, [], (List.append_nil _).symm, .inl rfl, ?_⟩
        unfold RangerAbstractResourceMatcher.matchesValue
        rw [wild, if_pos rfl]
        exact RangerResourceMatcher.wildcardMatch_asterisks _
          (RangerResourceMatcher.mem_policyValues.mp member).2 asterisks _
    | false =>
        obtain ⟨value, member, read⟩ := exists_reads_of_isMatch includes any matched
        exact ⟨value, member, liesBelow_of_wildcards deep plain
          (apart_of_slash separator slash) wild canonical read⟩

include includes separator slash in
theorem matchesBelow_any_iff (literal : matcher.optWildCard = false)
    (any : matcher.isMatchAny = true) : MatchesBelow matcher ↔
      ∃ value ∈ matcher.policyValues, value.toList = [pathSeparatorChar matcher] := by
  have apart := apart_of_slash separator slash
  constructor
  · intro sound
    have canonical : IsCanonical '/' ['/', 'x'] := ⟨rfl, by decide, .inr (by decide)⟩
    obtain ⟨count, long, short⟩ :=
      exists_long_path canonical (by decide) matcher.policyValues
    obtain ⟨value, member, below⟩ := sound
      (String.ofList (['/', 'x'] ++ List.replicate count 'x'))
      (by rw [separator, String.toList_ofList]; exact long)
      (by rw [isMatch_includes includes, any]; rfl)
    obtain ⟨front, back, whole, _, cut, folds⟩ := exists_cut_of_liesBelow literal
      (by rw [String.toList_ofList]; exact short value member) below
    rw [String.toList_ofList] at whole
    rw [separator] at cut
    obtain ⟨rest, path, partly, _⟩ := cut_of_long canonical (by decide) whole cut
    refine ⟨value, member, ?_⟩
    have filled := (RangerResourceMatcher.mem_policyValues.mp member).2
    cases front with
    | nil => exact absurd (List.map_eq_nil_iff.mp folds.symm) filled
    | cons first behind =>
        obtain ⟨root, more⟩ := List.cons.inj path
        cases behind with
        | cons second others =>
            exact absurd (List.append_eq_nil_iff.mp (List.cons.inj more).2.symm).2 partly
        | nil =>
            obtain ⟨char, none, spelled, same, nothing⟩ := List.map_eq_cons_iff.mp folds.symm
            rw [spelled, List.map_eq_nil_iff.mp nothing]
            have slashed : pathSeparatorChar matcher = first := separator.trans root
            rw [← slashed] at same
            rw [apart char same]
  · rintro ⟨value, member, root⟩ resource canonical _
    obtain ⟨tail, whole⟩ := List.head?_eq_some_iff.mp canonical.rooted
    refine ⟨value, member, [pathSeparatorChar matcher], tail, whole, .inr (.inr rfl), ?_⟩
    rw [matchesValue_literal literal, root]

include includes deep separator slash in
theorem matchesBelow_literal_iff (literal : matcher.optWildCard = false)
    (specific : matcher.isMatchAny = false) : MatchesBelow matcher ↔
      ∀ value ∈ matcher.policyValues, IsCanonical (pathSeparatorChar matcher) value.toList →
        value.toList ≠ [pathSeparatorChar matcher] →
          ∃ other ∈ matcher.policyValues, ∃ front back, value.toList = front ++ back ∧
            back ≠ [] ∧ EndsAtElement (pathSeparatorChar matcher) front back ∧
              matcher.equalsValue (String.ofList front) other = true := by
  have apart := apart_of_slash separator slash
  constructor
  · intro sound value member canonical nonroot
    rw [separator] at canonical nonroot ⊢
    obtain ⟨count, long, short⟩ := exists_long_path canonical nonroot matcher.policyValues
    have read : (RangerResourceMatcher.path matcher).reads
        (String.ofList (value.toList ++ List.replicate count 'x')) value = true :=
      (reads_literal_iff deep literal).mpr ⟨_, _, String.toList_ofList, rfl⟩
    obtain ⟨other, listed, below⟩ := sound
      (String.ofList (value.toList ++ List.replicate count 'x'))
      (by rw [separator, String.toList_ofList]; exact long)
      (by
        rw [isMatch_includes includes, specific, Bool.false_or]
        exact List.any_eq_true.mpr ⟨value, member, read⟩)
    obtain ⟨front, back, whole, _, cut, folds⟩ := exists_cut_of_liesBelow literal
      (by rw [String.toList_ofList]; exact short other listed) below
    rw [String.toList_ofList] at whole
    rw [separator] at cut
    obtain ⟨rest, path, some, ends⟩ := cut_of_long canonical nonroot whole cut
    refine ⟨other, listed, front, rest, path, some, ends, ?_⟩
    rw [matcher.equalsValue_iff, String.toList_ofList]
    exact folds
  · intro divided resource canonical matched
    obtain ⟨value, member, read⟩ := exists_reads_of_isMatch includes specific matched
    obtain ⟨front, back, whole, folds⟩ := (reads_literal_iff deep literal).mp read
    by_cases ends : EndsAtElement (pathSeparatorChar matcher) front back
    · exact ⟨value, member, front, back, whole, ends, (matchesValue_literal literal).mpr folds⟩
    · have open_ : front.getLast? ≠ some (pathSeparatorChar matcher) :=
        fun last => ends (.inr (.inr last))
      have filled : front ≠ [] := by
        rintro rfl
        exact (RangerResourceMatcher.mem_policyValues.mp member).2
          (List.map_eq_nil_iff.mp folds.symm)
      have path : IsCanonical (pathSeparatorChar matcher) front :=
        (whole ▸ canonical).of_append filled open_
      have nonroot : value.toList ≠ [pathSeparatorChar matcher] := by
        intro root
        rw [root] at folds
        obtain ⟨char, rest, rfl, same, none⟩ := List.map_eq_cons_iff.mp folds
        rw [List.map_eq_nil_iff.mp none, apart char same] at open_
        exact open_ rfl
      obtain ⟨other, listed, start, rest, spelled, some, cut, equal⟩ :=
        divided value member (path.congr apart folds.symm) nonroot
      rw [spelled, List.map_append] at folds
      obtain ⟨first, second, rfl, firstFolds, secondFolds⟩ := List.map_eq_append_iff.mp folds
      rw [matcher.equalsValue_iff, String.toList_ofList] at equal
      refine ⟨other, listed, first, second ++ back, ?_, .inr ?_,
        (matchesValue_literal literal).mpr (firstFolds.trans equal)⟩
      · rw [whole, List.append_assoc]
      · refine (cut.resolve_left some).imp (fun starts => ?_) fun last => ?_
        · have heads := congrArg List.head? secondFolds
          rw [List.head?_map, List.head?_map, starts, Option.map_some] at heads
          obtain ⟨char, isFirst, same⟩ := Option.map_eq_some_iff.mp heads
          rw [apart char same] at isFirst
          rw [List.head?_append, isFirst]
          rfl
        · have lasts := congrArg List.getLast? firstFolds
          rw [List.getLast?_map, List.getLast?_map, last, Option.map_some] at lasts
          obtain ⟨char, isLast, same⟩ := Option.map_eq_some_iff.mp lasts
          rw [isLast, apart char same]

include includes deep separator slash in
/-- **Recursive matches.** What a recursive matcher matches lies below its values at the
boundary of an element, exactly if its values end there. -/
theorem matchesBelow_iff : MatchesBelow matcher ↔ EndsValues matcher := by
  unfold EndsValues
  cases wild : matcher.optWildCard with
  | true => exact matchesBelow_wild_iff includes deep separator slash wild
  | false =>
      rw [if_neg Bool.false_ne_true]
      cases any : matcher.isMatchAny with
      | true => exact matchesBelow_any_iff includes separator slash wild any
      | false => exact matchesBelow_literal_iff includes deep separator slash wild any

end Sound

section Complete

/-- The same matcher without recursion. -/
def nonRecursive (matcher : RangerAbstractResourceMatcher) : RangerAbstractResourceMatcher :=
  { matcher with policyResource := { matcher.policyResource with isRecursive := false } }

/-- A recursive matcher matches the paths it would match without recursion, and what is
below a path it matches. -/
structure MatchesDescendants (matcher : RangerAbstractResourceMatcher) : Prop where
  itself : ∀ resource : String, IsCanonical (pathSeparatorChar matcher) resource.toList →
    resource.toList ≠ [pathSeparatorChar matcher] →
      isMatch (nonRecursive matcher) (some resource) = true →
        isMatch matcher (some resource) = true
  below : ∀ resource descendant : String,
    IsCanonical (pathSeparatorChar matcher) resource.toList →
      resource.toList ≠ [pathSeparatorChar matcher] → isMatch matcher (some resource) = true →
        isMatch matcher
          (some (resource ++ String.singleton (pathSeparatorChar matcher) ++ descendant)) = true

include deep in
theorem reads_of_matchesValue {resource value : String}
    (canonical : IsCanonical (pathSeparatorChar matcher) resource.toList)
    (nonroot : resource.toList ≠ [pathSeparatorChar matcher])
    (matched : matcher.matchesValue resource value = true) :
    (RangerResourceMatcher.path matcher).reads resource value = true := by
  unfold RangerAbstractResourceMatcher.matchesValue at matched
  cases wild : matcher.optWildCard with
  | true =>
      rw [wild, if_pos rfl] at matched
      have pieces := canonical.split_ne_nil nonroot
      rw [@RangerResourceMatcher.reads_deep _ (.path matcher) deep wild]
      refine (isRecursiveWildCardMatch_iff pieces).mpr
        ⟨_, rebuilt_mem_ancestorPaths pieces, ?_⟩
      rw [rebuilt_eq_self canonical.full (canonical.not_ends nonroot)]
      split
      · exact wildcardMatch_push_iff.mpr ⟨_, [], (List.append_nil _).symm, matched⟩
      · exact matched
  | false =>
      rw [wild, if_neg Bool.false_ne_true, matcher.equalsValue_iff] at matched
      exact (reads_literal_iff deep wild).mpr ⟨_, [], (List.append_nil _).symm, matched⟩

include deep in
theorem reads_below {resource value : String}
    (canonical : IsCanonical (pathSeparatorChar matcher) resource.toList)
    (nonroot : resource.toList ≠ [pathSeparatorChar matcher])
    (read : (RangerResourceMatcher.path matcher).reads resource value = true)
    (descendant : String) : (RangerResourceMatcher.path matcher).reads
      (resource ++ String.singleton (pathSeparatorChar matcher) ++ descendant) value = true := by
  have longer : (resource ++ String.singleton (pathSeparatorChar matcher) ++ descendant).toList =
      resource.toList ++ pathSeparatorChar matcher :: descendant.toList := by
    rw [String.toList_append, String.toList_append, String.toList_singleton, List.append_assoc]
    rfl
  cases wild : matcher.optWildCard with
  | true =>
      rw [@RangerResourceMatcher.reads_deep _ (.path matcher) deep wild] at read ⊢
      rw [longer]
      refine isRecursiveWildCardMatch_mono (canonical.split_ne_nil nonroot) ?_ read
      apply ancestorPaths_below
      intro empty
      rw [empty] at canonical
      nomatch canonical.rooted
  | false =>
      obtain ⟨front, back, whole, folds⟩ := (reads_literal_iff deep wild).mp read
      refine (reads_literal_iff deep wild).mpr
        ⟨front, back ++ pathSeparatorChar matcher :: descendant.toList, ?_, folds⟩
      rw [longer, whole, List.append_assoc]

include includes deep in
/-- **Descendants.** Recursion only adds to what is matched, and matches everything below,
in all modes. -/
theorem matchesDescendants : MatchesDescendants matcher where
  itself resource canonical nonroot matched := by
    have flat := @isMatch_includes _ (nonRecursive matcher) includes resource
    rw [flat, Bool.or_eq_true, List.any_eq_true] at matched
    rw [isMatch_includes includes, Bool.or_eq_true, List.any_eq_true]
    refine matched.imp id fun ⟨value, member, read⟩ => ⟨value, member, ?_⟩
    rw [@RangerResourceMatcher.reads_flat _ (.path (nonRecursive matcher)) rfl] at read
    exact reads_of_matchesValue deep canonical nonroot read
  below resource descendant canonical nonroot matched := by
    rw [isMatch_includes includes, Bool.or_eq_true, List.any_eq_true] at matched ⊢
    exact matched.imp id fun ⟨value, member, read⟩ =>
      ⟨value, member, reads_below deep canonical nonroot read descendant⟩

end Complete

end RangerPathResourceMatcher

namespace RangerPathResourceMatcher

section Homes

attribute [local instance] Platform.ascii

/-- The recursive matcher of a value, with the options of a service definition. -/
def recursiveMatcher (wildCard value : String) : RangerAbstractResourceMatcher where
  options := ⟨[("wildCard", wildCard), ("ignoreCase", "true")],
    (by decide : ["wildCard", "ignoreCase"].Nodup)⟩
  policyResource := { values := [value], isRecursive := true }

private theorem slash_apart (char : Char) (same : foldCase char = foldCase '/') : char = '/' := by
  have folded : foldCase '/' = '/' := by decide
  rw [folded] at same
  exact eq_of_toUpper (by decide) (eq_of_toLower (by decide) same)

theorem home_matchesBelow : MatchesBelow (recursiveMatcher "true" "/home/alice") := by
  refine (matchesBelow_iff rfl rfl rfl slash_apart).mpr ?_
  unfold EndsValues
  rw [if_pos (by decide)]
  decide

/-- Without wildcards the home of another user is matched, whose name is longer. -/
theorem sibling_matched :
    isMatch (recursiveMatcher "false" "/home/al") (some "/home/alice") = true ∧
      ¬MatchesBelow (recursiveMatcher "false" "/home/al") := by
  refine ⟨by decide, fun sound => ?_⟩
  obtain ⟨value, member, front, back, whole, ends, matched⟩ := sound "/home/alice"
    ⟨by decide, by decide, .inr (by decide)⟩ (by decide)
  have folds := (matchesValue_literal (by decide)).mp matched
  rw [List.mem_singleton.mp member] at folds
  have length : front.length = 8 := by
    rw [← List.length_map (recursiveMatcher "false" "/home/al").fold, folds]
    decide
  have cut : front = "/home/alice".toList.take 8 ∧ back = "/home/alice".toList.drop 8 := by
    rw [whole, ← length, List.take_left, List.drop_left]
    exact ⟨rfl, rfl⟩
  rw [cut.1, cut.2] at ends
  revert ends
  unfold EndsAtElement
  decide

theorem home_matchesDescendants : MatchesDescendants (recursiveMatcher "true" "/home/alice") :=
  matchesDescendants rfl rfl

end Homes

end RangerPathResourceMatcher

end Ranger

import Ranger.ResourcePaths

/-! # One resource level covering another

When every name that one matcher of a level matches is matched by another one,
given that the other matches the first one's values taken as names. A value
taken as a name says nothing about its wildcards or about a recursive match.
-/

namespace Ranger

open Foundation

variable [Platform]

namespace RangerAbstractResourceMatcher

section Options

variable {first second : RangerAbstractResourceMatcher} (same : first.options = second.options)

include same in
theorem fold_congr : first.fold = second.fold := by
  cases first
  cases same
  rfl

include same in
theorem optWildCard_congr : first.optWildCard = second.optWildCard := by
  cases first
  cases same
  rfl

include same in
theorem matchesValue_congr (name value : String) :
    first.matchesValue name value = second.matchesValue name value := by
  cases first
  cases same
  rfl

include same in
omit [Platform] in
theorem pathSeparatorChar_congr : RangerPathResourceMatcher.pathSeparatorChar first =
    RangerPathResourceMatcher.pathSeparatorChar second := by
  cases first
  cases same
  rfl

end Options

variable (matcher : RangerAbstractResourceMatcher)

theorem equalsValue_iff {name value : String} :
    matcher.equalsValue name value = true ↔
      name.toList.map matcher.fold = value.toList.map matcher.fold := by
  unfold equalsValue
  by_cases ignoring : matcher.optIgnoreCase = true
  · have folding : matcher.fold = foldCase := by
      funext char
      simp only [fold, ignoring, ↓reduceIte]
    rw [if_pos ignoring, equalsIgnoreCase_iff, folding]
  · have folding : matcher.fold = id := by
      funext char
      simp only [fold, ignoring, Bool.false_eq_true, ↓reduceIte, id_eq]
    rw [if_neg ignoring, folding, List.map_id, List.map_id, beq_iff_eq, String.toList_inj]

/-- The value stands for one name: no part of it is read as a wildcard. -/
def IsName (value : String) : Prop :=
  containsOnly value WILDCARD_ASTERISK = false ∧
    (matcher.optWildCard = true → '*' ∉ value.toList ∧ '?' ∉ value.toList)

omit [Platform] in
theorem wildcardTokens_of_plain {value : String}
    (plain : '*' ∉ value.toList ∧ '?' ∉ value.toList) :
    wildcardTokens value = value.toList.map .literal := by
  apply List.map_congr_left
  intro char member
  have star : char ≠ '*' := fun same => plain.1 (same ▸ member)
  have mark : char ≠ '?' := fun same => plain.2 (same ▸ member)
  rw [if_neg star, if_neg mark]

/-- A name is matched by the names that fold alike. -/
theorem matchesValue_name {value : String} (plain : matcher.IsName value) (name : String) :
    matcher.matchesValue name value = true ↔
      name.toList.map matcher.fold = value.toList.map matcher.fold := by
  unfold matchesValue
  by_cases wild : matcher.optWildCard = true
  · rw [if_pos wild, wildcardMatch, wildcardTokens_of_plain (plain.2 wild)]
    exact Glob.accepts_literals _ _ _
  · rw [if_neg wild]
    exact matcher.equalsValue_iff

theorem matchesValue_alike {first second : String}
    (alike : first.toList.map matcher.fold = second.toList.map matcher.fold) (value : String) :
    matcher.matchesValue first value = matcher.matchesValue second value := by
  unfold matchesValue
  by_cases wild : matcher.optWildCard = true
  · rw [if_pos wild, if_pos wild]
    exact Glob.accepts_congr _ _ alike
  · rw [if_neg wild, if_neg wild, Bool.eq_iff_iff, equalsValue_iff, equalsValue_iff, alike]

end RangerAbstractResourceMatcher

namespace RangerResourceMatcher

/-- Whether the matcher matches what is below its values. -/
def isRecursive : RangerResourceMatcher → Bool
  | default _ => false
  | path base => RangerPathResourceMatcher.policyIsRecursive base

/-- The value as `policyValuesForMatch` has it. -/
def valueForMatch (base : RangerAbstractResourceMatcher) (policyValue : String) : String :=
  if RangerPathResourceMatcher.policyIsRecursive base && base.optWildCard then
    if policyValue.toList.getLast? = some (RangerPathResourceMatcher.pathSeparatorChar base) then
      policyValue.push WILDCARD_ASTERISK
    else policyValue
  else policyValue

/-- The comparison of a name with one value. -/
def reads : RangerResourceMatcher → String → String → Bool
  | default base, name, policyValue => base.matchesValue name policyValue
  | path base, name, policyValue =>
      RangerPathResourceMatcher.matchesValue base name (valueForMatch base policyValue)

variable (matcher : RangerResourceMatcher)

theorem isMatch_none :
    matcher.isMatch none =
      if matcher.base.policyIsExcludes then !matcher.base.isMatchAny
      else matcher.base.isMatchAny := by
  cases matcher <;> rfl

theorem isMatch_some (name : String) :
    matcher.isMatch (some name) =
      if matcher.base.policyIsExcludes then
        !(matcher.base.isMatchAny || matcher.base.policyValues.any (matcher.reads name))
      else matcher.base.isMatchAny || matcher.base.policyValues.any (matcher.reads name) := by
  cases matcher with
  | default base => rfl
  | path base =>
      have values : (base.isMatchAny ||
          (RangerPathResourceMatcher.policyValuesForMatch base).any
            (RangerPathResourceMatcher.matchesValue base name)) =
          (base.isMatchAny || base.policyValues.any ((path base).reads name)) := by
        cases any : base.isMatchAny with
        | true => rfl
        | false =>
            unfold RangerPathResourceMatcher.policyValuesForMatch reads valueForMatch
            cases deep : RangerPathResourceMatcher.policyIsRecursive base && base.optWildCard with
            | true =>
                simp only [any, deep, Bool.not_false, Bool.and_true, Bool.false_or, ↓reduceIte,
                  List.any_map, Function.comp_def]
            | false =>
                simp only [deep, Bool.false_and, Bool.false_eq_true, ↓reduceIte]
      simp only [isMatch, RangerPathResourceMatcher.isMatch, values]
      rfl

theorem reads_flat {matcher : RangerResourceMatcher} (flat : matcher.isRecursive = false)
    (name policyValue : String) :
    matcher.reads name policyValue = matcher.base.matchesValue name policyValue := by
  cases matcher with
  | default base => rfl
  | path base =>
      have flag : RangerPathResourceMatcher.policyIsRecursive base = false := flat
      simp [reads, valueForMatch, RangerPathResourceMatcher.matchesValue, flag,
        RangerResourceMatcher.base]

/-- A recursive matcher with wildcards tries the ancestors of a path. -/
theorem reads_deep {matcher : RangerResourceMatcher} (deep : matcher.isRecursive = true)
    (wild : matcher.base.optWildCard = true) (name policyValue : String) :
    matcher.reads name policyValue =
      RangerPathResourceMatcher.isRecursiveWildCardMatch name.toList
        (if policyValue.toList.getLast? =
            some (RangerPathResourceMatcher.pathSeparatorChar matcher.base) then
          policyValue.push WILDCARD_ASTERISK
        else policyValue)
        (RangerPathResourceMatcher.pathSeparatorChar matcher.base) matcher.base.fold := by
  cases matcher with
  | default base => cases deep
  | path base =>
      have flag : RangerPathResourceMatcher.policyIsRecursive base = true := deep
      have flagWild : base.optWildCard = true := wild
      simp only [reads, valueForMatch, RangerPathResourceMatcher.matchesValue, flag, flagWild,
        Bool.and_self, ↓reduceIte]
      rfl

/-- A recursive matcher without wildcards compares the beginning of a path. -/
theorem reads_literal {matcher : RangerResourceMatcher} (deep : matcher.isRecursive = true)
    (literal : matcher.base.optWildCard = false) (name policyValue : String) :
    matcher.reads name policyValue =
      (policyValue.toList.map matcher.base.fold).isPrefixOf
        (name.toList.map matcher.base.fold) := by
  cases matcher with
  | default base => cases deep
  | path base =>
      have flag : RangerPathResourceMatcher.policyIsRecursive base = true := deep
      have flagLiteral : base.optWildCard = false := literal
      simp [reads, valueForMatch, RangerPathResourceMatcher.matchesValue, flag, flagLiteral,
        RangerResourceMatcher.base]

/-- No other letter folds to the separator, if the matcher looks for it. -/
def SeparatorApart : Prop :=
  matcher.isRecursive = true → matcher.base.optWildCard = true →
    ∀ char, matcher.base.fold char =
        matcher.base.fold (RangerPathResourceMatcher.pathSeparatorChar matcher.base) →
      char = RangerPathResourceMatcher.pathSeparatorChar matcher.base

theorem reads_alike {matcher : RangerResourceMatcher} (apart : matcher.SeparatorApart)
    {first second : String}
    (alike : first.toList.map matcher.base.fold = second.toList.map matcher.base.fold)
    (policyValue : String) :
    matcher.reads first policyValue = matcher.reads second policyValue := by
  cases flag : matcher.isRecursive with
  | false =>
      rw [reads_flat flag, reads_flat flag]
      exact matcher.base.matchesValue_alike alike policyValue
  | true =>
      cases wild : matcher.base.optWildCard with
      | false => rw [reads_literal flag wild, reads_literal flag wild, alike]
      | true =>
          rw [reads_deep flag wild, reads_deep flag wild]
          exact RangerPathResourceMatcher.isRecursiveWildCardMatch_congr (apart flag wild) alike

omit [Platform] in
private theorem accepts_nil {fold : Char → Char} {value : String}
    (accepted : wildcardMatch fold [] value = true) :
    containsOnly value WILDCARD_ASTERISK = true := by
  unfold wildcardMatch wildcardTokens at accepted
  unfold containsOnly
  generalize value.toList = chars at accepted ⊢
  induction chars with
  | nil => rfl
  | cons char rest ih =>
      by_cases star : char = '*'
      · simp only [List.map_cons, star, ↓reduceIte, Glob.accepts, List.tails, List.any_cons,
          List.any_nil, Bool.or_false] at accepted
        simp [star, WILDCARD_ASTERISK, ← ih accepted]
      · by_cases mark : char = '?'
        · simp [mark, Glob.accepts] at accepted
        · simp [star, mark, Glob.accepts] at accepted

/-- The empty name is matched by no value, unless the value matches anything. -/
theorem reads_empty {policyValue : String} (nonempty : policyValue.toList ≠ [])
    (specific : containsOnly policyValue WILDCARD_ASTERISK = false) :
    matcher.reads "" policyValue = false := by
  apply Bool.eq_false_iff.mpr
  intro read
  cases flag : matcher.isRecursive with
  | false =>
      rw [reads_flat flag] at read
      unfold RangerAbstractResourceMatcher.matchesValue at read
      split at read
      · rw [accepts_nil read] at specific
        cases specific
      · rw [RangerAbstractResourceMatcher.equalsValue_iff] at read
        exact nonempty (List.map_eq_nil_iff.mp read.symm)
  | true =>
      cases wild : matcher.base.optWildCard with
      | false =>
          rw [reads_literal flag wild, List.isPrefixOf_iff_prefix] at read
          exact nonempty (List.map_eq_nil_iff.mp (List.prefix_nil.mp read))
      | true =>
          rw [reads_deep flag wild] at read
          simp [RangerPathResourceMatcher.isRecursiveWildCardMatch] at read

omit [Platform] in
theorem mem_policyValues {base : RangerAbstractResourceMatcher} {policyValue : String} :
    policyValue ∈ base.policyValues ↔
      policyValue ∈ base.policyResource.values ∧ policyValue.toList ≠ [] := by
  simp only [RangerAbstractResourceMatcher.policyValues, List.mem_filter, Bool.not_eq_true',
    Bool.eq_false_iff, ne_eq, String.isEmpty_iff, String.toList_eq_nil_iff]

/-- The empty name is matched like a missing one. -/
theorem isMatch_empty : matcher.isMatch (some "") = matcher.isMatch none := by
  rw [isMatch_some, isMatch_none]
  cases any : matcher.base.isMatchAny with
  | true => rfl
  | false =>
      have unread : matcher.base.policyValues.any (matcher.reads "") = false := by
        apply List.any_eq_false.mpr
        intro policyValue member
        simp only [RangerAbstractResourceMatcher.isMatchAny, Bool.or_eq_false_iff,
          List.any_eq_false] at any
        have specific := any.1 policyValue member
        rw [matcher.reads_empty (mem_policyValues.mp member).2 (Bool.eq_false_iff.mpr specific)]
        exact Bool.false_ne_true
      rw [unread, Bool.or_false]

section Patterns

omit [Platform] in
private theorem mem_wildcardTokens (pattern : String) :
    (∀ symbol, .literal symbol ∈ wildcardTokens pattern → symbol ≠ '*' ∧ symbol ≠ '?') ∧
      (.one ∈ wildcardTokens pattern → '?' ∈ pattern.toList) ∧
      (.many ∈ wildcardTokens pattern → '*' ∈ pattern.toList) := by
  have read : ∀ token ∈ wildcardTokens pattern, ∃ char ∈ pattern.toList,
      (if char = '*' then .many else if char = '?' then .one else .literal char) = token :=
    fun token member => List.mem_map.mp member
  refine ⟨fun symbol member => ?_, fun member => ?_, fun member => ?_⟩
  · obtain ⟨char, _, classified⟩ := read _ member
    split_ifs at classified with star mark
    rw [← Glob.Token.literal.inj classified]
    exact ⟨star, mark⟩
  · obtain ⟨char, listed, classified⟩ := read _ member
    split_ifs at classified with star mark
    rwa [← mark]
  · obtain ⟨char, listed, classified⟩ := read _ member
    split_ifs at classified with star mark
    rwa [← star]

omit [Platform] in
/-- A pattern is spelled as it is written. -/
private theorem spell_wildcardTokens (pattern : String) :
    (wildcardTokens pattern).map (Glob.Token.spell '*' '?') = pattern.toList := by
  unfold wildcardTokens
  rw [List.map_map]
  conv_rhs => rw [← List.map_id pattern.toList]
  apply List.map_congr_left
  intro char _
  by_cases star : char = '*'
  · simp [star, Glob.Token.spell]
  · by_cases mark : char = '?'
    · simp [mark, Glob.Token.spell]
    · simp [star, mark, Glob.Token.spell]

/-- Unless it is matched with the ancestors of paths, a value reads itself. -/
theorem reads_self {matcher : RangerResourceMatcher}
    (plain : matcher.isRecursive = false ∨ matcher.base.optWildCard = false)
    (policyValue : String) : matcher.reads policyValue policyValue = true := by
  cases flag : matcher.isRecursive with
  | false =>
      rw [reads_flat flag]
      unfold RangerAbstractResourceMatcher.matchesValue
      by_cases wild : matcher.base.optWildCard = true
      · rw [if_pos wild, wildcardMatch, Glob.accepts_iff_mem_language, ← spell_wildcardTokens]
        exact Glob.spelling_mem_language '*' '?' _ _
      · rw [if_neg wild]
        exact matcher.base.equalsValue_iff.mpr rfl
  | true =>
      have literal : matcher.base.optWildCard = false := by
        obtain flat | literal := plain
        · rw [flag] at flat
          cases flat
        · exact literal
      rw [reads_literal flag literal, List.isPrefixOf_iff_prefix]

/-- No other letter is compared like a wildcard. -/
theorem fold_ne_wildcard (base : RangerAbstractResourceMatcher) {symbol : Char}
    (plain : symbol ≠ '*' ∧ symbol ≠ '?') :
    base.fold symbol ≠ base.fold '*' ∧ base.fold symbol ≠ base.fold '?' := by
  unfold RangerAbstractResourceMatcher.fold
  split
  · exact ⟨fun same => plain.1 (Platform.eq_asterisk symbol same),
      fun same => plain.2 (Platform.eq_question_mark symbol same)⟩
  · exact plain

/-- A pattern that accepts another one's text accepts what the other one accepts,
unless a question mark can have met an asterisk. -/
theorem wildcardMatch_trans (base : RangerAbstractResourceMatcher) {text : List Char}
    {special general : String} (apart : '?' ∉ general.toList ∨ '*' ∉ special.toList)
    (spelled : wildcardMatch base.fold special.toList general = true)
    (accepted : wildcardMatch base.fold text special = true) :
    wildcardMatch base.fold text general = true := by
  unfold wildcardMatch at *
  rw [Glob.accepts_iff_mem_language] at *
  refine Glob.language_subset_of_spelling '*' '?' ?_ ?_ ?_ accepted
  · intro symbol member
    exact fold_ne_wildcard base ((mem_wildcardTokens general).1 symbol member)
  · exact apart.imp (fun absent member => absent ((mem_wildcardTokens general).2.1 member))
      fun absent member => absent ((mem_wildcardTokens special).2.2 member)
  · rwa [spell_wildcardTokens]

omit [Platform] in
/-- A value of asterisks accepts any text. -/
theorem wildcardMatch_asterisks (fold : Char → Char) {value : String} (nonempty : value.toList ≠ [])
    (asterisks : containsOnly value WILDCARD_ASTERISK = true) (text : List Char) :
    wildcardMatch fold text value = true := by
  unfold wildcardMatch wildcardTokens
  unfold containsOnly at asterisks
  generalize value.toList = chars at nonempty asterisks ⊢
  have empty : ∀ chars : List Char, chars.all (· == WILDCARD_ASTERISK) = true →
      Glob.accepts fold (chars.map fun char =>
        if char = '*' then .many else if char = '?' then .one else .literal char) [] = true := by
    intro chars
    induction chars with
    | nil => exact fun _ => rfl
    | cons char rest ih =>
        intro all
        rw [List.all_cons, Bool.and_eq_true, beq_iff_eq] at all
        have star : char = '*' := all.1
        simp [star, Glob.accepts, ih all.2]
  cases chars with
  | nil => exact absurd rfl nonempty
  | cons char rest =>
      rw [List.all_cons, Bool.and_eq_true, beq_iff_eq] at asterisks
      have star : char = '*' := asterisks.1
      simp only [List.map_cons, star, ↓reduceIte, Glob.accepts, List.any_eq_true, List.mem_tails]
      exact ⟨[], List.nil_suffix, empty rest asterisks.2⟩

end Patterns

section Below

variable {separator : Char} {fold : Char → Char} {front back : List Char} {pattern : String}
  (parts : pattern.toList = front ++ back) (plain : '*' ∉ front ∧ '?' ∉ front)

omit [Platform]

include parts plain in
/-- What a pattern accepts begins with the plain front of the pattern. -/
private theorem exists_of_wildcardMatch {text : List Char}
    (accepted : wildcardMatch fold text pattern = true) :
    ∃ first second, text = first ++ second ∧ first.map fold = front.map fold ∧
      (back = [] → second = []) := by
  have tokens : wildcardTokens pattern = front.map .literal ++ wildcardTokens (.ofList back) := by
    have plainFront : '*' ∉ (String.ofList front).toList ∧ '?' ∉ (String.ofList front).toList := by
      rwa [String.toList_ofList]
    have plainTokens := RangerAbstractResourceMatcher.wildcardTokens_of_plain plainFront
    unfold wildcardTokens at plainTokens ⊢
    rw [String.toList_ofList] at plainTokens
    rw [parts, List.map_append, plainTokens, String.toList_ofList]
  rw [wildcardMatch, tokens, Glob.accepts_iff_mem_language, Glob.mem_language_append] at accepted
  obtain ⟨first, second, rfl, inside, behind⟩ := accepted
  rw [← Glob.accepts_iff_mem_language, Glob.accepts_literals] at inside
  refine ⟨first, second, rfl, inside, ?_⟩
  rintro rfl
  exact behind

variable (apart : ∀ char, fold char = fold separator → char = separator)
  (closed : back = [] ∨ front.getLast? = some separator)
  (pieces : split separator front ≠ []) {path : List Char} {general : String}
  (matched : RangerPathResourceMatcher.isRecursiveWildCardMatch front general separator fold = true)

include apart closed pieces matched

include parts plain in
/-- What matches the plain front of a pattern recursively matches every path that has
the ancestors of a text the pattern accepts. -/
private theorem isRecursiveWildCardMatch_of_front {text : List Char}
    (accepted : wildcardMatch fold text pattern = true)
    (ancestors : RangerPathResourceMatcher.ancestorPaths separator text ⊆
      RangerPathResourceMatcher.ancestorPaths separator path) :
    RangerPathResourceMatcher.isRecursiveWildCardMatch path general separator fold = true := by
  obtain ⟨first, second, rfl, alike, whole⟩ := exists_of_wildcardMatch parts plain accepted
  have firstPieces : split separator first ≠ [] := by
    intro empty
    have same := split_congr separator apart alike
    rw [empty, List.map_nil] at same
    exact pieces (List.map_eq_nil_iff.mp same.symm)
  have firstMatched :=
    (RangerPathResourceMatcher.isRecursiveWildCardMatch_congr apart alike).trans matched
  have within : RangerPathResourceMatcher.ancestorPaths separator first ⊆
      RangerPathResourceMatcher.ancestorPaths separator (first ++ second) := by
    rcases closed with complete | ends
    · rw [whole complete, List.append_nil]
      exact List.Subset.refl _
    · apply RangerPathResourceMatcher.ancestorPaths_append
      have last := congrArg List.getLast? alike
      rw [List.getLast?_map, List.getLast?_map, ends, Option.map_some,
        Option.map_eq_some_iff] at last
      obtain ⟨char, lastChar, folds⟩ := last
      rw [lastChar, apart char folds]
  exact RangerPathResourceMatcher.isRecursiveWildCardMatch_mono firstPieces
    (List.Subset.trans within ancestors) firstMatched

include parts plain in
/-- A path a pattern matches recursively is matched recursively by whatever matches
the plain front of the pattern. -/
theorem isRecursiveWildCardMatch_below
    (below : RangerPathResourceMatcher.isRecursiveWildCardMatch path pattern separator fold =
      true) :
    RangerPathResourceMatcher.isRecursiveWildCardMatch path general separator fold = true := by
  by_cases whole : split separator path = []
  · unfold RangerPathResourceMatcher.isRecursiveWildCardMatch at below
    rw [if_pos whole] at below
    split at below
    · cases below
    · exact isRecursiveWildCardMatch_of_front parts plain apart closed pieces matched below
        (List.Subset.refl _)
  · obtain ⟨ancestor, member, accepted⟩ :=
      (RangerPathResourceMatcher.isRecursiveWildCardMatch_iff whole).mp below
    exact isRecursiveWildCardMatch_of_front parts plain apart closed pieces matched accepted
      (RangerPathResourceMatcher.ancestorPaths_trans separator member)

end Below

section Cover

/-- Why a value of a special matcher, matched as a name by a general one, brings
nothing the general one does not match. -/
inductive ValueCovered (general special : RangerResourceMatcher) (value : String) : Prop
  /-- It is a value of both. -/
  | shared (listed : value ∈ general.base.policyValues)
      (flag : general.isRecursive = special.isRecursive)
  /-- It stands for its own name. -/
  | name (plain : special.base.IsName value) (flat : special.isRecursive = false)
      (apart : general.SeparatorApart)
  /-- It stands for what is below its name, and so does the general matcher. -/
  | below (plain : special.base.IsName value) (deep : general.isRecursive = true)
      (apart : general.SeparatorApart)
      (pieces : special.base.optWildCard = true →
        split (RangerPathResourceMatcher.pathSeparatorChar special.base) value.toList ≠ [])
  /-- It begins with the plain name of a directory, and the general matcher matches what
  is below that one. -/
  | within (wild : special.base.optWildCard = true) (deep : general.isRecursive = true)
      (apart : general.SeparatorApart) (front back : String) (parts : value = front ++ back)
      (plain : '*' ∉ front.toList ∧ '?' ∉ front.toList)
      (closed : front.toList.getLast? =
        some (RangerPathResourceMatcher.pathSeparatorChar general.base))
      (pieces : split (RangerPathResourceMatcher.pathSeparatorChar general.base) front.toList ≠ [])
      (matched : ∃ policyValue ∈ general.base.policyValues,
        general.reads front policyValue = true)
  /-- It is a pattern, and no question mark can have met an asterisk of it. -/
  | pattern (wild : special.base.optWildCard = true) (flat : special.isRecursive = false)
      (generalFlat : general.isRecursive = false)
      (apart : (∀ policyValue ∈ general.base.policyValues, '?' ∉ policyValue.toList) ∨
        '*' ∉ value.toList)

/-- Why a level of a general matcher covers one of a special matcher. -/
inductive LevelCovered (general special : RangerResourceMatcher) : Prop
  | any (matchAny : general.base.isMatchAny = true)
  | outside (excludes : general.base.policyIsExcludes = true)
      (valued : special.base.policyValues ≠ []) (flat : special.isRecursive = false)
      (apart : general.SeparatorApart)
      (plain : ∀ value ∈ special.base.policyValues, special.base.IsName value)
  | values (includes : general.base.policyIsExcludes = false)
      (covered : ∀ value ∈ special.base.policyValues, ValueCovered general special value)

variable {general special : RangerResourceMatcher}
  (same : general.base.options = special.base.options)

include same in
/-- A value that stands for its own name is read by the names the general matcher
tells not apart from it. -/
private theorem alike_of_reads {value name : String} (plain : special.base.IsName value)
    (flat : special.isRecursive = false) (read : special.reads name value = true) :
    name.toList.map general.base.fold = value.toList.map general.base.fold := by
  rw [reads_flat flat, special.base.matchesValue_name plain] at read
  rwa [RangerAbstractResourceMatcher.fold_congr same]

include same in
/-- What a value with a plain front reads is read by a recursive matcher that reads the
front. -/
private theorem reads_of_front {front value name policyValue : String} {back : List Char}
    (parts : value.toList = front.toList ++ back) (plain : '*' ∉ front.toList ∧ '?' ∉ front.toList)
    (closed : back = [] ∨ front.toList.getLast? =
      some (RangerPathResourceMatcher.pathSeparatorChar general.base))
    (pieces : split (RangerPathResourceMatcher.pathSeparatorChar general.base) front.toList ≠ [])
    (wild : special.base.optWildCard = true) (deep : general.isRecursive = true)
    (apart : general.SeparatorApart) (read : special.reads name value = true)
    (matched : general.reads front policyValue = true) : general.reads name policyValue = true := by
  have foldSame := RangerAbstractResourceMatcher.fold_congr same
  have separatorSame := RangerAbstractResourceMatcher.pathSeparatorChar_congr same
  have generalWild : general.base.optWildCard = true :=
    (RangerAbstractResourceMatcher.optWildCard_congr same).trans wild
  rw [reads_deep deep generalWild] at matched ⊢
  cases specialDeep : special.isRecursive with
  | false =>
      rw [reads_flat specialDeep, RangerAbstractResourceMatcher.matchesValue, if_pos wild,
        ← foldSame] at read
      exact isRecursiveWildCardMatch_of_front parts plain (apart deep generalWild) closed pieces
        matched read (List.Subset.refl _)
  | true =>
      rw [reads_deep specialDeep wild, ← foldSame, ← separatorSame] at read
      split at read
      · next ends =>
          -- the wildcard implied behind the value
          have longer : (value.push WILDCARD_ASTERISK).toList =
              front.toList ++ (back ++ [WILDCARD_ASTERISK]) := by
            rw [String.toList_push, parts, List.append_assoc]
          have closedFront : front.toList.getLast? =
              some (RangerPathResourceMatcher.pathSeparatorChar general.base) := by
            rcases closed with rfl | front_closed
            · rwa [parts, List.append_nil] at ends
            · exact front_closed
          exact isRecursiveWildCardMatch_below longer plain (apart deep generalWild)
            (Or.inr closedFront) pieces matched read
      · exact isRecursiveWildCardMatch_below parts plain (apart deep generalWild) closed pieces
          matched read

include same in
private theorem reads_below {value name policyValue : String} (plain : special.base.IsName value)
    (deep : general.isRecursive = true) (specialDeep : special.isRecursive = true)
    (apart : general.SeparatorApart)
    (pieces : special.base.optWildCard = true →
      split (RangerPathResourceMatcher.pathSeparatorChar special.base) value.toList ≠ [])
    (read : special.reads name value = true) (matched : general.reads value policyValue = true) :
    general.reads name policyValue = true := by
  cases wild : special.base.optWildCard with
  | false =>
      have generalLiteral : general.base.optWildCard = false :=
        (RangerAbstractResourceMatcher.optWildCard_congr same).trans wild
      rw [reads_literal specialDeep wild, List.isPrefixOf_iff_prefix] at read
      rw [reads_literal deep generalLiteral, List.isPrefixOf_iff_prefix,
        RangerAbstractResourceMatcher.fold_congr same] at matched ⊢
      exact matched.trans read
  | true =>
      have separatorSame := RangerAbstractResourceMatcher.pathSeparatorChar_congr same
      exact reads_of_front same (List.append_nil _).symm (plain.2 wild) (Or.inl rfl)
        (separatorSame ▸ pieces wild) wild deep apart read matched

include same in
/-- Matchers with the same options and the same recursive flag read a value alike. -/
theorem reads_congr (flag : general.isRecursive = special.isRecursive) (name value : String) :
    general.reads name value = special.reads name value := by
  cases flat : special.isRecursive with
  | false =>
      rw [reads_flat flat, reads_flat (flag.trans flat)]
      exact RangerAbstractResourceMatcher.matchesValue_congr same name value
  | true =>
      have foldSame := RangerAbstractResourceMatcher.fold_congr same
      have wildSame := RangerAbstractResourceMatcher.optWildCard_congr same
      have separatorSame := RangerAbstractResourceMatcher.pathSeparatorChar_congr same
      cases wild : special.base.optWildCard with
      | false =>
          rw [reads_literal flat wild, reads_literal (flag.trans flat) (wildSame.trans wild),
            foldSame]
      | true =>
          rw [reads_deep flat wild, reads_deep (flag.trans flat) (wildSame.trans wild), foldSame,
            separatorSame]

include same in
private theorem reads_pattern {value name policyValue : String}
    (wild : special.base.optWildCard = true) (flat : special.isRecursive = false)
    (generalFlat : general.isRecursive = false)
    (apart : '?' ∉ policyValue.toList ∨ '*' ∉ value.toList) (nonempty : value.toList ≠ [])
    (read : special.reads name value = true ∨ containsOnly value WILDCARD_ASTERISK = true)
    (matched : general.reads value policyValue = true) : general.reads name policyValue = true := by
  have generalWild : general.base.optWildCard = true :=
    (RangerAbstractResourceMatcher.optWildCard_congr same).trans wild
  rw [reads_flat generalFlat, RangerAbstractResourceMatcher.matchesValue, if_pos generalWild] at *
  apply wildcardMatch_trans general.base apart matched
  rcases read with reads | asterisks
  · rwa [reads_flat flat, RangerAbstractResourceMatcher.matchesValue, if_pos wild,
      ← RangerAbstractResourceMatcher.fold_congr same] at reads
  · exact wildcardMatch_asterisks _ nonempty asterisks _

include same in
/-- What a covered value reads, or anything if it consists of asterisks, is read by
a value of the general matcher. -/
theorem exists_reads_of_valueCovered {value name : String}
    (covered : ValueCovered general special value) (specific : general.base.isMatchAny = false)
    (nonempty : value.toList ≠ [])
    (read : special.reads name value = true ∨ containsOnly value WILDCARD_ASTERISK = true)
    (matched : ∃ policyValue ∈ general.base.policyValues, general.reads value policyValue = true) :
    ∃ policyValue ∈ general.base.policyValues, general.reads name policyValue = true := by
  have readUnless : (containsOnly value WILDCARD_ASTERISK = true → False) →
      special.reads name value = true :=
    fun other => read.resolve_right other
  have readPlain : special.base.IsName value → special.reads name value = true :=
    fun plain => readUnless fun asterisks => by simp [plain.1] at asterisks
  obtain ⟨policyValue, listed, valueRead⟩ := matched
  cases covered with
  | shared member flag =>
      refine ⟨value, member, ?_⟩
      rw [reads_congr same flag]
      apply readUnless
      intro asterisks
      have any : general.base.isMatchAny = true := by
        unfold RangerAbstractResourceMatcher.isMatchAny
        rw [Bool.or_eq_true]
        exact Or.inl (List.any_eq_true.mpr ⟨value, member, asterisks⟩)
      rw [specific] at any
      cases any
  | name plain flat apart =>
      refine ⟨policyValue, listed, ?_⟩
      rwa [reads_alike apart (alike_of_reads same plain flat (readPlain plain))]
  | below plain deep apart pieces =>
      refine ⟨policyValue, listed, ?_⟩
      cases flat : special.isRecursive with
      | false => rwa [reads_alike apart (alike_of_reads same plain flat (readPlain plain))]
      | true => exact reads_below same plain deep flat apart pieces (readPlain plain) valueRead
  | within wild deep apart front back parts plain closed pieces matched =>
      obtain ⟨frontValue, frontListed, frontRead⟩ := matched
      refine ⟨frontValue, frontListed, ?_⟩
      have cut : value.toList = front.toList ++ back.toList := by rw [parts, String.toList_append]
      apply reads_of_front same cut plain (Or.inr closed) pieces wild deep apart ?_ frontRead
      apply readUnless
      intro asterisks
      have last := List.mem_of_getLast? closed
      have inside := List.all_eq_true.mp asterisks _ (cut ▸ List.mem_append_left _ last)
      rw [beq_iff_eq.mp inside] at last
      exact plain.1 last
  | pattern wild flat generalFlat apart =>
      refine ⟨policyValue, listed, ?_⟩
      have clear : '?' ∉ policyValue.toList ∨ '*' ∉ value.toList :=
        apart.imp_left fun plain => plain policyValue listed
      exact reads_pattern same wild flat generalFlat clear nonempty read valueRead

/-- The test of one level by `isMatch(Map)`: the values are taken as names, and no
values as a missing name. -/
def matchesValues (general : RangerResourceMatcher) (values : List String) : Bool :=
  if values.isEmpty then general.isMatch none
  else values.all fun resourceValue => general.isMatch (some resourceValue)

private theorem isMatch_none_of_matchesValues
    (checked : general.matchesValues special.base.policyResource.values = true)
    (unvalued : special.base.policyValues = []) : general.isMatch none = true := by
  unfold matchesValues at checked
  cases values : special.base.policyResource.values with
  | nil => simpa [values] using checked
  | cons value rest =>
      rw [values, List.isEmpty_cons, if_neg Bool.false_ne_true, List.all_cons,
        Bool.and_eq_true] at checked
      have empty : value = "" := by
        by_contra nonempty
        have member : value ∈ special.base.policyValues :=
          mem_policyValues.mpr ⟨values ▸ List.mem_cons_self,
            fun none => nonempty (String.toList_eq_nil_iff.mp none)⟩
        rw [unvalued] at member
        cases member
      rw [← isMatch_empty, ← empty]
      exact checked.1

private theorem isMatch_some_of_matchesValues
    (checked : general.matchesValues special.base.policyResource.values = true) {value : String}
    (member : value ∈ special.base.policyValues) : general.isMatch (some value) = true := by
  have listed := (mem_policyValues.mp member).1
  unfold matchesValues at checked
  have nonempty : special.base.policyResource.values.isEmpty = false := by
    cases values : special.base.policyResource.values with
    | nil =>
        rw [values] at listed
        cases listed
    | cons first rest => rfl
  rw [nonempty, if_neg Bool.false_ne_true, List.all_eq_true] at checked
  exact checked value listed

/-- A level that matches anything and passes the test excludes nothing. -/
private theorem includes_of_isMatchAny (any : general.base.isMatchAny = true)
    (checked : general.matchesValues special.base.policyResource.values = true) :
    general.base.policyIsExcludes = false := by
  cases excludes : general.base.policyIsExcludes with
  | false => rfl
  | true =>
      have unmatched : ∀ resource, general.isMatch resource = false := by
        intro resource
        cases resource with
        | none => simp [isMatch_none, excludes, any]
        | some name => simp [isMatch_some, excludes, any]
      simp only [matchesValues, unmatched] at checked
      cases values : special.base.policyResource.values with
      | nil => simp [values] at checked
      | cons value rest => simp [values] at checked

/-- A value of a matcher accounts for a match, unless it has none. -/
private theorem account_of_isMatch (includes : special.base.policyIsExcludes = false)
    {name : String} (matched : special.isMatch (some name) = true) :
    special.base.policyValues = [] ∨ ∃ value ∈ special.base.policyValues,
      special.reads name value = true ∨ containsOnly value WILDCARD_ASTERISK = true := by
  rw [isMatch_some, includes, if_neg Bool.false_ne_true] at matched
  simp only [RangerAbstractResourceMatcher.isMatchAny, Bool.or_eq_true, List.any_eq_true,
    List.isEmpty_iff] at matched
  rcases matched with (⟨value, member, asterisks⟩ | unvalued) | ⟨value, member, reads⟩
  · exact Or.inr ⟨value, member, Or.inr asterisks⟩
  · exact Or.inl unvalued
  · exact Or.inr ⟨value, member, Or.inl reads⟩

include same in
/-- **Covering at one level.** A covered level that passes the test with its values
taken as names passes it with every name it matches. -/
theorem isMatch_of_levelCovered (includes : special.base.policyIsExcludes = false)
    (covered : LevelCovered general special)
    (checked : general.matchesValues special.base.policyResource.values = true)
    (resource : Option String) (matched : special.isMatch resource = true) :
    general.isMatch resource = true := by
  -- a missing name is matched like the empty one
  obtain ⟨name, generalSame, specialSame⟩ : ∃ name : String,
      general.isMatch resource = general.isMatch (some name) ∧
        special.isMatch resource = special.isMatch (some name) := by
    cases resource with
    | none => exact ⟨"", (isMatch_empty general).symm, (isMatch_empty special).symm⟩
    | some name => exact ⟨name, rfl, rfl⟩
  have account := account_of_isMatch includes (specialSame ▸ matched)
  rw [generalSame]
  cases any : general.base.isMatchAny with
  | true =>
      rw [isMatch_some, includes_of_isMatchAny any checked, any]
      rfl
  | false =>
      cases covered with
      | any matchAny =>
          rw [any] at matchAny
          cases matchAny
      | outside excludes valued flat apart plain =>
          obtain ⟨value, member, read⟩ := account.resolve_left valued
          rcases read with reads | asterisks
          · have alike := alike_of_reads same (plain value member) flat reads
            have reading : general.reads name = general.reads value :=
              funext fun policyValue => reads_alike apart alike policyValue
            rw [isMatch_some, reading, ← isMatch_some]
            exact isMatch_some_of_matchesValues checked member
          · rw [(plain value member).1] at asterisks
            cases asterisks
      | values generalIncludes coveredValues =>
          rcases account with unvalued | ⟨value, member, reads⟩
          · have none := isMatch_none_of_matchesValues checked unvalued
            rw [isMatch_none, generalIncludes, any] at none
            cases none
          · have valueMatch := isMatch_some_of_matchesValues checked member
            rw [isMatch_some, generalIncludes, if_neg Bool.false_ne_true, any, Bool.false_or,
              List.any_eq_true] at valueMatch ⊢
            exact exists_reads_of_valueCovered same (coveredValues value member) any
              (mem_policyValues.mp member).2 reads valueMatch

end Cover

end RangerResourceMatcher

end Ranger

import Ranger.ResourceMatcher

/-! # Paths and their ancestors

How the pieces of a path and the paths a recursive wildcard match tries behave
when paths are joined, cut at a separator, or spelled in another letter case.
-/

namespace Ranger

open Foundation

section Split

variable (separator : Char)

private theorem pieces_append (front back : List Char) :
    pieces separator (front ++ separator :: back) =
      ((pieces separator front).1, (pieces separator front).2 ++ split separator back) := by
  induction front with
  | nil => simp [pieces, split]
  | cons char rest ih =>
      by_cases cut : char = separator
      · by_cases gap : (pieces separator rest).1 = []
        · simp [pieces, ih, cut, gap]
        · simp [pieces, ih, cut, gap]
      · simp [pieces, ih, cut]

/-- The pieces of a path cut at a separator. -/
theorem split_append (front back : List Char) :
    split separator (front ++ separator :: back) =
      split separator front ++ split separator back := by
  unfold split
  rw [pieces_append]
  by_cases gap : (pieces separator front).1 = []
  · simp [gap, split]
  · simp [gap, split]

private theorem pieces_free {piece : List Char} (free : separator ∉ piece) :
    pieces separator piece = (piece, []) := by
  induction piece with
  | nil => rfl
  | cons char rest ih =>
      have apart : ¬ char = separator := fun same => free (same ▸ List.mem_cons_self)
      simp [pieces, ih fun listed => free (List.mem_cons_of_mem _ listed), apart]

theorem split_free {piece : List Char} (free : separator ∉ piece) (nonempty : piece ≠ []) :
    split separator piece = [piece] := by
  simp [split, pieces_free separator free, nonempty]

/-- A piece is not empty and has no separator in it. -/
theorem mem_split (text : List Char) {piece : List Char} (member : piece ∈ split separator text) :
    piece ≠ [] ∧ separator ∉ piece := by
  have parts : separator ∉ (pieces separator text).1 ∧
      ∀ piece ∈ (pieces separator text).2, piece ≠ [] ∧ separator ∉ piece := by
    clear member
    induction text with
    | nil => simp [pieces]
    | cons char rest ih =>
        obtain ⟨free, behind⟩ := ih
        by_cases cut : char = separator
        · by_cases gap : (pieces separator rest).1 = []
          · simpa [pieces, cut, gap] using behind
          · simpa [pieces, cut, gap, free] using behind
        · have apart : ¬ separator = char := fun same => cut same.symm
          simpa [pieces, cut, apart, free] using behind
  unfold split at member
  by_cases gap : (pieces separator text).1 = []
  · simp only [gap, ↓reduceIte] at member
    exact parts.2 piece member
  · simp only [gap, ↓reduceIte, List.mem_cons] at member
    rcases member with rfl | listed
    · exact ⟨gap, parts.1⟩
    · exact parts.2 piece listed

/-- Paths that fold alike have pieces that fold alike, when no other letter folds
to the separator. -/
theorem split_congr {fold : Char → Char}
    (apart : ∀ char, fold char = fold separator → char = separator)
    {first second : List Char} (alike : first.map fold = second.map fold) :
    (split separator first).map (List.map fold) = (split separator second).map (List.map fold) := by
  have parts : (pieces separator first).1.map fold = (pieces separator second).1.map fold ∧
      (pieces separator first).2.map (List.map fold) =
        (pieces separator second).2.map (List.map fold) := by
    induction first generalizing second with
    | nil =>
        rw [List.map_nil] at alike
        rw [List.map_eq_nil_iff.mp alike.symm]
        exact ⟨rfl, rfl⟩
    | cons char rest ih =>
        obtain ⟨other, remaining, rfl, heads, tails⟩ := List.map_eq_cons_iff.mp alike.symm
        obtain ⟨inside, behind⟩ := ih tails.symm
        by_cases cut : char = separator
        · have otherCut : other = separator := apart other (heads.trans (by rw [cut]))
          have gaps : (pieces separator rest).1 = [] ↔ (pieces separator remaining).1 = [] := by
            rw [← List.map_eq_nil_iff (f := fold), inside, List.map_eq_nil_iff]
          by_cases gap : (pieces separator rest).1 = []
          · simp [pieces, cut, otherCut, gap, gaps.mp gap, behind]
          · simp [pieces, cut, otherCut, gap, mt gaps.mpr gap, behind, inside]
        · have otherApart : ¬ other = separator := by
            intro same
            exact cut (apart char (heads.symm.trans (by rw [same])))
          simp [pieces, cut, otherApart, inside, behind, heads]
  have gaps : (pieces separator first).1 = [] ↔ (pieces separator second).1 = [] := by
    rw [← List.map_eq_nil_iff (f := fold), parts.1, List.map_eq_nil_iff]
  unfold split
  by_cases gap : (pieces separator first).1 = []
  · simp [gap, gaps.mp gap, parts.2]
  · simp [gap, mt gaps.mpr gap, parts.1, parts.2]

end Split

namespace RangerPathResourceMatcher

section Ancestors

variable (separator : Char)

theorem mem_builtPaths {built path : List Char} {elements : List (List Char)}
    (member : path ∈ builtPaths separator built elements) :
    ∃ front last back, elements = front ++ last :: back ∧
      path = built ++ front.flatMap (· ++ [separator]) ++ last := by
  induction elements generalizing built with
  | nil => cases member
  | cons element rest ih =>
      rcases List.mem_cons.mp member with rfl | behind
      · exact ⟨[], element, rest, rfl, by simp⟩
      · obtain ⟨front, last, back, rfl, rfl⟩ := ih behind
        exact ⟨element :: front, last, back, rfl, by simp⟩

theorem builtPaths_prefix (built : List Char) (front back : List (List Char)) :
    builtPaths separator built front ⊆ builtPaths separator built (front ++ back) := by
  induction front generalizing built with
  | nil => exact List.nil_subset _
  | cons element rest ih =>
      simp only [builtPaths, List.cons_append]
      exact List.cons_subset_cons _ (ih _)

private theorem split_join {front : List (List Char)} {last : List Char}
    (pieces : ∀ piece ∈ front ++ [last], piece ≠ [] ∧ separator ∉ piece) :
    split separator (front.flatMap (· ++ [separator]) ++ last) = front ++ [last] := by
  induction front with
  | nil =>
      obtain ⟨nonempty, free⟩ := pieces last (List.mem_singleton.mpr rfl)
      simp [split_free separator free nonempty]
  | cons element rest ih =>
      obtain ⟨nonempty, free⟩ := pieces element List.mem_cons_self
      have behind := ih fun piece listed => pieces piece (List.mem_cons_of_mem _ listed)
      have cut : (element :: rest).flatMap (· ++ [separator]) ++ last =
          element ++ separator :: (rest.flatMap (· ++ [separator]) ++ last) := by
        simp
      rw [cut, split_append, split_free separator free nonempty, behind]
      rfl

/-- The ancestors of an ancestor of a path are ancestors of the path. -/
theorem ancestorPaths_trans {path ancestor : List Char}
    (member : ancestor ∈ ancestorPaths separator path) :
    ancestorPaths separator ancestor ⊆ ancestorPaths separator path := by
  obtain ⟨front, last, back, elements, rfl⟩ := mem_builtPaths separator member
  have listed : ∀ piece ∈ front ++ [last], piece ≠ [] ∧ separator ∉ piece := by
    intro piece inside
    apply mem_split separator path
    rw [elements]
    simp only [List.mem_append, List.mem_cons] at inside ⊢
    tauto
  have joined := split_join separator listed
  have sameStart : initialSeparator separator
      (initialSeparator separator path ++ front.flatMap (· ++ [separator]) ++ last) =
        initialSeparator separator path := by
    by_cases rooted : path.head? = some separator
    · simp [initialSeparator, rooted]
    · have start : ∀ piece ∈ front ++ [last], piece.head? ≠ some separator := by
        intro piece inside first
        exact (listed piece inside).2 (List.mem_of_mem_head? first)
      cases front with
      | nil => simpa [initialSeparator, rooted] using start last (List.mem_singleton.mpr rfl)
      | cons element rest =>
          have first := start element List.mem_cons_self
          obtain ⟨char, remaining, rfl⟩ :=
            List.exists_cons_of_ne_nil (listed element List.mem_cons_self).1
          simpa [initialSeparator, rooted] using first
  have samePieces : split separator
      (initialSeparator separator path ++ front.flatMap (· ++ [separator]) ++ last) =
        front ++ [last] := by
    by_cases rooted : path.head? = some separator
    · have cut : initialSeparator separator path ++ front.flatMap (· ++ [separator]) ++ last =
          [] ++ separator :: (front.flatMap (· ++ [separator]) ++ last) := by
        simp [initialSeparator, rooted]
      rw [cut, split_append, joined]
      rfl
    · simpa [initialSeparator, rooted] using joined
  unfold ancestorPaths
  rw [sameStart, samePieces, elements]
  have regrouped : front ++ last :: back = (front ++ [last]) ++ back := by simp
  rw [regrouped]
  exact builtPaths_prefix separator _ _ _

/-- The ancestors of a path that ends with a separator are those of every path it begins. -/
theorem ancestorPaths_append {front : List Char} (closed : front.getLast? = some separator)
    (back : List Char) :
    ancestorPaths separator front ⊆ ancestorPaths separator (front ++ back) := by
  obtain ⟨stem, rfl⟩ := List.getLast?_eq_some_iff.mp closed
  have cut : stem ++ [separator] ++ back = stem ++ separator :: back := by simp
  have sameStart : initialSeparator separator (stem ++ separator :: back) =
      initialSeparator separator (stem ++ [separator]) := by
    cases stem <;> rfl
  unfold ancestorPaths
  rw [cut, sameStart, split_append, split_append]
  have none : split separator [] = [] := rfl
  rw [none, List.append_nil]
  exact builtPaths_prefix separator _ _ _

/-- A path has ancestors, itself among them, unless it has no pieces. -/
theorem split_ne_nil_of_mem {path ancestor : List Char}
    (member : ancestor ∈ ancestorPaths separator path) : split separator path ≠ [] := by
  intro empty
  rw [ancestorPaths, empty] at member
  cases member

theorem ancestorPaths_congr {fold : Char → Char}
    (apart : ∀ char, fold char = fold separator → char = separator) {first second : List Char}
    (alike : first.map fold = second.map fold) :
    (ancestorPaths separator first).map (List.map fold) =
      (ancestorPaths separator second).map (List.map fold) := by
  have built : ∀ (front back : List (List Char)) (left right : List Char),
      front.map (List.map fold) = back.map (List.map fold) → left.map fold = right.map fold →
      (builtPaths separator left front).map (List.map fold) =
        (builtPaths separator right back).map (List.map fold) := by
    intro front
    induction front with
    | nil =>
        intro back left right same _
        rw [List.map_nil] at same
        rw [List.map_eq_nil_iff.mp same.symm]
        rfl
    | cons element rest ih =>
        intro back left right same start
        obtain ⟨other, remaining, rfl, heads, tails⟩ := List.map_eq_cons_iff.mp same.symm
        simp only [builtPaths, List.map_cons, List.map_append, start, heads]
        rw [ih remaining _ (right ++ other ++ [separator]) tails.symm]
        simp only [List.map_append, start, heads]
  have sameStart : (initialSeparator separator first).map fold =
      (initialSeparator separator second).map fold := by
    have heads : first.head? = some separator ↔ second.head? = some separator := by
      cases first with
      | nil =>
          rw [List.map_nil] at alike
          rw [List.map_eq_nil_iff.mp alike.symm]
      | cons char rest =>
          obtain ⟨other, remaining, rfl, same, _⟩ := List.map_eq_cons_iff.mp alike.symm
          simp only [List.head?_cons, Option.some.injEq]
          constructor
          · intro first_cut
            exact apart other (same.trans (by rw [first_cut]))
          · intro second_cut
            exact apart char (same.symm.trans (by rw [second_cut]))
    unfold initialSeparator
    by_cases rooted : first.head? = some separator
    · rw [if_pos rooted, if_pos (heads.mp rooted)]
    · rw [if_neg rooted, if_neg (mt heads.mpr rooted)]
  exact built _ _ _ _ (split_congr separator apart alike) sameStart

end Ancestors

section Recursive

private theorem any_congr {α β : Type} {read : α → β} {test : α → Bool}
    (respects : ∀ first second, read first = read second → test first = test second)
    {firsts seconds : List α} (alike : firsts.map read = seconds.map read) :
    firsts.any test = seconds.any test := by
  induction firsts generalizing seconds with
  | nil =>
      rw [List.map_nil] at alike
      rw [List.map_eq_nil_iff.mp alike.symm]
  | cons first rest ih =>
      obtain ⟨second, remaining, rfl, heads, tails⟩ := List.map_eq_cons_iff.mp alike.symm
      rw [List.any_cons, List.any_cons, respects first second heads.symm, ih tails.symm]

variable {separator : Char} {fold : Char → Char} {wildcardPath : String}

/-- A path with pieces is matched by one of its ancestors. -/
theorem isRecursiveWildCardMatch_iff {path : List Char} (pieces : split separator path ≠ []) :
    isRecursiveWildCardMatch path wildcardPath separator fold = true ↔
      ∃ ancestor ∈ ancestorPaths separator path,
        wildcardMatch fold ancestor wildcardPath = true := by
  have nonempty : path ≠ [] := by
    rintro rfl
    exact pieces rfl
  unfold isRecursiveWildCardMatch
  rw [if_neg nonempty, if_neg pieces, List.any_eq_true]

/-- What matches a path recursively matches every path that has its ancestors. -/
theorem isRecursiveWildCardMatch_mono {path longer : List Char} (pieces : split separator path ≠ [])
    (ancestors : ancestorPaths separator path ⊆ ancestorPaths separator longer)
    (matched : isRecursiveWildCardMatch path wildcardPath separator fold = true) :
    isRecursiveWildCardMatch longer wildcardPath separator fold = true := by
  obtain ⟨ancestor, member, accepted⟩ := (isRecursiveWildCardMatch_iff pieces).mp matched
  have longerPieces := split_ne_nil_of_mem separator (ancestors member)
  exact (isRecursiveWildCardMatch_iff longerPieces).mpr ⟨ancestor, ancestors member, accepted⟩

theorem isRecursiveWildCardMatch_congr
    (apart : ∀ char, fold char = fold separator → char = separator) {first second : List Char}
    (alike : first.map fold = second.map fold) :
    isRecursiveWildCardMatch first wildcardPath separator fold =
      isRecursiveWildCardMatch second wildcardPath separator fold := by
  have nonempty : first = [] ↔ second = [] := by
    rw [← List.map_eq_nil_iff (f := fold), alike, List.map_eq_nil_iff]
  have pieces : split separator first = [] ↔ split separator second = [] := by
    rw [← List.map_eq_nil_iff (f := List.map fold), split_congr separator apart alike,
      List.map_eq_nil_iff]
  have ancestors : (ancestorPaths separator first).any (wildcardMatch fold · wildcardPath) =
      (ancestorPaths separator second).any (wildcardMatch fold · wildcardPath) :=
    any_congr (fun _ _ same => Glob.accepts_congr fold _ same)
      (ancestorPaths_congr separator apart alike)
  unfold isRecursiveWildCardMatch
  simp only [nonempty, pieces, ancestors]
  have whole : wildcardMatch fold first wildcardPath = wildcardMatch fold second wildcardPath :=
    Glob.accepts_congr fold _ alike
  rw [whole]

end Recursive

end RangerPathResourceMatcher

end Ranger

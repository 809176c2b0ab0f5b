import Mathlib.Algebra.GroupWithZero.Nat
import Mathlib.Data.List.DropRight
import Mathlib.Data.List.Infix

/-! # Splitting a text at a delimiter

A text is split at the places where a delimiter occurs, from the left, and no two of them
overlap. A piece can stand in front of a delimiter when the delimiter does not occur in the
two together before its end.
-/

namespace Foundation

universe u

variable {α : Type u}

section Split

variable [BEq α]

/-- Split behind `skip` characters, which belong to an occurrence of the delimiter. -/
def splitFrom (delimiter : List α) : Nat → List α → List (List α)
  | _, [] => [[]]
  | skip + 1, _ :: rest => splitFrom delimiter skip rest
  | 0, char :: rest =>
      if delimiter.isPrefixOf (char :: rest) then
        [] :: splitFrom delimiter (delimiter.length - 1) rest
      else (splitFrom delimiter 0 rest).modifyHead (char :: ·)

/-- The pieces of a text between the occurrences of a delimiter. -/
def splitAtText (delimiter text : List α) : List (List α) := splitFrom delimiter 0 text

/-- The tokens of a text; there are none in the empty one. -/
def tokensOf (delimiter text : List α) : List (List α) :=
  if text.isEmpty then [] else splitAtText delimiter text

end Split

/-- The delimiter occurs first at the end of the piece. -/
def Fits (delimiter piece : List α) : Prop := ¬delimiter <:+: piece ++ delimiter.dropLast

/-- The pieces of a text: all but the last one stand in front of a delimiter. -/
inductive Splits (delimiter : List α) : List α → List (List α) → Prop where
  | last {text : List α} : ¬delimiter <:+: text → Splits delimiter text [text]
  | cons {piece text : List α} {pieces : List (List α)} : Fits delimiter piece →
      Splits delimiter text pieces →
      Splits delimiter (piece ++ (delimiter ++ text)) (piece :: pieces)

variable {delimiter piece text : List α} {pieces : List (List α)}

theorem Fits.not_infix (fits : Fits delimiter piece) : ¬delimiter <:+: piece :=
  fun occurs => fits (occurs.trans (List.prefix_append _ _).isInfix)

theorem fits_nil (some : delimiter ≠ []) : Fits delimiter [] := by
  intro occurs
  have length := occurs.length_le
  rw [List.nil_append, List.length_dropLast] at length
  have positive := List.length_pos_iff.mpr some
  omega

theorem Fits.tail {char : α} (fits : Fits delimiter (char :: piece)) : Fits delimiter piece :=
  fun occurs => fits (occurs.trans (List.suffix_cons _ _).isInfix)

/-- The delimiter does not begin where it would overlap the one behind the piece. -/
theorem Fits.not_prefix {char : α} (fits : Fits delimiter (char :: piece)) (rest : List α) :
    ¬delimiter <+: char :: (piece ++ (delimiter ++ rest)) := by
  intro begins
  have within : (char :: piece) ++ delimiter.dropLast <+:
      char :: (piece ++ (delimiter ++ rest)) := by
    refine (List.prefix_append_right_inj (char :: piece)).mpr ?_
    exact (List.dropLast_prefix delimiter).trans (List.prefix_append _ _)
  refine fits (List.prefix_of_prefix_length_le begins within ?_).isInfix
  rw [List.length_append, List.length_dropLast, List.length_cons]
  omega

theorem fits_cons {char : α} (rest : List α) (fits : Fits delimiter piece)
    (begins : ¬delimiter <+: char :: (piece ++ (delimiter ++ rest))) :
    Fits delimiter (char :: piece) := by
  intro occurs
  obtain start | later := List.infix_cons_iff.mp occurs
  · refine begins (start.trans ((List.prefix_append_right_inj (char :: piece)).mpr ?_))
    exact (List.dropLast_prefix delimiter).trans (List.prefix_append _ _)
  · exact fits later

section Splits

theorem Splits.ne_nil (splits : Splits delimiter text pieces) : pieces ≠ [] := by
  cases splits with
  | last free => exact List.cons_ne_nil _ _
  | cons fits rest => exact List.cons_ne_nil _ _

/-- The delimiter joins the pieces to the text. -/
theorem Splits.intercalate (splits : Splits delimiter text pieces) :
    delimiter.intercalate pieces = text := by
  induction splits with
  | last free => exact List.intercalate_singleton
  | cons fits rest ih =>
      rw [List.intercalate_cons_of_ne_nil rest.ne_nil, ih, List.append_assoc]

theorem Splits.infix_of_mem (splits : Splits delimiter text pieces) :
    ∀ piece ∈ pieces, piece <:+: text := by
  induction splits with
  | last free => exact List.forall_mem_singleton.mpr List.infix_rfl
  | @cons piece text pieces fits rest ih =>
      refine List.forall_mem_cons.mpr ⟨(List.prefix_append _ _).isInfix, fun other member => ?_⟩
      refine (ih other member).trans (List.IsSuffix.isInfix ?_)
      rw [← List.append_assoc]
      exact List.suffix_append _ _

/-- The lengths of the pieces, each with a delimiter. -/
theorem Splits.length (splits : Splits delimiter text pieces) :
    (pieces.map fun piece => piece.length + delimiter.length).sum =
      text.length + delimiter.length := by
  induction splits with
  | last free => rfl
  | cons fits rest ih =>
      rw [List.map_cons, List.sum_cons, ih, List.length_append, List.length_append]
      omega

/-- What is behind a text changes the last piece only. -/
theorem Splits.append {last behind : List α} {others : List (List α)}
    (splits : Splits delimiter text pieces) (ends : pieces.getLast? = some last)
    (more : Splits delimiter (last ++ behind) others) :
    Splits delimiter (text ++ behind) (pieces.dropLast ++ others) := by
  induction splits with
  | last free =>
      cases ends
      exact more
  | @cons piece text pieces fits rest ih =>
      obtain ⟨next, pieces, rfl⟩ := List.exists_cons_of_ne_nil rest.ne_nil
      rw [List.getLast?_cons_cons] at ends
      rw [List.dropLast_cons_cons, List.append_assoc, List.append_assoc]
      exact .cons fits (ih ends)

/-- Pieces that are left of a text are the pieces of what joins them. -/
theorem Splits.sublist {kept : List (List α)} (splits : Splits delimiter text pieces)
    (sublist : kept.Sublist pieces) (some : kept ≠ []) :
    Splits delimiter (delimiter.intercalate kept) kept := by
  induction splits generalizing kept with
  | last free =>
      obtain rfl := (List.sublist_singleton.mp sublist).resolve_left some
      rw [List.intercalate_singleton]
      exact .last free
  | cons fits rest ih =>
      cases sublist with
      | cons _ sublist => exact ih sublist some
      | @cons_cons kept _ _ sublist =>
          by_cases only : kept = []
          · rw [only, List.intercalate_singleton]
            exact .last fits.not_infix
          · rw [List.intercalate_cons_of_ne_nil only, List.append_assoc]
            exact .cons fits (ih sublist only)

theorem Splits.modifyHead {char : α} (splits : Splits delimiter text pieces)
    (begins : ¬delimiter <+: char :: text) :
    Splits delimiter (char :: text) (pieces.modifyHead (char :: ·)) := by
  cases splits with
  | last free => exact .last fun occurs => (List.infix_cons_iff.mp occurs).elim begins free
  | cons fits rest => exact .cons (fits_cons _ fits begins) rest

/-- Two members of a list have their sizes in the sum. -/
theorem add_le_sum_of_mem {β : Type u} (size : β → Nat) {items : List β} {first second : β}
    (memFirst : first ∈ items) (memSecond : second ∈ items) (apart : first ≠ second) :
    size first + size second ≤ (items.map size).sum := by
  have single : ∀ {items : List β} {item : β}, item ∈ items → size item ≤ (items.map size).sum := by
    intro items item member
    obtain ⟨before, behind, rfl⟩ := List.mem_iff_append.mp member
    rw [List.map_append, List.sum_append, List.map_cons, List.sum_cons]
    omega
  induction items with
  | nil => nomatch memFirst
  | cons item items ih =>
      rw [List.map_cons, List.sum_cons]
      obtain rfl | first := List.mem_cons.mp memFirst
      · have second := (List.mem_cons.mp memSecond).resolve_left fun same => apart same.symm
        exact Nat.add_le_add_left (single second) _
      · obtain rfl | second := List.mem_cons.mp memSecond
        · rw [Nat.add_comm]
          exact Nat.add_le_add_left (single first) _
        · exact Nat.le_trans (ih first second) (Nat.le_add_left _ _)

/-- A piece that does not fit is cut off before its end when a delimiter is put behind it, and
is then lost, or what is behind the delimiter is. -/
theorem Splits.of_not_fits {last behind : List α} {others : List (List α)}
    (splits : Splits delimiter (last ++ (delimiter ++ behind)) others)
    (overlaps : ¬Fits delimiter last) :
    ∃ first rest, others = first :: rest ∧ first <+: last ∧ first ≠ last ∧
      (last ∈ rest → behind ∈ rest → last = behind) := by
  have occurs := not_not.mp overlaps
  have within : last ++ delimiter.dropLast <+: last ++ (delimiter ++ behind) :=
    (List.prefix_append_right_inj last).mpr
      ((List.dropLast_prefix delimiter).trans (List.prefix_append _ _))
  generalize whole : last ++ (delimiter ++ behind) = text at splits within
  cases splits with
  | last free => exact absurd (occurs.trans within.isInfix) free
  | @cons first text rest fits more =>
      have shorter : first.length < last.length := by
        by_contra longer
        have inside : first ++ delimiter.dropLast <+: first ++ (delimiter ++ text) :=
          (List.prefix_append_right_inj first).mpr
            ((List.dropLast_prefix delimiter).trans (List.prefix_append _ _))
        refine fits (occurs.trans (List.prefix_of_prefix_length_le within inside ?_).isInfix)
        rw [List.length_append, List.length_append]
        omega
      refine ⟨first, rest, rfl, ?_, fun same => ?_, fun memLast memBehind => ?_⟩
      · have start : last <+: first ++ (delimiter ++ text) := whole ▸ List.prefix_append _ _
        exact List.prefix_of_prefix_length_le (List.prefix_append _ _) start (Nat.le_of_lt shorter)
      · exact absurd shorter (same ▸ Nat.lt_irrefl _)
      · by_contra apart
        have sizes := add_le_sum_of_mem (fun piece => piece.length + delimiter.length) memLast
          memBehind apart
        have lengths := congrArg List.length whole
        have positive : 0 < delimiter.length := by
          refine List.length_pos_iff.mpr fun empty => fits ?_
          rw [empty]
          exact List.nil_infix
        rw [more.length] at sizes
        simp only [List.length_append] at lengths
        omega

end Splits

section Split

variable [BEq α] [LawfulBEq α]

omit [LawfulBEq α] in
theorem splitFrom_length (delimiter passed rest : List α) :
    splitFrom delimiter passed.length (passed ++ rest) = splitFrom delimiter 0 rest := by
  induction passed with
  | nil => rfl
  | cons char passed ih => exact ih

theorem splitAtText_append_delimiter (some : delimiter ≠ []) (rest : List α) :
    splitAtText delimiter (delimiter ++ rest) = [] :: splitAtText delimiter rest := by
  obtain ⟨char, delimiter, rfl⟩ := List.exists_cons_of_ne_nil some
  have occurs : (char :: delimiter).isPrefixOf (char :: (delimiter ++ rest)) = true :=
    List.isPrefixOf_iff_prefix.mpr (List.prefix_append (char :: delimiter) rest)
  unfold splitAtText
  rw [List.cons_append, splitFrom, if_pos occurs, List.length_cons, Nat.add_sub_cancel,
    splitFrom_length]

theorem splitAtText_cons {char : α} {rest : List α} (begins : ¬delimiter <+: char :: rest) :
    splitAtText delimiter (char :: rest) =
      (splitAtText delimiter rest).modifyHead (char :: ·) := by
  unfold splitAtText
  rw [splitFrom, if_neg (mt List.isPrefixOf_iff_prefix.mp begins)]

/-- A text is split in one way. -/
theorem Splits.eq_splitAtText (some : delimiter ≠ []) (splits : Splits delimiter text pieces) :
    splitAtText delimiter text = pieces := by
  induction splits with
  | @last text free =>
      induction text with
      | nil => rfl
      | cons char text ih =>
          rw [List.infix_cons_iff, not_or] at free
          rw [splitAtText_cons free.1, ih free.2]
          rfl
  | @cons piece text pieces fits _ ih =>
      induction piece with
      | nil => rw [List.nil_append, splitAtText_append_delimiter some, ih]
      | cons char piece ihPiece =>
          rw [List.cons_append, splitAtText_cons (fits.not_prefix text), ihPiece fits.tail]
          rfl

theorem splits_splitAtText (some : delimiter ≠ []) (text : List α) :
    Splits delimiter text (splitAtText delimiter text) := by
  induction length : text.length using Nat.strongRecOn generalizing text with
  | ind size ih =>
      cases text with
      | nil => exact .last fun occurs => some (List.eq_nil_of_infix_nil occurs)
      | cons char rest =>
          by_cases begins : delimiter <+: char :: rest
          · obtain ⟨behind, whole⟩ := begins
            rw [← whole, splitAtText_append_delimiter some]
            refine Splits.cons (fits_nil some) (ih behind.length ?_ behind rfl)
            have positive := List.length_pos_iff.mpr some
            rw [← length, ← whole, List.length_append]
            omega
          · rw [splitAtText_cons begins]
            exact (ih rest.length (length ▸ Nat.lt_succ_self _) rest rfl).modifyHead begins

end Split

section Ends

variable {token : List α}

theorem dropWhile_isEmpty_eq_self_iff :
    pieces.dropWhile List.isEmpty = pieces ↔ pieces.head? ≠ some [] := by
  cases pieces with
  | nil => exact iff_of_true rfl nofun
  | cons piece pieces =>
      rw [List.dropWhile_eq_self_iff, List.head?_cons, ne_eq, Option.some.injEq,
        ← List.isEmpty_iff]
      exact ⟨fun full => full (Nat.succ_pos _), fun full _ => full⟩

theorem rdropWhile_isEmpty_eq_self_iff :
    pieces.rdropWhile List.isEmpty = pieces ↔ pieces.getLast? ≠ some [] := by
  have ends := @dropWhile_isEmpty_eq_self_iff _ pieces.reverse
  rw [List.head?_reverse] at ends
  rw [← ends, List.rdropWhile, ← List.reverse_inj, List.reverse_reverse]

variable [DecidableEq α]

/-- Without a token that is not empty, nothing is lost with the empty pieces at the ends exactly
when there are none. -/
theorem dropWhile_filter_rdropWhile_eq_iff :
    ((pieces.rdropWhile List.isEmpty).filter (· ≠ token)).dropWhile List.isEmpty =
        pieces.filter (· ≠ token) ↔
      token = [] ∨ pieces.getLast? ≠ some [] ∧ (pieces.filter (· ≠ token)).head? ≠ some [] := by
  have whole : pieces.filter (· ≠ token) = (pieces.rdropWhile List.isEmpty).filter (· ≠ token) ++
      (pieces.rtakeWhile List.isEmpty).filter (· ≠ token) := by
    rw [← List.filter_append, List.rdropWhile_append_rtakeWhile]
  have empties : ∀ piece ∈ pieces.rtakeWhile List.isEmpty, piece = [] := fun piece member =>
    List.isEmpty_iff.mp (List.mem_rtakeWhile_imp member)
  by_cases empty : token = []
  · refine iff_of_true ?_ (.inl empty)
    have none : (pieces.rtakeWhile List.isEmpty).filter (· ≠ token) = [] := by
      refine List.filter_eq_nil_iff.mpr fun piece member => ?_
      rw [empties piece member, empty]
      simp
    rw [whole, none, List.append_nil]
    refine dropWhile_isEmpty_eq_self_iff.mpr fun first => ?_
    have kept := (List.mem_filter.mp (List.mem_of_head? first)).2
    simp [empty] at kept
  · have all : (pieces.rtakeWhile List.isEmpty).filter (· ≠ token) =
        pieces.rtakeWhile List.isEmpty := by
      refine List.filter_eq_self.mpr fun piece member => ?_
      rw [empties piece member]
      exact decide_eq_true fun same => empty same.symm
    rw [or_iff_right empty, ← rdropWhile_isEmpty_eq_self_iff, ← dropWhile_isEmpty_eq_self_iff]
    constructor
    · intro same
      have short := (List.dropWhile_suffix (p := List.isEmpty)
        (l := (pieces.rdropWhile List.isEmpty).filter (· ≠ token))).length_le
      rw [same, whole, all, List.length_append] at short
      have last : pieces.rtakeWhile List.isEmpty = [] := List.length_eq_zero_iff.mp (by omega)
      have nothing : pieces.rdropWhile List.isEmpty = pieces := by
        have joined := List.rdropWhile_append_rtakeWhile (p := List.isEmpty) (l := pieces)
        rwa [last, List.append_nil] at joined
      rw [nothing] at same
      exact ⟨nothing, same⟩
    · rintro ⟨last, first⟩
      rw [last, first]

end Ends

end Foundation

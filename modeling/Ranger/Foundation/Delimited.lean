import Mathlib.Data.List.Infix

/-! # Texts with delimiters

What can be read back from a text put together from pieces. A piece is told from what
follows it by a delimiter it does not contain; a marker that occurs once, and cannot
overlap itself, tells what is before it from what is behind it.
-/

namespace Foundation.Delimited

universe u

variable {α : Type u}

/-- Pieces without the delimiter are determined by the text in which it ends them. -/
theorem append_cons_inj {delimiter : α} {first second rest others : List α}
    (fresh : delimiter ∉ first) (freshOther : delimiter ∉ second)
    (same : first ++ delimiter :: rest = second ++ delimiter :: others) :
    first = second ∧ rest = others := by
  induction first generalizing second with
  | nil =>
      cases second with
      | nil => exact ⟨rfl, (List.cons.inj same).2⟩
      | cons head tail =>
          have heads : delimiter = head := (List.cons.inj same).1
          exact absurd (heads ▸ List.mem_cons_self) freshOther
  | cons head tail ih =>
      cases second with
      | nil =>
          have heads : head = delimiter := (List.cons.inj same).1
          exact absurd (heads ▸ List.mem_cons_self) fresh
      | cons head' tail' =>
          obtain ⟨heads, tails⟩ := List.cons.inj same
          obtain ⟨pieces, behind⟩ := ih (fun member => fresh (List.mem_cons_of_mem _ member))
            (fun member => freshOther (List.mem_cons_of_mem _ member)) tails
          exact ⟨by rw [heads, pieces], behind⟩

/-- The same from the other end: the pieces behind the last delimiters. -/
theorem append_cons_inj_right {delimiter : α} {first second rest others : List α}
    (fresh : delimiter ∉ rest) (freshOther : delimiter ∉ others)
    (same : first ++ delimiter :: rest = second ++ delimiter :: others) :
    first = second ∧ rest = others := by
  have reversed := congrArg List.reverse same
  simp only [List.reverse_append, List.reverse_cons, List.append_assoc, List.singleton_append]
    at reversed
  obtain ⟨pieces, before⟩ := append_cons_inj (by rwa [List.mem_reverse])
    (by rwa [List.mem_reverse]) reversed
  exact ⟨List.reverse_injective before, List.reverse_injective pieces⟩

/-- Nothing but the whole of a marker is both its beginning and its end. -/
def Borderless (marker : List α) : Prop :=
  ∀ count, count < marker.length → 0 < count → ¬ marker.drop count <+: marker

section Marker

variable {marker first second rest others : List α}

/-- A marker does not begin again inside itself. -/
theorem Borderless.no_overlap (borderless : Borderless marker) {shift : List α}
    (moved : shift ≠ []) (same : marker ++ rest = shift ++ (marker ++ others)) :
    marker <+: shift := by
  rcases Nat.lt_or_ge shift.length marker.length with short | long
  · exfalso
    have begins : shift <+: marker :=
      List.prefix_of_prefix_length_le ⟨_, same.symm⟩ ⟨rest, rfl⟩ (Nat.le_of_lt short)
    obtain ⟨border, split⟩ := begins
    have dropped : marker.drop shift.length = border := by rw [← split, List.drop_left]
    have shorter : border.length ≤ marker.length := by
      rw [← split, List.length_append]
      exact Nat.le_add_left _ _
    refine borderless shift.length short (List.length_pos_iff.mpr moved) ?_
    rw [dropped]
    rw [← split, List.append_assoc, List.append_cancel_left_eq, split] at same
    exact List.prefix_of_prefix_length_le ⟨rest, same⟩ ⟨others, rfl⟩ shorter
  · exact List.prefix_of_prefix_length_le ⟨rest, rfl⟩ ⟨_, same.symm⟩ long

/-- **One occurrence.** A marker that occurs neither before nor behind itself occurs in no
other place. -/
theorem occurrence_unique (borderless : Borderless marker) (before : ¬ marker <:+: first)
    (behind : ¬ marker <:+: rest)
    (same : first ++ (marker ++ rest) = second ++ (marker ++ others)) :
    first = second ∧ rest = others := by
  have cut : first = second := by
    rcases List.append_eq_append_iff.mp same with ⟨shift, longer, tails⟩ | ⟨shift, longer, tails⟩
    · by_cases empty : shift = []
      · rw [longer, empty, List.append_nil]
      · -- the other occurrence is further behind
        obtain ⟨remaining, split⟩ := borderless.no_overlap empty tails
        rw [← split, List.append_assoc, List.append_cancel_left_eq] at tails
        exact absurd ⟨remaining, others, by rw [tails, List.append_assoc]⟩ behind
    · by_cases empty : shift = []
      · rw [longer, empty, List.append_nil]
      · have inside := borderless.no_overlap empty tails
        refine absurd (longer ▸ ?_) before
        exact inside.isInfix.trans (List.suffix_append _ _).isInfix
  rw [cut, List.append_cancel_left_eq, List.append_cancel_left_eq] at same
  exact ⟨cut, same⟩

/-- A marker does not reach over a character it does not contain. -/
theorem infix_append_cons {char : α} (foreign : char ∉ marker)
    (occurs : marker <:+: first ++ char :: rest) : marker <:+: first ∨ marker <:+: rest := by
  obtain ⟨before, behind, split⟩ := occurs
  rw [List.append_assoc] at split
  rcases List.append_eq_append_iff.mp split with ⟨shift, longer, tails⟩ | ⟨shift, longer, tails⟩
  · -- the marker begins within the first part
    rcases List.append_eq_append_iff.mp tails with ⟨more, inside, _⟩ | ⟨more, inside, outer⟩
    · refine Or.inl (longer ▸ inside ▸ ?_)
      exact (List.prefix_append _ _).isInfix.trans (List.suffix_append _ _).isInfix
    · cases more with
      | nil =>
          rw [List.append_nil] at inside
          exact Or.inl (longer ▸ inside ▸ (List.suffix_append _ _).isInfix)
      | cons head tail =>
          have heads : char = head := (List.cons.inj outer).1
          exact absurd (inside ▸ heads ▸ List.mem_append_right _ List.mem_cons_self) foreign
  · cases shift with
    | nil =>
        cases marker with
        | nil => exact Or.inl (List.nil_infix)
        | cons head tail =>
            have heads : char = head := (List.cons.inj tails).1
            exact absurd (heads ▸ List.mem_cons_self) foreign
    | cons head tail =>
        obtain ⟨_, remaining⟩ := List.cons.inj tails
        exact Or.inr ⟨tail, behind, by rw [remaining, List.append_assoc]; rfl⟩

end Marker

section Joined

variable {delimiter : α} {separator : List α}

/-- What follows the first of several joined pieces. -/
def behindFirst (separator : List α) : List (List α) → List α
  | [] => []
  | next :: rest => separator ++ separator.intercalate (next :: rest)

theorem intercalate_cons (separator piece : List α) (rest : List (List α)) :
    separator.intercalate (piece :: rest) = piece ++ behindFirst separator rest := by
  cases rest with
  | nil => rw [List.intercalate_singleton, behindFirst, List.append_nil]
  | cons next rest => rw [List.intercalate_cons_cons, behindFirst, List.append_assoc]

theorem behindFirst_cons (separator next : List α) (rest : List (List α)) :
    behindFirst separator (next :: rest) = separator ++ (next ++ behindFirst separator rest) :=
  congrArg (separator ++ ·) (intercalate_cons separator next rest)

/-- A piece without the first character of the separator is told from what follows it. -/
theorem behindFirst_inj {first second : List α} {rest others : List (List α)}
    (fresh : delimiter ∉ first) (freshOther : delimiter ∉ second)
    (same : first ++ behindFirst (delimiter :: separator) rest =
      second ++ behindFirst (delimiter :: separator) others) :
    first = second ∧ behindFirst (delimiter :: separator) rest =
      behindFirst (delimiter :: separator) others := by
  cases rest with
  | nil =>
      rw [behindFirst, List.append_nil] at same
      cases others with
      | nil => exact ⟨by rw [same, behindFirst, List.append_nil], rfl⟩
      | cons next others =>
          refine absurd ?_ fresh
          rw [same]
          exact List.mem_append_right _ List.mem_cons_self
  | cons next rest =>
      cases others with
      | nil =>
          refine absurd ?_ freshOther
          rw [behindFirst, behindFirst, List.append_nil] at same
          rw [← same]
          exact List.mem_append_right _ List.mem_cons_self
      | cons otherNext others =>
          obtain ⟨pieces, behind⟩ := append_cons_inj fresh freshOther same
          exact ⟨pieces, congrArg (delimiter :: ·) behind⟩

/-- **Joined pieces.** Non-empty pieces without the first character of a separator are
determined by the text in which the separator joins them. -/
theorem intercalate_inj {pieces others : List (List α)}
    (plain : ∀ piece ∈ pieces, piece ≠ [] ∧ delimiter ∉ piece)
    (plainOthers : ∀ piece ∈ others, piece ≠ [] ∧ delimiter ∉ piece)
    (same : (delimiter :: separator).intercalate pieces =
      (delimiter :: separator).intercalate others) : pieces = others := by
  induction pieces generalizing others with
  | nil =>
      cases others with
      | nil => rfl
      | cons other others =>
          rw [intercalate_cons, List.intercalate_nil, eq_comm, List.append_eq_nil_iff] at same
          exact absurd same.1 (plainOthers other List.mem_cons_self).1
  | cons first rest ih =>
      cases others with
      | nil =>
          rw [intercalate_cons, List.intercalate_nil, List.append_eq_nil_iff] at same
          exact absurd same.1 (plain first List.mem_cons_self).1
      | cons other others =>
          rw [intercalate_cons, intercalate_cons] at same
          obtain ⟨heads, tails⟩ := behindFirst_inj (plain first List.mem_cons_self).2
            (plainOthers other List.mem_cons_self).2 same
          have remaining : rest = others := by
            cases rest with
            | nil =>
                cases others with
                | nil => rfl
                | cons next others => cases tails
            | cons next rest =>
                cases others with
                | nil => cases tails
                | cons otherNext others =>
                    refine ih (fun piece member => plain piece (List.mem_cons_of_mem _ member))
                      (fun piece member => plainOthers piece (List.mem_cons_of_mem _ member)) ?_
                    exact List.append_cancel_left tails
          rw [heads, remaining]

/-- A text with several pieces has more delimiters than any of them. -/
theorem countP_lt_countP_intercalate {alike : α → Bool} (counts : alike delimiter = true)
    {pieces : List (List α)} (several : 2 ≤ pieces.length) {piece : List α}
    (member : piece ∈ pieces) :
    piece.countP alike < ([delimiter].intercalate pieces).countP alike := by
  have most : ∀ {pieces : List (List α)} {piece : List α}, piece ∈ pieces →
      piece.countP alike + (pieces.length - 1) ≤
        ([delimiter].intercalate pieces).countP alike := by
    intro pieces
    induction pieces with
    | nil => simp
    | cons first rest ih =>
        intro piece member
        cases rest with
        | nil => simp [List.mem_singleton.mp member]
        | cons second rest =>
            rw [List.intercalate_cons_cons, List.countP_append, List.countP_append,
              List.countP_singleton, if_pos counts]
            rcases List.mem_cons.mp member with rfl | later
            · have behind := ih (List.mem_cons_self (a := second))
              simp only [List.length_cons] at behind ⊢
              omega
            · have behind := ih later
              simp only [List.length_cons] at behind ⊢
              omega
  have bound := most member
  omega

end Joined

end Foundation.Delimited

import Ranger.Foundation.Delimited

/-! # Lines of a text

A text is read line by line: a line ends at a line feed, at a carriage return, at the two
together, or at the end of the text. A piece without either of the two is read back where
it was written.
-/

namespace Foundation

universe u

section Replace

variable {α : Type u} [BEq α]

/-- Replace a text at all places where it occurs, from the left. Behind an occurrence,
`skip` of its characters are left to be passed. -/
def replaceFrom (target replacement : List α) : Nat → List α → List α
  | _, [] => []
  | skip + 1, _ :: rest => replaceFrom target replacement skip rest
  | 0, char :: rest =>
      if target.isPrefixOf (char :: rest) then
        replacement ++ replaceFrom target replacement (target.length - 1) rest
      else char :: replaceFrom target replacement 0 rest

def replace (target replacement text : List α) : List α :=
  replaceFrom target replacement 0 text

theorem replaceFrom_length (target replacement passed rest : List α) :
    replaceFrom target replacement passed.length (passed ++ rest) =
      replaceFrom target replacement 0 rest := by
  induction passed with
  | nil => rfl
  | cons char passed ih => exact ih

variable [LawfulBEq α]

theorem replace_append_target {target : List α} (some : target ≠ []) (replacement rest : List α) :
    replace target replacement (target ++ rest) =
      replacement ++ replace target replacement rest := by
  obtain ⟨char, target, rfl⟩ := List.exists_cons_of_ne_nil some
  have occurs : (char :: target).isPrefixOf (char :: (target ++ rest)) = true :=
    List.isPrefixOf_iff_prefix.mpr (List.prefix_append (char :: target) rest)
  unfold replace
  rw [List.cons_append, replaceFrom, if_pos occurs, List.length_cons, Nat.add_sub_cancel,
    replaceFrom_length]

/-- A piece without the first character of the target is passed. -/
theorem replace_append {char : α} {target piece : List α} (free : char ∉ piece)
    (replacement rest : List α) :
    replace (char :: target) replacement (piece ++ rest) =
      piece ++ replace (char :: target) replacement rest := by
  induction piece with
  | nil => rfl
  | cons first piece ih =>
      rw [List.mem_cons, not_or] at free
      have apart : ¬(char :: target).isPrefixOf (first :: (piece ++ rest)) = true := by
        rw [List.isPrefixOf_iff_prefix, List.cons_prefix_cons]
        exact fun same => free.1 same.1
      have next := ih free.2
      unfold replace at next ⊢
      rw [List.cons_append, replaceFrom, if_neg apart, next, List.cons_append]

theorem replace_of_not_mem {char : α} {text : List α} (free : char ∉ text)
    (target replacement : List α) : replace (char :: target) replacement text = text := by
  have whole := @replace_append _ _ _ _ target _ free replacement []
  rwa [List.append_nil, show replace (char :: target) replacement [] = [] from rfl,
    List.append_nil] at whole

/-- In a text joined from pieces that the target cannot touch, the separators are replaced. -/
theorem replace_behindFirst {char : α} {target piece : List α} {pieces : List (List α)}
    (free : ∀ text ∈ piece :: pieces, char ∉ text) (replacement : List α) :
    replace (char :: target) replacement
        (piece ++ Delimited.behindFirst (char :: target) pieces) =
      piece ++ Delimited.behindFirst replacement pieces := by
  rw [replace_append (free piece List.mem_cons_self)]
  induction pieces generalizing piece with
  | nil => rfl
  | cons next pieces ih =>
      have others : ∀ text ∈ next :: pieces, char ∉ text := fun text member =>
        free text (List.mem_cons_of_mem _ member)
      rw [Delimited.behindFirst_cons, replace_append_target (List.cons_ne_nil _ _),
        replace_append (others next List.mem_cons_self), ih others, Delimited.behindFirst_cons]

end Replace

section Lines

/-- A character in front of the first line. -/
def consFirst (char : Char) : List (List Char) → List (List Char)
  | [] => [[char]]
  | line :: lines => (char :: line) :: lines

/-- The lines of a text. -/
def readLines : List Char → List (List Char)
  | [] => []
  | '\n' :: rest => [] :: readLines rest
  | '\r' :: '\n' :: rest => [] :: readLines rest
  | '\r' :: rest => [] :: readLines rest
  | char :: rest => consFirst char (readLines rest)

/-- A text on one line. -/
def OneLine (text : List Char) : Prop := '\n' ∉ text ∧ '\r' ∉ text

theorem oneLine_nil : OneLine [] := ⟨List.not_mem_nil, List.not_mem_nil⟩

theorem oneLine_cons {char : Char} {text : List Char} :
    OneLine (char :: text) ↔ (char ≠ '\n' ∧ char ≠ '\r') ∧ OneLine text := by
  unfold OneLine
  rw [List.mem_cons, List.mem_cons, not_or, not_or, and_and_and_comm, ne_comm, ne_comm (b := '\r')]

theorem oneLine_append {first second : List Char} :
    OneLine (first ++ second) ↔ OneLine first ∧ OneLine second := by
  unfold OneLine
  rw [List.mem_append, List.mem_append, not_or, not_or, and_and_and_comm]

theorem readLines_cons {char : Char} (plain : char ≠ '\n' ∧ char ≠ '\r') (rest : List Char) :
    readLines (char :: rest) = consFirst char (readLines rest) := by
  rw [readLines]
  · exact plain.1
  · exact fun _ return_ => absurd return_ plain.2
  · exact plain.2

/-- What ends a line, whatever follows. -/
def EndsLine (separator : List Char) : Prop :=
  ∀ rest, readLines (separator ++ rest) = [] :: readLines rest

/-- A piece is read back, and what follows it is left untouched. -/
theorem readLines_append {separator piece : List Char} (ends : EndsLine separator)
    (plain : OneLine piece) (rest : List Char) :
    readLines (piece ++ (separator ++ rest)) = piece :: readLines rest := by
  induction piece with
  | nil => exact ends rest
  | cons char piece ih =>
      obtain ⟨ordinary, plain⟩ := oneLine_cons.mp plain
      rw [List.cons_append, readLines_cons ordinary, ih plain, consFirst]

theorem oneLine_of_mem_readLines (text : List Char) : ∀ line ∈ readLines text, OneLine line := by
  fun_induction readLines text with
  | case1 => exact fun _ member => absurd member List.not_mem_nil
  | case2 rest ih => exact List.forall_mem_cons.mpr ⟨oneLine_nil, ih⟩
  | case3 rest ih => exact List.forall_mem_cons.mpr ⟨oneLine_nil, ih⟩
  | case4 rest _ ih => exact List.forall_mem_cons.mpr ⟨oneLine_nil, ih⟩
  | case5 char rest feed _ return_ ih =>
      unfold consFirst
      split
      · exact List.forall_mem_singleton.mpr (oneLine_cons.mpr ⟨⟨feed, return_⟩, oneLine_nil⟩)
      · next line lines read =>
          rw [read, List.forall_mem_cons] at ih
          exact List.forall_mem_cons.mpr ⟨oneLine_cons.mpr ⟨⟨feed, return_⟩, ih.1⟩, ih.2⟩

end Lines

end Foundation

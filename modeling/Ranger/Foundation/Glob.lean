import Mathlib.Data.List.Infix
import Mathlib.Data.Set.Insert

/-! # Glob patterns

Patterns over an arbitrary alphabet, made of literals, one-symbol wildcards and
wildcards for any word. Literals are compared after a folding of the alphabet,
so that a match may ignore distinctions such as letter case.
-/

namespace Foundation.Glob

universe u v

variable {α : Type u} {β : Type v} [DecidableEq β]

/-- One element of a pattern. -/
inductive Token (α : Type u) where
  | literal (symbol : α)
  | one
  | many
  deriving DecidableEq

/-- Whether a word matches a pattern, literals being compared through `fold`. -/
def accepts (fold : α → β) : List (Token α) → List α → Bool
  | [], word => word.isEmpty
  | .literal symbol :: rest, word =>
      match word with
      | [] => false
      | head :: tail => decide (fold symbol = fold head) && accepts fold rest tail
  | .one :: rest, word =>
      match word with
      | [] => false
      | _ :: tail => accepts fold rest tail
  | .many :: rest, word => word.tails.any (accepts fold rest)

/-- The words a pattern stands for. -/
def language (fold : α → β) : List (Token α) → Set (List α)
  | [] => {[]}
  | .literal symbol :: rest =>
      {word | ∃ head tail, word = head :: tail ∧ fold symbol = fold head ∧
        tail ∈ language fold rest}
  | .one :: rest => {word | ∃ head tail, word = head :: tail ∧ tail ∈ language fold rest}
  | .many :: rest => {word | ∃ skipped tail, word = skipped ++ tail ∧ tail ∈ language fold rest}

/-- The matcher decides the language of its pattern. -/
theorem accepts_iff_mem_language (fold : α → β) (pattern : List (Token α)) (word : List α) :
    accepts fold pattern word ↔ word ∈ language fold pattern := by
  induction pattern generalizing word with
  | nil => simp only [accepts, List.isEmpty_iff, language, Set.mem_singleton_iff]
  | cons token rest ih =>
      cases token with
      | literal symbol =>
          cases word with
          | nil => simp [accepts, language]
          | cons head tail => simp [accepts, language, ih]
      | one =>
          cases word with
          | nil => simp [accepts, language]
          | cons head tail => simp [accepts, language, ih]
      | many =>
          simp only [accepts, List.any_eq_true, List.mem_tails, ih, language, Set.mem_ofPred_eq]
          constructor
          · rintro ⟨tail, ⟨skipped, split⟩, member⟩
            exact ⟨skipped, tail, split.symm, member⟩
          · rintro ⟨skipped, tail, split, member⟩
            exact ⟨tail, ⟨skipped, split.symm⟩, member⟩

/-- Words that fold alike match the same patterns. -/
theorem accepts_congr (fold : α → β) (pattern : List (Token α)) {first second : List α}
    (same : first.map fold = second.map fold) :
    accepts fold pattern first = accepts fold pattern second := by
  have transfer : ∀ {first second : List α}, first.map fold = second.map fold →
      first ∈ language fold pattern → second ∈ language fold pattern := by
    induction pattern with
    | nil =>
        intro first second alike member
        simp only [language, Set.mem_singleton_iff] at member ⊢
        rw [member, List.map_nil] at alike
        exact List.map_eq_nil_iff.mp alike.symm
    | cons token rest ih =>
        intro first second alike member
        cases token with
        | literal symbol =>
            obtain ⟨head, tail, rfl, equal, inside⟩ := member
            obtain ⟨other, remaining, rfl, heads, tails⟩ := List.map_eq_cons_iff.mp alike.symm
            exact ⟨other, remaining, rfl, equal.trans heads.symm, ih tails.symm inside⟩
        | one =>
            obtain ⟨head, tail, rfl, inside⟩ := member
            obtain ⟨other, remaining, rfl, _, tails⟩ := List.map_eq_cons_iff.mp alike.symm
            exact ⟨other, remaining, rfl, ih tails.symm inside⟩
        | many =>
            obtain ⟨skipped, tail, rfl, inside⟩ := member
            rw [List.map_append] at alike
            obtain ⟨before, after, rfl, _, tails⟩ := List.map_eq_append_iff.mp alike.symm
            exact ⟨before, after, rfl, ih tails.symm inside⟩
  apply Bool.eq_iff_iff.mpr
  rw [accepts_iff_mem_language, accepts_iff_mem_language]
  exact ⟨transfer same, transfer same.symm⟩

/-- A pattern of literals matches the words that fold as its literals do. -/
theorem accepts_literals (fold : α → β) (symbols word : List α) :
    accepts fold (symbols.map .literal) word ↔ word.map fold = symbols.map fold := by
  induction symbols generalizing word with
  | nil => simp only [List.map_nil, accepts, List.isEmpty_iff, List.map_eq_nil_iff]
  | cons symbol rest ih =>
      cases word with
      | nil => simp [accepts]
      | cons head tail =>
          simp only [List.map_cons, accepts, Bool.and_eq_true, decide_eq_true_eq, ih,
            List.cons.injEq, eq_comm (a := fold symbol)]

/-- The element is a literal that folds to the symbol. -/
def Token.asks (fold : α → β) (folded : β) : Token α → Bool
  | .literal symbol => decide (fold symbol = folded)
  | .one => false
  | .many => false

/-- A word has the symbols its pattern asks for. -/
theorem countP_asks_le {fold : α → β} {folded : β} {pattern : List (Token α)} {word : List α}
    (member : word ∈ language fold pattern) :
    pattern.countP (Token.asks fold folded) ≤
      word.countP fun symbol => decide (fold symbol = folded) := by
  induction pattern generalizing word with
  | nil => exact Nat.zero_le _
  | cons token rest ih =>
      cases token with
      | literal symbol =>
          obtain ⟨head, tail, rfl, same, inside⟩ := member
          simp only [List.countP_cons, Token.asks, same]
          exact Nat.add_le_add_right (ih inside) _
      | one =>
          obtain ⟨head, tail, rfl, inside⟩ := member
          rw [List.countP_cons_of_neg Bool.false_ne_true, List.countP_cons]
          exact (ih inside).trans (Nat.le_add_right _ _)
      | many =>
          obtain ⟨skipped, tail, rfl, inside⟩ := member
          rw [List.countP_cons_of_neg Bool.false_ne_true, List.countP_append]
          exact (ih inside).trans (Nat.le_add_left _ _)

section Append

omit [DecidableEq β] in
theorem mem_language_append (fold : α → β) (first second : List (Token α)) (word : List α) :
    word ∈ language fold (first ++ second) ↔
      ∃ front back, word = front ++ back ∧ front ∈ language fold first ∧
        back ∈ language fold second := by
  induction first generalizing word with
  | nil => simp [language]
  | cons token rest ih =>
      cases token with
      | literal symbol =>
          simp only [List.cons_append, language, Set.mem_ofPred_eq, ih]
          constructor
          · rintro ⟨head, _, rfl, same, front, back, rfl, inside, behind⟩
            exact ⟨head :: front, back, rfl, ⟨head, front, rfl, same, inside⟩, behind⟩
          · rintro ⟨_, back, rfl, ⟨head, front, rfl, same, inside⟩, behind⟩
            exact ⟨head, front ++ back, rfl, same, front, back, rfl, inside, behind⟩
      | one =>
          simp only [List.cons_append, language, Set.mem_ofPred_eq, ih]
          constructor
          · rintro ⟨head, _, rfl, front, back, rfl, inside, behind⟩
            exact ⟨head :: front, back, rfl, ⟨head, front, rfl, inside⟩, behind⟩
          · rintro ⟨_, back, rfl, ⟨head, front, rfl, inside⟩, behind⟩
            exact ⟨head, front ++ back, rfl, front, back, rfl, inside, behind⟩
      | many =>
          simp only [List.cons_append, language, Set.mem_ofPred_eq, ih]
          constructor
          · rintro ⟨skipped, _, rfl, front, back, rfl, inside, behind⟩
            exact ⟨skipped ++ front, back, (List.append_assoc ..).symm,
              ⟨skipped, front, rfl, inside⟩, behind⟩
          · rintro ⟨_, back, rfl, ⟨skipped, front, rfl, inside⟩, behind⟩
            exact ⟨skipped, front ++ back, List.append_assoc .., front, back, rfl, inside, behind⟩

end Append

section Spelling

variable (star mark : α)

/-- The symbol a token is written with, given those for the wildcards. -/
def Token.spell : Token α → α
  | .literal symbol => symbol
  | .one => mark
  | .many => star

omit [DecidableEq β] in
/-- A pattern stands for its own spelling. -/
theorem spelling_mem_language (fold : α → β) (pattern : List (Token α)) :
    pattern.map (Token.spell star mark) ∈ language fold pattern := by
  induction pattern with
  | nil => rfl
  | cons token rest ih =>
      cases token with
      | literal symbol => exact ⟨symbol, _, rfl, rfl, ih⟩
      | one => exact ⟨mark, _, rfl, ih⟩
      | many => exact ⟨[star], _, rfl, ih⟩

omit [DecidableEq β] in
/-- **A pattern matched as a word.** When a general pattern accepts the spelling
of a special one, it accepts every word the special one stands for, as long as
its literals are not taken for wildcards and none of its one-symbol wildcards can
have met a wildcard for any word. -/
theorem language_subset_of_spelling {fold : α → β} {general : List (Token α)}
    (plain : ∀ symbol, .literal symbol ∈ general →
      fold symbol ≠ fold star ∧ fold symbol ≠ fold mark)
    {special : List (Token α)} (apart : .one ∉ general ∨ .many ∉ special)
    (spelled : special.map (Token.spell star mark) ∈ language fold general) :
    language fold special ⊆ language fold general := by
  intro word member
  induction general generalizing special word with
  | nil =>
      simp only [language, Set.mem_singleton_iff, List.map_eq_nil_iff] at spelled
      rwa [spelled] at member
  | cons token rest ih =>
      have plainRest : ∀ symbol, .literal symbol ∈ rest →
          fold symbol ≠ fold star ∧ fold symbol ≠ fold mark :=
        fun symbol listed => plain symbol (List.mem_cons_of_mem _ listed)
      have apartRest : ∀ skipped tail : List (Token α), special = skipped ++ tail →
          .one ∉ rest ∨ .many ∉ tail := by
        intro skipped tail split
        rcases apart with noOne | noMany
        · exact Or.inl fun listed => noOne (List.mem_cons_of_mem _ listed)
        · exact Or.inr fun listed =>
            noMany (split ▸ List.mem_append_right skipped listed)
      cases token with
      | literal symbol =>
          obtain ⟨_, _, spelling, same, tailSpelled⟩ := spelled
          obtain ⟨met, tail, rfl, rfl, rfl⟩ := List.map_eq_cons_iff.mp spelling
          obtain ⟨notStar, notMark⟩ := plain symbol List.mem_cons_self
          cases met with
          | literal other =>
              obtain ⟨head, remaining, rfl, alike, inside⟩ := member
              exact ⟨head, remaining, rfl, same.trans alike,
                ih plainRest (apartRest [.literal other] tail rfl) tailSpelled inside⟩
          | one => exact absurd same notMark
          | many => exact absurd same notStar
      | one =>
          obtain ⟨_, _, spelling, tailSpelled⟩ := spelled
          obtain ⟨met, tail, rfl, rfl, rfl⟩ := List.map_eq_cons_iff.mp spelling
          cases met with
          | literal other =>
              obtain ⟨head, remaining, rfl, _, inside⟩ := member
              exact ⟨head, remaining, rfl,
                ih plainRest (apartRest [.literal other] tail rfl) tailSpelled inside⟩
          | one =>
              obtain ⟨head, remaining, rfl, inside⟩ := member
              exact ⟨head, remaining, rfl,
                ih plainRest (apartRest [.one] tail rfl) tailSpelled inside⟩
          | many =>
              rcases apart with noOne | noMany
              · exact absurd List.mem_cons_self noOne
              · exact absurd List.mem_cons_self noMany
      | many =>
          obtain ⟨skippedSpelling, _, spelling, tailSpelled⟩ := spelled
          obtain ⟨skipped, tail, rfl, rfl, rfl⟩ := List.map_eq_append_iff.mp spelling
          obtain ⟨front, back, rfl, _, behind⟩ :=
            (mem_language_append fold skipped tail word).mp member
          exact ⟨front, back, rfl, ih plainRest (apartRest skipped tail rfl) tailSpelled behind⟩

end Spelling

end Foundation.Glob

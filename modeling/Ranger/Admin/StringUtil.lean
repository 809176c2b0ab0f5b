import Ranger.Foundation.Outcome
import Ranger.Foundation.Split
import Ranger.Platform

/-! # Splitting the components of a resource name

The old permission checks split a resource name and the stored lists of tables and columns at
a separator, and go by the length of the array they get. The array has a place for every piece
the platform's split finds, and the pieces that are not blank are put in front: a blank piece
leaves a null at the end. A separator in front of the value is dropped, or its first unit only.
-/

namespace Ranger

open Foundation

namespace StringUtil

/-- A Java string, as its 16-bit units. -/
abbrev Units := List Nat

/-- The units of a text. -/
def unitsOf (text : String) : Units := text.toList.flatMap codeUnits

/-- What `String.split` makes of a text at a regular expression, or its failure. -/
abbrev PatternSplit := Units → Units → Except String (List Units)

/-- `String.trim`. -/
def trimUnits (text : Units) : Units :=
  let dropBlanks := List.dropWhile fun unit : Nat => unit ≤ 32
  (dropBlanks (dropBlanks text).reverse).reverse

section Split

variable (patternSplit : PatternSplit) (delimiter value : Units)

/-- The value without a separator in front, of which one unit is dropped. -/
def withoutLeading : Except String Units :=
  if delimiter.isPrefixOf value then
    match value with
    | [] => .error "String index out of range: -1"
    | _ :: rest => .ok rest
  else .ok value

/-- One turn of the loop that fills the array: the place of the last piece, and the array. -/
def fillNext : Int × List (Option Units) → Units → Int × List (Option Units)
  | (c, returnValues), piece =>
      let str := trimUnits piece
      if 0 < str.length then (c + 1, returnValues.set (c + 1).toNat (some str))
      else (c, returnValues)

/-- The array for the pieces, which starts with nulls only. -/
def fill (splitValues : List Units) : List (Option Units) :=
  (splitValues.foldl fillNext (-1, List.replicate splitValues.length none)).2

/-- `split`, with the array it returns. -/
def split : Option Units → Except String (List (Option Units))
  | none => .ok []
  | some value => do
      let value ← withoutLeading delimiter value
      let splitValues ← patternSplit delimiter value
      return fill splitValues

end Split

section Pieces

/-- The pieces between the separators, taken literally. Between empty separators each unit is a
piece. -/
def literalPieces (delimiter value : Units) : List Units :=
  if delimiter = [] then value.map ([·]) else splitAtText delimiter value

/-- The trimmed pieces that are not empty. -/
def trimmed (pieces : List Units) : List Units := (pieces.map trimUnits).filter (· ≠ [])

/-- The components of a value. -/
def components (delimiter value : Units) : List Units := trimmed (literalPieces delimiter value)

/-- The units with a meaning in regular expressions, and the surrogates. -/
def isSpecial (unit : Nat) : Bool :=
  unit ∈ unitsOf "\\^$.|?*+()[]\x7b\x7d" || (0xD800 ≤ unit && unit ≤ 0xDFFF)

/-- The separator stands for itself as a regular expression. -/
def Plain (delimiter : Units) : Prop := delimiter ≠ [] ∧ ∀ unit ∈ delimiter, isSpecial unit = false

instance (delimiter : Units) : Decidable (Plain delimiter) :=
  inferInstanceAs (Decidable (_ ∧ _))

/-- The pieces `String.split` gives for such a separator: no empty one is last, unless it is the
only one. -/
def plainPieces (delimiter value : Units) : List Units :=
  let pieces := splitAtText delimiter value
  if pieces.length = 1 then [value] else pieces.rdropWhile List.isEmpty

end Pieces

section Fill

theorem trimmed_cons (piece : Units) (pieces : List Units) :
    trimmed (piece :: pieces) =
      if 0 < (trimUnits piece).length then trimUnits piece :: trimmed pieces
      else trimmed pieces := by
  by_cases blank : trimUnits piece = []
  · rw [trimmed, List.map_cons, List.filter_cons_of_neg (by simpa using blank), blank]
    rfl
  · rw [trimmed, List.map_cons, List.filter_cons_of_pos (by simpa using blank),
      if_pos (List.length_pos_iff.mpr blank)]
    rfl

theorem length_trimmed_le (pieces : List Units) : (trimmed pieces).length ≤ pieces.length := by
  have filtered := List.length_filter_le (fun piece : Units => decide (piece ≠ []))
    (pieces.map trimUnits)
  rwa [List.length_map] at filtered

/-- The loop puts the pieces that are not blank behind those already there. -/
theorem foldl_fillNext (pieces placed : List Units) (room : Nat) (enough : pieces.length ≤ room) :
    (pieces.foldl fillNext
        ((placed.length : Int) - 1, placed.map some ++ List.replicate room none)).2 =
      (placed ++ trimmed pieces).map some ++
        List.replicate (room - (trimmed pieces).length) none := by
  induction pieces generalizing placed room with
  | nil =>
      change _ = (placed ++ []).map some ++ List.replicate (room - 0) none
      rw [List.append_nil]
      rfl
  | cons piece pieces ih =>
      obtain ⟨room, rfl⟩ : ∃ left, room = left + 1 :=
        Nat.exists_eq_add_of_le' (Nat.le_trans (Nat.succ_pos _) enough)
      have enough := Nat.le_of_succ_le_succ enough
      rw [List.foldl_cons, trimmed_cons]
      by_cases full : 0 < (trimUnits piece).length
      · have put : fillNext ((placed.length : Int) - 1,
            placed.map some ++ List.replicate (room + 1) none) piece =
          (((placed ++ [trimUnits piece]).length : Int) - 1,
            (placed ++ [trimUnits piece]).map some ++ List.replicate room none) := by
          have place : ((placed.length : Int) - 1 + 1).toNat = (placed.map some).length := by
            rw [List.length_map]
            omega
          rw [fillNext, if_pos full, place, List.replicate_succ, List.set_append_right _ _ le_rfl,
            Nat.sub_self, List.set_cons_zero, List.map_append, List.append_assoc,
            List.length_append, List.length_singleton]
          refine Prod.ext ?_ rfl
          change (placed.length : Int) - 1 + 1 = ((placed.length + 1 : Nat) : Int) - 1
          omega
        rw [put, ih _ room enough, if_pos full, List.append_assoc, List.singleton_append,
          List.length_cons, Nat.add_sub_add_right]
      · have skip : ∀ filled, fillNext filled piece = filled := fun filled => if_neg full
        rw [skip, if_neg full, ih placed (room + 1) (Nat.le_succ_of_le enough)]

/-- The array has the pieces that are not blank in front, and a null for each blank one. -/
theorem fill_eq (pieces : List Units) :
    fill pieces = (trimmed pieces).map some ++
      List.replicate (pieces.length - (trimmed pieces).length) none :=
  foldl_fillNext pieces [] pieces.length le_rfl

theorem length_trimmed_iff (pieces : List Units) :
    (trimmed pieces).length = pieces.length ↔ ∀ piece ∈ pieces, trimUnits piece ≠ [] := by
  have kept := List.length_filter_eq_length_iff (p := fun piece : Units => decide (piece ≠ []))
    (l := pieces.map trimUnits)
  rw [List.length_map, List.forall_mem_map] at kept
  rw [trimmed, kept]
  exact forall₂_congr fun piece _ => decide_eq_true_iff

/-- The array has no null exactly when no piece is blank. -/
theorem fill_eq_iff (pieces parts : List Units) :
    fill pieces = parts.map some ↔
      trimmed pieces = parts ∧ ∀ piece ∈ pieces, trimUnits piece ≠ [] := by
  rw [fill_eq, ← length_trimmed_iff]
  constructor
  · intro same
    have full : pieces.length - (trimmed pieces).length = 0 := by
      by_contra room
      have null : none ∈ parts.map some := by
        rw [← same]
        exact List.mem_append_right _ (List.mem_replicate.mpr ⟨room, rfl⟩)
      obtain ⟨_, -, absurd⟩ := List.mem_map.mp null
      cases absurd
    have short := length_trimmed_le pieces
    rw [full, List.replicate_zero, List.append_nil] at same
    exact ⟨List.map_injective_iff.mpr (fun _ _ => Option.some.inj) same, by omega⟩
  · rintro ⟨rfl, full⟩
    rw [full, Nat.sub_self, List.replicate_zero, List.append_nil]

end Fill

section Leading

variable {delimiter value : Units}

/-- What the split works on when the separator is not empty. -/
def behindLeading (delimiter value : Units) : Units :=
  if delimiter.isPrefixOf value then value.tail else value

theorem withoutLeading_eq (some : delimiter ≠ []) (value : Units) :
    withoutLeading delimiter value = .ok (behindLeading delimiter value) := by
  unfold withoutLeading behindLeading
  split
  case isFalse => rfl
  case isTrue leads =>
    cases value with
    | nil => exact absurd (List.prefix_nil.mp (List.isPrefixOf_iff_prefix.mp leads)) some
    | cons unit rest => rfl

theorem components_eq (some : delimiter ≠ []) (value : Units) :
    components delimiter value = trimmed (splitAtText delimiter value) := by
  rw [components, literalPieces, if_neg some]

/-- A separator of one unit is dropped whole. -/
theorem components_behindLeading_singleton (unit : Nat) (value : Units) :
    components [unit] (behindLeading [unit] value) = components [unit] value := by
  unfold behindLeading
  split
  case isFalse => rfl
  case isTrue leads =>
    obtain ⟨rest, rfl⟩ := List.isPrefixOf_iff_prefix.mp leads
    rw [components_eq (List.cons_ne_nil _ _), components_eq (List.cons_ne_nil _ _),
      splitAtText_append_delimiter (List.cons_ne_nil _ _), trimmed_cons]
    rfl

/-- Empty pieces at the end are no components. -/
theorem trimmed_rdropWhile (pieces : List Units) :
    trimmed (pieces.rdropWhile List.isEmpty) = trimmed pieces := by
  have blank : trimmed (pieces.rtakeWhile List.isEmpty) = [] := by
    refine List.filter_eq_nil_iff.mpr (List.forall_mem_map.mpr fun piece member => ?_)
    rw [List.isEmpty_iff.mp (List.mem_rtakeWhile_imp member)]
    exact Bool.false_ne_true
  have whole : trimmed (pieces.rdropWhile List.isEmpty ++ pieces.rtakeWhile List.isEmpty) =
      trimmed (pieces.rdropWhile List.isEmpty) ++ trimmed (pieces.rtakeWhile List.isEmpty) := by
    unfold trimmed
    rw [List.map_append, List.filter_append]
  rw [List.rdropWhile_append_rtakeWhile, blank, List.append_nil] at whole
  exact whole.symm

theorem plainPieces_of_ne_nil (some : delimiter ≠ []) (more : value ≠ []) :
    plainPieces delimiter value = (splitAtText delimiter value).rdropWhile List.isEmpty := by
  change (if (splitAtText delimiter value).length = 1 then [value] else _) = _
  split
  case isFalse => rfl
  case isTrue single =>
    obtain ⟨piece, only⟩ := List.length_eq_one_iff.mp single
    have joined := (splits_splitAtText some value).intercalate
    rw [only, List.intercalate_singleton] at joined
    rw [only, joined, List.rdropWhile_singleton, if_neg (mt List.isEmpty_iff.mp more)]

end Leading

section Exact

variable (patternSplit : PatternSplit) (delimiter value : Units)

/-- No piece the split works with is blank, but for empty ones that it drops at the end, and
the components are those of the whole value. -/
structure PlainSplit : Prop where
  nonempty : behindLeading delimiter value ≠ []
  full : ∀ piece ∈ (splitAtText delimiter (behindLeading delimiter value)).rdropWhile List.isEmpty,
    trimUnits piece ≠ []
  leading : components delimiter (behindLeading delimiter value) = components delimiter value

/-- A separator with a meaning in regular expressions splits the value into pieces that are not
blank, and where it stands literally. -/
def PatternSplits : Prop :=
  ∃ rest pieces, withoutLeading delimiter value = .ok rest ∧
    patternSplit delimiter rest = .ok pieces ∧ (∀ piece ∈ pieces, trimUnits piece ≠ []) ∧
    trimmed pieces = components delimiter value

theorem plainPieces_iff (rest : Units) (some : delimiter ≠ []) (parts : List Units) :
    (trimmed (plainPieces delimiter rest) = parts ∧
        ∀ piece ∈ plainPieces delimiter rest, trimUnits piece ≠ []) ↔
      rest ≠ [] ∧ (∀ piece ∈ (splitAtText delimiter rest).rdropWhile List.isEmpty,
        trimUnits piece ≠ []) ∧ components delimiter rest = parts := by
  by_cases empty : rest = []
  · refine iff_of_false (fun exact => ?_) fun exact => exact.1 empty
    rw [empty] at exact
    exact exact.2 [] List.mem_cons_self rfl
  · rw [plainPieces_of_ne_nil some empty, trimmed_rdropWhile, components_eq some]
    exact ⟨fun exact => ⟨empty, exact.2, exact.1⟩, fun exact => ⟨exact.2.2, exact.2.1⟩⟩

variable (reads : ∀ delimiter text, Plain delimiter →
  patternSplit delimiter text = .ok (plainPieces delimiter text))

include reads in
theorem split_plain_iff (plain : Plain delimiter) :
    split patternSplit delimiter (some value) = .ok ((components delimiter value).map some) ↔
      PlainSplit delimiter value := by
  have filled : split patternSplit delimiter (some value) =
      .ok (fill (plainPieces delimiter (behindLeading delimiter value))) := by
    rw [split, withoutLeading_eq plain.1]
    exact Outcome.bind_eq_ok.mpr ⟨_, rfl, Outcome.bind_eq_ok.mpr ⟨_, reads _ _ plain, rfl⟩⟩
  rw [filled, Except.ok.injEq, fill_eq_iff, plainPieces_iff _ _ plain.1]
  exact ⟨fun exact => ⟨exact.1, exact.2.1, exact.2.2⟩,
    fun exact => ⟨exact.nonempty, exact.full, exact.leading⟩⟩

include reads in
/-- With a separator of one unit, as the callers pass it, only blank pieces go wrong. -/
theorem split_singleton_iff (unit : Nat) (ordinary : isSpecial unit = false) :
    split patternSplit [unit] (some value) = .ok ((components [unit] value).map some) ↔
      behindLeading [unit] value ≠ [] ∧
        ∀ piece ∈ (splitAtText [unit] (behindLeading [unit] value)).rdropWhile List.isEmpty,
          trimUnits piece ≠ [] := by
  have plain : Plain [unit] := ⟨List.cons_ne_nil _ _, List.forall_mem_singleton.mpr ordinary⟩
  rw [split_plain_iff patternSplit [unit] value reads plain]
  exact ⟨fun exact => ⟨exact.nonempty, exact.full⟩,
    fun exact => ⟨exact.1, exact.2, components_behindLeading_singleton unit value⟩⟩

include reads in
/-- The array has the components of the value, and nothing else, exactly when the pieces are
not blank and stand where the separator does. -/
theorem split_eq_components_iff :
    split patternSplit delimiter (some value) = .ok ((components delimiter value).map some) ↔
      if Plain delimiter then PlainSplit delimiter value
      else PatternSplits patternSplit delimiter value := by
  split_ifs with plain
  · exact split_plain_iff patternSplit delimiter value reads plain
  · constructor
    · intro exact
      obtain ⟨rest, led, cut⟩ := Outcome.bind_eq_ok.mp exact
      obtain ⟨pieces, read, filled⟩ := Outcome.bind_eq_ok.mp cut
      obtain ⟨same, full⟩ := (fill_eq_iff _ _).mp (Except.ok.inj filled)
      exact ⟨rest, pieces, led, read, full, same⟩
    · rintro ⟨rest, pieces, led, read, full, same⟩
      refine Outcome.bind_eq_ok.mpr ⟨rest, led, Outcome.bind_eq_ok.mpr ⟨pieces, read, ?_⟩⟩
      exact congrArg Except.ok ((fill_eq_iff _ _).mpr ⟨same, full⟩)

/-- `String.split` for separators that stand for themselves. -/
def splitPlain : PatternSplit := fun delimiter text => .ok (plainPieces delimiter text)

/-- A table and a column family. -/
theorem split_table_family :
    split splitPlain (unitsOf "/") (some (unitsOf "/t1/ cf ")) =
      .ok [some (unitsOf "t1"), some (unitsOf "cf")] :=
  (split_eq_components_iff splitPlain (unitsOf "/") (unitsOf "/t1/ cf ")
    fun _ _ _ => rfl).mpr (by
      rw [if_pos (by decide)]
      exact ⟨by decide, by decide, by decide⟩)

/-- An empty piece leaves a null behind the others. -/
theorem split_empty_piece :
    split splitPlain (unitsOf ",") (some (unitsOf "a,,b")) =
        .ok [some (unitsOf "a"), some (unitsOf "b"), none] ∧
      split splitPlain (unitsOf ",") (some (unitsOf "a,,b")) ≠
        .ok ((components (unitsOf ",") (unitsOf "a,,b")).map some) :=
  ⟨by decide, by decide⟩

end Exact

end StringUtil

end Ranger

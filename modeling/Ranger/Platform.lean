import Mathlib.Data.List.Basic
import Mathlib.Data.List.Lex
import Mathlib.Data.List.Perm.Basic

/-! # Strings and hash collections of the Java platform

What the program takes from the Java runtime and the Commons libraries about
strings. The tables the runtime consults (letter case, regular expressions,
digests, the order in which a hash collection is iterated, the rounding of
quotients) are left open: every result holds for whatever they contain.
-/

namespace Ranger

/-- The tables of the runtime. -/
class Platform where
  /-- `Character.toUpperCase`. -/
  toUpperCase : Char → Char
  /-- `Character.toLowerCase`. -/
  toLowerCase : Char → Char
  /-- `String.toLowerCase`. -/
  lowerCase : String → String
  /-- `String.matches`, from the text and the regular expression. -/
  matchesRegEx : String → String → Bool
  /-- `DigestUtils.md5Hex`. -/
  md5Hex : String → String
  /-- The order in which a hash collection holding these strings is iterated. -/
  hashOrder : List String → List String
  /-- `Math.round` of a `float` quotient. -/
  roundQuotient : Nat → Nat → Int
  hashOrder_perm : ∀ names, (hashOrder names).Perm names
  /-- The asterisk has no case variants. -/
  eq_asterisk : ∀ char, toLowerCase (toUpperCase char) = toLowerCase (toUpperCase '*') → char = '*'
  /-- The question mark has no case variants. -/
  eq_question_mark :
    ∀ char, toLowerCase (toUpperCase char) = toLowerCase (toUpperCase '?') → char = '?'

theorem eq_of_toLower {char target : Char} (low : target.toNat < 97)
    (same : char.toLower = target) : char = target := by
  unfold Char.toLower at same
  split at same
  · next letter =>
      subst same
      have bounds : 65 ≤ char.val.toNat ∧ char.val.toNat ≤ 90 := letter
      have sum : (char.val + ('a'.val - 'A'.val)).toNat = char.val.toNat + 32 := by
        have distance : ('a'.val - 'A'.val).toNat = 32 := rfl
        rw [UInt32.toNat_add, distance]
        omega
      have small : (char.val + ('a'.val - 'A'.val)).toNat < 97 := low
      omega
  · exact same

theorem toLower_toLower (char : Char) : char.toLower.toLower = char.toLower := by
  have small : ¬(65 ≤ char.toLower.val.toNat ∧ char.toLower.val.toNat ≤ 90) := by
    unfold Char.toLower
    split
    · next letter =>
        have bounds : 65 ≤ char.val.toNat ∧ char.val.toNat ≤ 90 := letter
        have distance : ('a'.val - 'A'.val).toNat = 32 := rfl
        change ¬(65 ≤ (char.val + ('a'.val - 'A'.val)).toNat ∧ _)
        rw [UInt32.toNat_add, distance]
        omega
    · next other => exact other
  exact dif_neg small

theorem toNat_capital {char : Char} (letter : 97 ≤ char.val.toNat ∧ char.val.toNat ≤ 122) :
    (char.val + ('A'.val - 'a'.val)).toNat = char.val.toNat - 32 := by
  have distance : ('A'.val - 'a'.val).toNat = 4294967264 := rfl
  rw [UInt32.toNat_add, distance]
  omega

theorem eq_of_toUpper {char target : Char} (low : target.toNat < 65)
    (same : char.toUpper = target) : char = target := by
  unfold Char.toUpper at same
  split at same
  · next letter =>
      subst same
      have bounds : 97 ≤ char.val.toNat ∧ char.val.toNat ≤ 122 := letter
      have difference := toNat_capital bounds
      have small : (char.val + ('A'.val - 'a'.val)).toNat < 65 := low
      omega
  · exact same

theorem toUpper_toUpper (char : Char) : char.toUpper.toUpper = char.toUpper := by
  have capital : ¬ (97 ≤ char.toUpper.val.toNat ∧ char.toUpper.val.toNat ≤ 122) := by
    unfold Char.toUpper
    split
    · next letter =>
        have bounds : 97 ≤ char.val.toNat ∧ char.val.toNat ≤ 122 := letter
        have difference := toNat_capital bounds
        change ¬ (97 ≤ (char.val + ('A'.val - 'a'.val)).toNat ∧ _)
        omega
    · next other => exact other
  exact dif_neg capital

/-- Tables for ASCII text: letter case of the Latin letters, insertion order for
hash collections, digests that tell all texts apart, and quotients rounded half up. -/
@[reducible] def Platform.ascii : Platform where
  toUpperCase := Char.toUpper
  toLowerCase := Char.toLower
  lowerCase text := String.ofList (text.toList.map Char.toLower)
  matchesRegEx text regEx := text == regEx
  md5Hex := id
  hashOrder := id
  roundQuotient numerator denominator :=
    if denominator = 0 then if numerator = 0 then 0 else 2147483647
    else (2 * numerator + denominator) / (2 * denominator)
  hashOrder_perm _ := List.Perm.refl _
  eq_asterisk _ same := eq_of_toUpper (by decide) (eq_of_toLower (by decide) same)
  eq_question_mark _ same := eq_of_toUpper (by decide) (eq_of_toLower (by decide) same)

/-- `Character.isWhitespace`: the separators other than the non-breaking ones,
and the control characters that separate text. -/
def isWhitespace (char : Char) : Bool :=
  let code := char.toNat
  (9 ≤ code && code ≤ 13) || (28 ≤ code && code ≤ 32) || code == 0x1680 ||
    (0x2000 ≤ code && code ≤ 0x200A && code != 0x2007) || code == 0x2028 || code == 0x2029 ||
    code == 0x205F || code == 0x3000

/-- `StringUtils.isBlank`; the empty string also stands for a missing one. -/
def isBlank (text : String) : Bool := text.toList.all isWhitespace

/-- `StringUtils.isEmpty` on a string that may be missing. -/
def isEmptyValue : Option String → Bool
  | none => true
  | some text => text.isEmpty

/-- The successor of an `int`. -/
def intSucc (count : Int) : Int := Int.bmod (count + 1) 4294967296

/-- `StringUtils.containsOnly` with a single valid character. -/
def containsOnly (text : String) (valid : Char) : Bool := text.toList.all (· == valid)

/-- `String.trim`: the characters up to the space go at both ends. -/
def trim (text : String) : String :=
  let dropBlanks := List.dropWhile fun char : Char => char.toNat ≤ 32
  String.ofList (dropBlanks (dropBlanks text.toList).reverse).reverse

/-- The 16-bit units of a character. -/
def codeUnits (char : Char) : List Nat :=
  let code := char.toNat
  if code < 0x10000 then [code]
  else [0xD800 + (code - 0x10000) / 0x400, 0xDC00 + (code - 0x10000) % 0x400]

/-- `String.compareTo` does not put the second text first. -/
def precedes (first second : String) : Bool :=
  decide (first.toList.flatMap codeUnits ≤ second.toList.flatMap codeUnits)

/-- The text before the first separator, and the non-empty pieces behind it. -/
def pieces (separator : Char) : List Char → List Char × List (List Char)
  | [] => ([], [])
  | char :: rest =>
      let (piece, behind) := pieces separator rest
      if char = separator then ([], if piece = [] then behind else piece :: behind)
      else (char :: piece, behind)

/-- `StringUtils.split` at a separator character: the non-empty pieces. -/
def split (separator : Char) (text : List Char) : List (List Char) :=
  let (piece, behind) := pieces separator text
  if piece = [] then behind else piece :: behind

section Case

variable [Platform]

/-- The letter a case-insensitive comparison reads for a letter. -/
def foldCase (char : Char) : Char := Platform.toLowerCase (Platform.toUpperCase char)

/-- `String.equalsIgnoreCase`. -/
def equalsIgnoreCase (first second : String) : Bool :=
  decide (first.toList.map foldCase = second.toList.map foldCase)

theorem equalsIgnoreCase_iff {first second : String} :
    equalsIgnoreCase first second ↔ first.toList.map foldCase = second.toList.map foldCase :=
  decide_eq_true_iff

@[simp] theorem equalsIgnoreCase_refl (text : String) : equalsIgnoreCase text text :=
  equalsIgnoreCase_iff.mpr rfl

/-- `Boolean.parseBoolean`. -/
def parseBoolean (text : String) : Bool := equalsIgnoreCase text "true"

end Case

section Latin

/-- A text of ASCII characters. -/
def isLatin (text : String) : Bool := text.toList.all (·.toNat < 128)

/-- In ASCII text the tables of the runtime change the case of the Latin letters only. -/
structure Platform.Latin [Platform] : Prop where
  foldCase : ∀ char : Char, char.toNat < 128 → Ranger.foldCase char = char.toLower
  lowerCase : ∀ text, isLatin text = true →
    Platform.lowerCase text = String.ofList (text.toList.map Char.toLower)

/-- Texts of ASCII characters are alike if they are once in small letters. -/
theorem Platform.Latin.equalsIgnoreCase [Platform] (latin : Platform.Latin)
    {first second : String} (one : isLatin first = true) (two : isLatin second = true) :
    Ranger.equalsIgnoreCase first second =
      decide (first.toList.map Char.toLower = second.toList.map Char.toLower) := by
  have lowered : ∀ text, isLatin text = true →
      text.toList.map Ranger.foldCase = text.toList.map Char.toLower := by
    intro text ascii
    refine List.map_congr_left fun char member => latin.foldCase char ?_
    exact of_decide_eq_true (List.all_eq_true.mp ascii char member)
  unfold Ranger.equalsIgnoreCase
  rw [lowered first one, lowered second two]

theorem Platform.ascii_latin : @Platform.Latin Platform.ascii := by
  refine @Platform.Latin.mk Platform.ascii (fun char small => ?_) fun _ _ => rfl
  have both : ∀ code < 128, (Char.ofNat code).toUpper.toLower = (Char.ofNat code).toLower := by
    decide
  rw [← Char.ofNat_toNat char]
  exact both char.toNat small

end Latin

end Ranger

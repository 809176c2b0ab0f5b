import Ranger.Foundation.Outcome
import Ranger.Platform

/-! # Passwords that are stored encrypted

`PasswordUtils` encrypts a password with its length and a colon in front, in the default
charset, and has the cipher's bytes as Base64 text. To decrypt is to read what is behind the
first colon, which is the password again where the charset has its characters.
-/

namespace Ranger

/-- The default charset, the cipher under the key of the installation, and Base64. -/
class Ciphers where
  getBytes : String → List UInt8
  /-- `new String`, from bytes. -/
  newString : List UInt8 → String
  encrypt : List UInt8 → Option (List UInt8)
  decrypt : List UInt8 → Option (List UInt8)
  encode : List UInt8 → List UInt8
  decode : String → Option (List UInt8)

/-- The cipher and Base64 give back the bytes they got, and the charset has the ASCII
characters. -/
structure Ciphers.RoundTrips [Ciphers] : Prop where
  cipher : ∀ bytes, ∃ encrypted, encrypt bytes = some encrypted ∧ decrypt encrypted = some bytes
  base64 : ∀ bytes, decode (newString (encode bytes)) = some bytes
  latin : ∀ text rest, isLatin text = true →
    newString (getBytes (text ++ rest)) = text ++ newString (getBytes rest)

/-- Bytes of the characters up to 255, and a cipher and a Base64 that change nothing. -/
@[reducible] def Ciphers.plain : Ciphers where
  getBytes text := text.toList.map fun char => UInt8.ofNat char.toNat
  newString bytes := String.ofList (bytes.map fun byte => Char.ofNat byte.toNat)
  encrypt := some
  decrypt := some
  encode := id
  decode text := some (text.toList.map fun char => UInt8.ofNat char.toNat)

namespace PasswordUtils

variable [Ciphers]

def LEN_SEPARATOR_STR : String := ":"

def encryptPassword (aPassword : Option String) : Except String String :=
  let strToEncrypt :=
    match aPassword with
    | none => ""
    | some aPassword =>
        toString (aPassword.toList.flatMap codeUnits).length ++ LEN_SEPARATOR_STR ++ aPassword
  match Ciphers.encrypt (Ciphers.getBytes strToEncrypt) with
  | none => .error "Unable to encrypt password due to error"
  | some encryptedStr => .ok (Ciphers.newString (Ciphers.encode encryptedStr))

/-- What is behind the first separator. -/
def behindSeparator (decrypted : String) : Option String :=
  match decrypted.toList.findIdx? (· == ':') with
  | none => none
  | some foundAt => some (String.ofList (decrypted.toList.drop (foundAt + 1)))

def decryptPassword (aPassword : Option String) : Except String (Option String) :=
  match (aPassword.bind Ciphers.decode).bind Ciphers.decrypt with
  | none => .error "Unable to decrypt password due to error"
  | some decodedPassword => .ok (behindSeparator (Ciphers.newString decodedPassword))

section Length

omit [Ciphers]

theorem digits_of_mem {length : Nat} {char : Char} (member : char ∈ (toString length).toList) :
    char.isDigit = true := by
  rw [Nat.toString_eq_repr, Nat.toList_repr] at member
  exact Nat.isDigit_of_mem_toDigits (by decide) (by decide) member

theorem isLatin_length (length : Nat) :
    isLatin (toString length ++ LEN_SEPARATOR_STR) = true := by
  unfold isLatin
  rw [String.toList_append, List.all_append, Bool.and_eq_true, List.all_eq_true]
  refine ⟨fun char member => ?_, rfl⟩
  have digit := digits_of_mem member
  unfold Char.isDigit at digit
  rw [Bool.and_eq_true, decide_eq_true_eq, decide_eq_true_eq] at digit
  have bound : char.toNat ≤ 57 := UInt32.le_iff_toNat_le.mp digit.2
  exact decide_eq_true (Nat.lt_of_le_of_lt bound (by decide))

/-- The separator stands behind the digits of the length, whatever the text has. -/
theorem behindSeparator_digits (length : Nat) (text : String) :
    behindSeparator (toString length ++ LEN_SEPARATOR_STR ++ text) = some text := by
  have listed : (toString length ++ LEN_SEPARATOR_STR ++ text).toList =
      (toString length).toList ++ ':' :: text.toList := by
    rw [String.toList_append, String.toList_append, List.append_assoc]
    rfl
  have absent : (toString length).toList.findIdx? (· == ':') = none := by
    rw [List.findIdx?_eq_none_iff]
    intro char member
    apply Bool.eq_false_iff.mpr
    intro separator
    have digit := digits_of_mem member
    rw [eq_of_beq separator] at digit
    cases digit
  unfold behindSeparator
  rw [listed, List.findIdx?_append, absent, List.findIdx?_cons]
  simp

end Length

/-- A password of the charset is read back. -/
theorem decryptPassword_encryptPassword (trips : Ciphers.RoundTrips) {aPassword : String}
    (charset : Ciphers.newString (Ciphers.getBytes aPassword) = aPassword) :
    ∃ encrypted, encryptPassword (some aPassword) = .ok encrypted ∧
      decryptPassword (some encrypted) = .ok (some aPassword) := by
  obtain ⟨encrypted, made, back⟩ := trips.cipher (Ciphers.getBytes
    (toString (aPassword.toList.flatMap codeUnits).length ++ LEN_SEPARATOR_STR ++ aPassword))
  refine ⟨Ciphers.newString (Ciphers.encode encrypted), ?_, ?_⟩
  · unfold encryptPassword
    dsimp only
    rw [made]
  · unfold decryptPassword
    rw [Option.bind_some, trips.base64, Option.bind_some, back]
    dsimp only
    rw [trips.latin _ _ (isLatin_length _), charset, behindSeparator_digits]

end PasswordUtils

theorem Ciphers.plain_roundTrips : @Ciphers.RoundTrips Ciphers.plain := by
  refine @Ciphers.RoundTrips.mk Ciphers.plain (fun bytes => ⟨bytes, rfl, rfl⟩) ?_ ?_
  · intro bytes
    change some (List.map _ (String.ofList _).toList) = some bytes
    rw [String.toList_ofList, List.map_map]
    refine congrArg some ((List.map_congr_left fun byte _ => ?_).trans (List.map_id bytes))
    have small : byte.toNat < 256 := byte.toNat_lt
    have valid : byte.toNat.isValidChar := .inl (Nat.lt_trans small (by decide))
    have read : (Char.ofNat byte.toNat).toNat = byte.toNat := by
      unfold Char.ofNat
      rw [dif_pos valid]
      rfl
    change UInt8.ofNat (Char.ofNat byte.toNat).toNat = byte
    rw [read, UInt8.ofNat_toNat]
  · intro text rest ascii
    apply String.toList_injective
    change (String.ofList (List.map _ (List.map _ (text ++ rest).toList))).toList = _
    rw [String.toList_ofList, String.toList_append, List.map_append, List.map_append,
      String.toList_append]
    change _ = _ ++ (String.ofList _).toList
    rw [String.toList_ofList]
    refine congrArg (· ++ _) ?_
    rw [List.map_map]
    refine (List.map_congr_left fun char member => ?_).trans (List.map_id _)
    have small : char.toNat < 128 := of_decide_eq_true (List.all_eq_true.mp ascii char member)
    change Char.ofNat (UInt8.ofNat char.toNat).toNat = char
    rw [UInt8.toNat_ofNat', Nat.mod_eq_of_lt (Nat.lt_trans small (by decide)), Char.ofNat_toNat]

end Ranger

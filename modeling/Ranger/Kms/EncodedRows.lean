import Ranger.Kms.DurableKeys

/-! # Encoded rows of a key store

A row of the table has the bytes of a sealed key, followed by a digest that is keyed with
the master key. The digest is meant to show that a row was changed. How objects are written
to bytes, and what `SHA` computes, is left to the runtime.
-/

namespace Ranger

open Foundation RangerKeyStore

/-- Why no object is read. -/
inductive StreamFailure where
  | io (message : String)
  | classNotFound (message : String)
  | runtime
  deriving DecidableEq

/-- Object streams and the digest of the runtime. -/
class ObjectStream where
  writeObject : SealedObject → List UInt8
  /-- The object at the beginning of a stream. -/
  readObject : List UInt8 → Except StreamFailure SealedObject
  sha : List UInt8 → List UInt8

/-- The object is read from where it was written, whatever is behind it. -/
def ObjectStream.Readable [ObjectStream] (sealedKey : SealedObject) : Prop :=
  ∀ behind, readObject (writeObject sealedKey ++ behind) = .ok sealedKey

/-- The bytes a digest was updated with since it was last computed. -/
structure MessageDigest where
  bytes : List UInt8 := []

namespace MessageDigest

def update (md : MessageDigest) (bytes : List UInt8) : MessageDigest := ⟨md.bytes ++ bytes⟩

/-- Computing the digest resets it. -/
def digest [ObjectStream] (md : MessageDigest) : List UInt8 × MessageDigest :=
  (ObjectStream.sha md.bytes, {})

end MessageDigest

/-- A row of the table, with the bytes of its encoded key. -/
structure EncodedRow where
  keyAlias : String
  createdDate : Nat
  encoded : List UInt8
  cipher : String
  bitLength : Int
  description : Option String
  version : Int
  attributes : List (String × String)

inductive LoadFailure where
  | io (message : String)
  | arrayIndexOutOfBounds
  | runtime
  deriving DecidableEq

namespace EncodedRow

section Rows

/-- `getPreKeyedHash`. -/
def getPreKeyedHash (password : List UInt16) : MessageDigest :=
  let md : MessageDigest := {}
  let md := md.update (password.flatMap fun unit : UInt16 => [(unit >>> 8).toUInt8, unit.toUInt8])
  md.update ("Mighty Aphrodite".toList.map fun char => UInt8.ofNat char.toNat)

def mapObjectToEntity (keyAlias : String) (data : List UInt8) (entry : SecretKeyEntry) :
    EncodedRow where
  keyAlias := keyAlias
  createdDate := entry.date
  encoded := data
  cipher := entry.cipher_field
  bitLength := entry.bit_length
  description := entry.description
  version := entry.version
  attributes := entry.attributes

def entryOf (row : EncodedRow) (sealedKey : SealedObject) : SecretKeyEntry where
  date := row.createdDate
  sealedKey := sealedKey
  cipher_field := row.cipher
  bit_length := row.bitLength
  description := row.description
  attributes := row.attributes
  version := row.version

variable [ObjectStream]

/-- One turn of the loop of `engineStore`. The sealed key passes through the digest too,
after the digest that is written was computed. -/
def storeEntry (digest : List UInt8) (state : List EncodedRow × MessageDigest)
    (entry : String × SecretKeyEntry) : List EncodedRow × MessageDigest :=
  let data := ObjectStream.writeObject entry.2.sealedKey ++ digest
  (state.1 ++ [mapObjectToEntity entry.1 data entry.2], state.2.update data)

/-- The rows that `engineStore` writes. -/
def engineStore (password : List UInt16) (entries : AssocMap String SecretKeyEntry) :
    List EncodedRow :=
  let (digest, md) := (getPreKeyedHash password).digest
  (entries.entries.foldl (storeEntry digest) ([], md)).1

/-- The loop that compares the computed digest with the end of the data, from the last byte
backwards; the bytes are given in that order. -/
def compareBackwards : List UInt8 → List UInt8 → Except LoadFailure Unit
  | [], _ => .ok ()
  | _ :: _, [] => .error .arrayIndexOutOfBounds
  | byte :: computed, other :: data =>
      if byte = other then compareBackwards computed data
      else .error (.io "Keystore was tampered with, or password was incorrect")

/-- One turn of the loop of `engineLoad`. What the streams go on to digest is not read. -/
def loadRow (computed : List UInt8) (entries : AssocMap String SecretKeyEntry)
    (row : EncodedRow) : Except LoadFailure (AssocMap String SecretKeyEntry) := do
  compareBackwards computed.reverse row.encoded.reverse
  match ObjectStream.readObject row.encoded with
  | .ok sealedKey => return entries.put row.keyAlias (row.entryOf sealedKey)
  | .error (.io message) => throw (.io message)
  | .error (.classNotFound message) => throw (.io message)
  | .error .runtime => throw .runtime

/-- `engineLoad`: without rows the entries are left as they are. -/
def engineLoad (rows : List EncodedRow) (password : List UInt16)
    (entries : AssocMap String SecretKeyEntry) :
    Except LoadFailure (AssocMap String SecretKeyEntry) :=
  if rows.isEmpty then .ok entries
  else
    let (computed, _) := (getPreKeyedHash password).digest
    rows.foldlM (loadRow computed) ∅

end Rows

section Digest

variable [ObjectStream] {password : List UInt16}

/-- The digest that is keyed with a password, and nothing else. -/
def keyedDigest (password : List UInt16) : List UInt8 := (getPreKeyedHash password).digest.1

/-- The row that is written for an entry. -/
def rowOf (password : List UInt16) (entry : String × SecretKeyEntry) : EncodedRow :=
  mapObjectToEntity entry.1
    (ObjectStream.writeObject entry.2.sealedKey ++ keyedDigest password) entry.2

/-- **Storing.** All rows end with the digest of the password: what the sealed keys add to
the digest is never written. -/
theorem engineStore_eq (password : List UInt16) (entries : AssocMap String SecretKeyEntry) :
    engineStore password entries = entries.entries.map (rowOf password) := by
  have turn : ∀ (rest : List (String × SecretKeyEntry)) (state : List EncodedRow × MessageDigest),
      (rest.foldl (storeEntry (keyedDigest password)) state).1 =
        state.1 ++ rest.map (rowOf password) := by
    intro rest
    induction rest with
    | nil => exact fun state => (List.append_nil _).symm
    | cons entry rest ih =>
        intro state
        rw [List.foldl_cons, ih, List.map_cons]
        exact List.append_assoc _ _ _
  exact turn entries.entries _

/-- A row that was written with the password, with a sealed key that can be read back. -/
def WrittenBy (password : List UInt16) (row : EncodedRow) : Prop :=
  ∃ entries, (∀ entry ∈ entries.entries, ObjectStream.Readable entry.2.sealedKey) ∧
    row ∈ engineStore password entries

/-- A row that was written has the sealed key of its entry in front of the digest. -/
theorem WrittenBy.exists_entry {row : EncodedRow} (written : WrittenBy password row) :
    ∃ entry, ObjectStream.Readable entry.2.sealedKey ∧ row = rowOf password entry := by
  obtain ⟨entries, readable, listed⟩ := written
  rw [engineStore_eq] at listed
  obtain ⟨entry, known, rfl⟩ := List.mem_map.mp listed
  exact ⟨entry, readable entry known, rfl⟩

/-- The bytes in front of the digest. -/
def sealedPart (password : List UInt16) (data : List UInt8) : List UInt8 :=
  data.take (data.length - (keyedDigest password).length)

/-- What is refused with an `IOException`. -/
def Rejected {α : Type} (result : Except LoadFailure α) : Prop :=
  ∃ message, result = .error (.io message)

/-- The reader fails with an exception that is reported as an `IOException`. -/
def Unreadable (data : List UInt8) : Prop :=
  ∃ message, ObjectStream.readObject data = .error (.io message) ∨
    ObjectStream.readObject data = .error (.classNotFound message)

/-- A change that is noticed: the data has another digest, of which it is not just a
remainder, or the digest was kept in front of which no object can be read. -/
def Detected (password : List UInt16) (data : List UInt8) : Prop :=
  (¬ keyedDigest password <:+ data ∧ ¬ data <:+ keyedDigest password) ∨
    (keyedDigest password <:+ data ∧ Unreadable data)

omit [ObjectStream] in
/-- The comparison goes on to the end of the digest, of the data, or to a difference. -/
theorem compareBackwards_eq (computed data : List UInt8) :
    compareBackwards computed data =
      if computed <+: data then .ok ()
      else if data <+: computed then .error .arrayIndexOutOfBounds
      else .error (.io "Keystore was tampered with, or password was incorrect") := by
  induction computed generalizing data with
  | nil => rw [if_pos List.nil_prefix, compareBackwards]
  | cons byte computed ih =>
      cases data with
      | nil => rw [if_neg (by simp), if_pos List.nil_prefix, compareBackwards]
      | cons other data =>
          unfold compareBackwards
          by_cases same : byte = other
          · rw [if_pos same, ih, same]
            simp only [List.cons_prefix_cons, true_and]
          · rw [if_neg same, if_neg fun kept => same (List.cons_prefix_cons.mp kept).1,
              if_neg fun kept => same (List.cons_prefix_cons.mp kept).1.symm]

variable {entries : AssocMap String SecretKeyEntry} {row : EncodedRow}

/-- **A row.** It is loaded exactly when it ends with the digest and an object can be read. -/
theorem loadRow_of_suffix (kept : keyedDigest password <:+ row.encoded) :
    loadRow (keyedDigest password) entries row =
      match ObjectStream.readObject row.encoded with
      | .ok sealedKey => .ok (entries.put row.keyAlias (row.entryOf sealedKey))
      | .error (.io message) => .error (.io message)
      | .error (.classNotFound message) => .error (.io message)
      | .error .runtime => .error .runtime := by
  unfold loadRow
  rw [compareBackwards_eq, if_pos (List.reverse_prefix.mpr kept)]
  rfl

/-- What is written is loaded, with the entry it was written for. -/
theorem loadRow_rowOf {entry : String × SecretKeyEntry}
    (readable : ObjectStream.Readable entry.2.sealedKey) :
    loadRow (keyedDigest password) entries (rowOf password entry) =
      .ok (entries.put entry.1 entry.2) := by
  rw [loadRow_of_suffix (List.suffix_append _ _)]
  have read : ObjectStream.readObject (rowOf password entry).encoded = .ok entry.2.sealedKey :=
    readable _
  rw [read]
  rfl

/-- **Detection.** A row is refused with an `IOException` exactly when its change is
detected, whatever was loaded before. -/
theorem rejected_loadRow_iff :
    Rejected (loadRow (keyedDigest password) entries row) ↔ Detected password row.encoded := by
  by_cases kept : keyedDigest password <:+ row.encoded
  · have own : Detected password row.encoded ↔ Unreadable row.encoded := by
      refine ⟨?_, fun unreadable => .inr ⟨kept, unreadable⟩⟩
      rintro (⟨lost, _⟩ | ⟨_, unreadable⟩)
      · exact absurd kept lost
      · exact unreadable
    rw [own, loadRow_of_suffix kept, Unreadable, Rejected]
    rcases ObjectStream.readObject row.encoded with (message | message | _) | sealedKey <;> simp
  · unfold loadRow
    rw [compareBackwards_eq, if_neg fun found => kept (List.reverse_prefix.mp found)]
    by_cases short : row.encoded <:+ keyedDigest password
    · rw [if_pos (List.reverse_prefix.mpr short)]
      constructor
      · rintro ⟨message, failed⟩
        nomatch failed
      · rintro (⟨_, other⟩ | ⟨found, _⟩)
        · exact absurd short other
        · exact absurd found kept
    · rw [if_neg fun found => short (List.reverse_prefix.mp found)]
      exact ⟨fun _ => .inl ⟨kept, short⟩, fun _ => ⟨_, rfl⟩⟩

/-- Rows that are written are loaded one after another. -/
theorem foldlM_loadRow_map {stored : List (String × SecretKeyEntry)}
    (readable : ∀ entry ∈ stored, ObjectStream.Readable entry.2.sealedKey)
    (entries : AssocMap String SecretKeyEntry) :
    (stored.map (rowOf password)).foldlM (loadRow (keyedDigest password)) entries =
      .ok (entries.putAll stored) := by
  induction stored generalizing entries with
  | nil => rfl
  | cons entry stored ih =>
      rw [List.forall_mem_cons] at readable
      rw [List.map_cons, List.foldlM_cons, loadRow_rowOf readable.1]
      exact ih readable.2 _

/-- Rows that were written with the password are those of some entries. -/
theorem exists_stored {rows : List EncodedRow} (written : ∀ row ∈ rows, WrittenBy password row) :
    ∃ stored : List (String × SecretKeyEntry),
      (∀ entry ∈ stored, ObjectStream.Readable entry.2.sealedKey) ∧
      rows = stored.map (rowOf password) := by
  induction rows with
  | nil => exact ⟨[], fun _ listed => (nomatch listed), rfl⟩
  | cons row rows ih =>
      rw [List.forall_mem_cons] at written
      obtain ⟨entry, readable, rfl⟩ := written.1.exists_entry
      obtain ⟨stored, others, rfl⟩ := ih written.2
      exact ⟨entry :: stored, List.forall_mem_cons.mpr ⟨readable, others⟩, rfl⟩

/-- Rows that were written with the password are loaded after whatever was loaded. -/
theorem foldlM_loadRow_written {rows : List EncodedRow}
    (written : ∀ row ∈ rows, WrittenBy password row)
    (entries : AssocMap String SecretKeyEntry) :
    ∃ loaded, rows.foldlM (loadRow (keyedDigest password)) entries = .ok loaded := by
  obtain ⟨stored, readable, rfl⟩ := exists_stored written
  exact ⟨_, foldlM_loadRow_map readable entries⟩

theorem engineLoad_of_ne_nil {rows : List EncodedRow} (nonempty : rows ≠ []) :
    engineLoad rows password entries = rows.foldlM (loadRow (keyedDigest password)) ∅ := by
  unfold engineLoad
  rw [if_neg (by simpa using nonempty)]
  rfl

/-- **Tampering.** Rows that were written with the master key are loaded. When the sealed
part of one of them was changed, loading is refused with an `IOException` exactly when the
change is detected: a change that keeps the digest, which does not depend on the sealed
part, is noticed by the reader of objects or not at all. -/
theorem engineLoad_changed_iff {before after : List EncodedRow} {row : EncodedRow}
    (written : ∀ each ∈ before ++ row :: after, WrittenBy password each) (data : List UInt8) :
    (∃ loaded, engineLoad (before ++ row :: after) password entries = .ok loaded) ∧
      (sealedPart password data ≠ sealedPart password row.encoded →
        (Rejected (engineLoad (before ++ { row with encoded := data } :: after) password
          entries) ↔ Detected password data)) := by
  constructor
  · rw [engineLoad_of_ne_nil (by simp)]
    exact foldlM_loadRow_written written ∅
  · intro _
    obtain ⟨loaded, done⟩ := foldlM_loadRow_written
      (fun each listed => written each (List.mem_append_left _ listed)) (∅ : AssocMap _ _)
    have rest : ∀ each ∈ after, WrittenBy password each := fun each listed =>
      written each (List.mem_append_right _ (List.mem_cons_of_mem _ listed))
    rw [engineLoad_of_ne_nil (by simp), List.foldlM_append, done]
    change Rejected (List.foldlM _ loaded (_ :: after)) ↔ _
    rw [← @rejected_loadRow_iff _ _ loaded { row with encoded := data }, List.foldlM_cons]
    rcases loadRow (keyedDigest password) loaded { row with encoded := data } with
      failure | next
    · rfl
    · obtain ⟨final, finished⟩ := foldlM_loadRow_written rest next
      change Rejected (List.foldlM _ next after) ↔ _
      rw [finished]
      constructor <;> exact fun ⟨_, failed⟩ => nomatch failed

/-- **Reading back.** The entries that are stored are loaded, under their aliases. -/
theorem engineLoad_engineStore {stored : AssocMap String SecretKeyEntry}
    (readable : ∀ entry ∈ stored.entries, ObjectStream.Readable entry.2.sealedKey)
    (nonempty : stored.entries ≠ []) :
    ∃ loaded, engineLoad (engineStore password stored) password entries = .ok loaded ∧
      ∀ keyAlias, loaded.get? keyAlias = stored.get? keyAlias := by
  have rows : engineStore password stored ≠ [] := by
    rw [engineStore_eq]
    exact fun empty => nonempty (List.map_eq_nil_iff.mp empty)
  refine ⟨(∅ : AssocMap String SecretKeyEntry).putAll stored.entries, ?_, fun keyAlias => ?_⟩
  · rw [engineLoad_of_ne_nil rows, engineStore_eq]
    exact foldlM_loadRow_map readable ∅
  · have same := AssocMap.get?_putAll_map (∅ : AssocMap String SecretKeyEntry) stored id keyAlias
    simpa using same

end Digest

section Table

variable [ObjectStream] {chars : String → List UInt16} {table : KeyTable} {password : String}
  {entries : AssocMap String SecretKeyEntry}

/-- The row of the table, with its key encoded and followed by the digest it was written with. -/
def encodedRow (chars : String → List UInt16) (row : String × XXRangerKeyStore) : EncodedRow :=
  rowOf (chars row.2.digest) (row.1, RangerKeyStore.entryOf row.2)

/-- Among digests of one size, only the digest that was written ends a row. -/
theorem keyedDigest_suffix_iff {size : Nat}
    (sized : ∀ bytes, (ObjectStream.sha bytes).length = size)
    {first second : List UInt16} (front : List UInt8) :
    keyedDigest first <:+ front ++ keyedDigest second ↔ keyedDigest first = keyedDigest second := by
  constructor
  · intro kept
    have lengths : (keyedDigest first).length = (keyedDigest second).length :=
      (sized _).trans (sized _).symm
    exact (List.suffix_of_suffix_length_le kept (List.suffix_append front _)
      (Nat.le_of_eq lengths)).eq_of_length lengths
  · intro same
    rw [same]
    exact List.suffix_append _ _

/-- **Refinement.** The rows of a table are loaded from their bytes exactly when they are
loaded from the table, provided that the digest tells the passwords of its rows apart. -/
theorem engineLoad_encodedRow_ok_iff {size : Nat}
    (sized : ∀ bytes, (ObjectStream.sha bytes).length = size)
    (distinct : ∀ row ∈ table.entries,
      keyedDigest (chars password) = keyedDigest (chars row.2.digest) → row.2.digest = password)
    (readable : ∀ row ∈ table.entries, ObjectStream.Readable row.2.encoded) :
    engineLoad (table.entries.map (encodedRow chars)) (chars password) ∅ = .ok entries ↔
      RangerKeyStore.engineLoad (some table) password ∅ = .ok entries := by
  have turn : ∀ (rows : List (String × XXRangerKeyStore)) (before : AssocMap String SecretKeyEntry),
      (∀ row ∈ rows, keyedDigest (chars password) = keyedDigest (chars row.2.digest) →
        row.2.digest = password) →
      (∀ row ∈ rows, ObjectStream.Readable row.2.encoded) →
      ((rows.map (encodedRow chars)).foldlM (loadRow (keyedDigest (chars password))) before =
          .ok entries ↔
        rows.foldlM (RangerKeyStore.loadRow password) before = .ok entries) := by
    intro rows
    induction rows with
    | nil =>
        exact fun before _ _ => ⟨fun loaded => congrArg Except.ok (Except.ok.inj loaded),
          fun loaded => congrArg Except.ok (Except.ok.inj loaded)⟩
    | cons row rows ih =>
        intro before distinct readable
        rw [List.forall_mem_cons] at distinct readable
        rw [List.map_cons, List.foldlM_cons, List.foldlM_cons, RangerKeyStore.loadRow]
        by_cases own : row.2.digest = password
        · have loaded : loadRow (keyedDigest (chars password)) before (encodedRow chars row) =
              .ok (before.put row.1 (RangerKeyStore.entryOf row.2)) := by
            rw [encodedRow, own]
            exact loadRow_rowOf readable.1
          rw [loaded, if_pos own]
          exact ih _ distinct.2 readable.2
        · have lost : ¬ keyedDigest (chars password) <:+ (encodedRow chars row).encoded :=
            fun kept => own (distinct.1 ((keyedDigest_suffix_iff sized _).mp kept))
          rw [if_neg own]
          constructor
          · intro loaded
            exfalso
            rw [loadRow, compareBackwards_eq,
              if_neg fun found => lost (List.reverse_prefix.mp found)] at loaded
            split at loaded <;> nomatch loaded
          · exact fun loaded => nomatch loaded
  by_cases empty : table.entries = []
  · have none : table.isEmpty = true := List.isEmpty_iff.mpr empty
    simp only [RangerKeyStore.engineLoad, none, ↓reduceIte, empty]
    exact turn [] ∅ (fun _ listed => nomatch listed) fun _ listed => nomatch listed
  · have nonempty : table.isEmpty = false := List.isEmpty_eq_false_iff.mpr empty
    simp only [RangerKeyStore.engineLoad, nonempty, Bool.false_eq_true, ↓reduceIte]
    rw [engineLoad_of_ne_nil (by simpa using empty)]
    exact turn table.entries ∅ distinct readable

end Table

end EncodedRow

/-- Streams of sealed material: a header, the number of bytes, and the bytes. The digest
has a length of its own and no collisions. -/
private abbrev framed : ObjectStream where
  writeObject sealedKey :=
    match sealedKey.key with
    | .secretKeySpec material _ => [0xAC, 0xED, 0, 5, UInt8.ofNat material.length] ++ material
    | .keyMetadata _ => []
  readObject bytes :=
    match bytes with
    | 0xAC :: 0xED :: 0 :: 5 :: count :: material =>
        if count.toNat ≤ material.length then
          .ok ⟨.secretKeySpec (material.take count.toNat) "AES", "master"⟩
        else .error (.io "Unexpected end of file from underlying input stream")
    | _ => .error (.io "invalid stream header")
  sha bytes := 0x53 :: bytes

namespace EncodedRow

private def sealedZone : SealedObject := ⟨.secretKeySpec [1, 2] "AES", "master"⟩

private theorem readable_sealedZone : @ObjectStream.Readable framed sealedZone := fun _ => rfl

private def zone : AssocMap String SecretKeyEntry :=
  (∅ : AssocMap String SecretKeyEntry).put "zone@0" ⟨0, sealedZone, "AES", 16, none, [], 1⟩

private def zoneRow : EncodedRow :=
  @rowOf framed [0x6D, 0x6B] ("zone@0", ⟨0, sealedZone, "AES", 16, none, [], 1⟩)

private theorem zoneRow_written : @WrittenBy framed [0x6D, 0x6B] zoneRow :=
  ⟨zone, fun _ listed => List.mem_singleton.mp listed ▸ readable_sealedZone,
    List.mem_singleton.mpr rfl⟩

/-- A row whose digest was changed along with its sealed part is refused. -/
theorem replaced_row_rejected :
    @Rejected _ (@engineLoad framed [{ zoneRow with encoded := zoneRow.encoded.map (· + 1) }]
      [0x6D, 0x6B] ∅) := by
  have written : ∀ each ∈ [] ++ zoneRow :: [], @WrittenBy framed [0x6D, 0x6B] each :=
    fun each listed => List.mem_singleton.mp listed ▸ zoneRow_written
  exact ((@engineLoad_changed_iff framed _ ∅ [] [] zoneRow written
    (zoneRow.encoded.map (· + 1))).2 (by decide +kernel)).mpr
      (.inl ⟨by decide +kernel, by decide +kernel⟩)

/-- **A change that goes unnoticed.** Another byte of sealed material, in front of the digest
that was kept, is loaded. -/
theorem changed_row_loaded :
    @WrittenBy framed [0x6D, 0x6B] zoneRow ∧
      @sealedPart framed [0x6D, 0x6B] (zoneRow.encoded.set 6 9) ≠
        @sealedPart framed [0x6D, 0x6B] zoneRow.encoded ∧
      ∃ loaded, @engineLoad framed [{ zoneRow with encoded := zoneRow.encoded.set 6 9 }]
        [0x6D, 0x6B] ∅ = .ok loaded :=
  ⟨zoneRow_written, by decide +kernel, _, rfl⟩

end EncodedRow

end Ranger

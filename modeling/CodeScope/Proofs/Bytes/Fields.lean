import CodeScope.Bytes.Field
import CodeScope.Proofs.Bytes.Encoding
import CodeScope.Proofs.Bytes.Scanning
import Mathlib.Data.Nat.Digits.Defs

/-!
# Reading of fields

Whatever fields are asked for, in whatever order and however many of them are not there, the place
stays inside the data, a field is read if and only if all its bytes are left, and what has been read
is what has been passed: written again, it is the data up to the place.
-/

namespace CodeScope
namespace Bytes

/-- The sum of some bytes with their powers of 256. -/
def unsigned (data : Bytes) : Nat :=
  Nat.ofDigits 256 (data.map UInt8.toNat)

/-- The number that some bytes write in two's complement. -/
def signed (data : Bytes) : Int :=
  if 2 * data.unsigned < 256 ^ data.length then data.unsigned
  else data.unsigned - (256 ^ data.length : Nat)

theorem littleEndian_eq_unsigned (data : Bytes) : data.littleEndian = data.unsigned := by
  induction data with
  | nil => rfl
  | cons byte rest induction =>
      rw [littleEndian, induction, unsigned, unsigned, List.map_cons, Nat.ofDigits_cons]

end Bytes

namespace Field

/-- Bytes write the content of a field. -/
def Holds : (field : Field) → Bytes → field.Content → Prop
  | u8, data, (number : UInt8) => number.toNat = data.unsigned
  | u16, data, (number : UInt16) => number.toNat = data.unsigned
  | u32, data, (number : UInt32) => number.toNat = data.unsigned
  | i32, data, (number : Int32) => number.toInt = data.signed
  | i64, data, (number : Int64) => number.toInt = data.signed
  | f64, data, (number : Binary64) => number.bits.toNat = data.unsigned
  | bytes _, data, content => content = data

/-- The bytes that write the content of a field. -/
def encode : (field : Field) → field.Content → Bytes
  | u8, (number : UInt8) => Bytes.digits 1 number.toNat
  | u16, (number : UInt16) => Bytes.digits 2 number.toNat
  | u32, (number : UInt32) => Bytes.digits 4 number.toNat
  | i32, (number : Int32) => Bytes.ofInt32 number
  | i64, (number : Int64) => Bytes.ofInt64 number
  | f64, (number : Binary64) => Bytes.digits 8 number.bits.toNat
  | bytes _, data => data

/-- The bytes that write what has been read, if anything has. -/
def encodeAnswer (field : Field) : Except Error field.Content → Bytes
  | .ok content => field.encode content
  | .error _ => []

/-- The content of a field whose bytes are there. -/
def decode : (field : Field) → Bytes → field.Content
  | u8, data => UInt8.ofNat data.littleEndian
  | u16, data => UInt16.ofNat data.littleEndian
  | u32, data => UInt32.ofNat data.littleEndian
  | i32, data => Int32.ofNat data.littleEndian
  | i64, data => Int64.ofNat data.littleEndian
  | f64, data => ⟨UInt64.ofNat data.littleEndian⟩
  | bytes _, data => data

variable {field : Field} {data : Bytes}

/-- Bytes write what is read from them, the sign included. -/
theorem holds_decode (size : data.length = field.width) : field.Holds data (field.decode data) := by
  have small := data.littleEndian_lt
  rw [size] at small
  cases field with
  | u8 => exact (UInt8.toNat_ofNat_of_lt' small).trans data.littleEndian_eq_unsigned
  | u16 => exact (UInt16.toNat_ofNat_of_lt' small).trans data.littleEndian_eq_unsigned
  | u32 => exact (UInt32.toNat_ofNat_of_lt' small).trans data.littleEndian_eq_unsigned
  | i32 =>
      have word : (Int32.ofNat data.littleEndian).toBitVec.toNat = data.unsigned := by
        rw [← data.littleEndian_eq_unsigned]
        exact Nat.mod_eq_of_lt small
      show (Int32.ofNat data.littleEndian).toInt = data.signed
      rw [Int32.toInt, BitVec.toInt_eq_toNat_cond, word, Bytes.signed, size]
      rfl
  | i64 =>
      have word : (Int64.ofNat data.littleEndian).toBitVec.toNat = data.unsigned := by
        rw [← data.littleEndian_eq_unsigned]
        exact Nat.mod_eq_of_lt small
      show (Int64.ofNat data.littleEndian).toInt = data.signed
      rw [Int64.toInt, BitVec.toInt_eq_toNat_cond, word, Bytes.signed, size]
      rfl
  | f64 => exact (UInt64.toNat_ofNat_of_lt' small).trans data.littleEndian_eq_unsigned
  | bytes count => rfl

/-- What is read from bytes is written with them. -/
theorem encode_decode (size : data.length = field.width) :
    field.encode (field.decode data) = data := by
  have small := data.littleEndian_lt
  rw [size] at small
  have digits : ∀ number, number = data.littleEndian → Bytes.digits field.width number = data := by
    rintro number rfl
    rw [← size]
    exact Bytes.digits_littleEndian data
  cases field with
  | u8 => exact digits _ (UInt8.toNat_ofNat_of_lt' small)
  | u16 => exact digits _ (UInt16.toNat_ofNat_of_lt' small)
  | u32 => exact digits _ (UInt32.toNat_ofNat_of_lt' small)
  | i32 => exact digits _ (Nat.mod_eq_of_lt small)
  | i64 => exact digits _ (Nat.mod_eq_of_lt small)
  | f64 => exact digits _ (UInt64.toNat_ofNat_of_lt' small)
  | bytes count => rfl

/-- A field whose bytes are there is read, whatever stands behind them. -/
theorem scan_append (size : data.length = field.width) (rest : Bytes) (offset : Nat) :
    field.scan ⟨data ++ rest, offset⟩ = .ok (field.decode data, ⟨rest, offset + field.width⟩) := by
  cases field with
  | bytes count => exact Scan.bytes_append rest offset size
  | f64 =>
      have bits : Scan.u64 ⟨data ++ rest, offset⟩ = .ok (UInt64.ofNat data.littleEndian, _) :=
        Scan.map_of_ok UInt64.ofNat (Scan.littleEndian_append rest offset size)
      exact Scan.map_of_ok Binary64.mk bits
  | _ => exact Scan.map_of_ok _ (Scan.littleEndian_append rest offset size)

variable {cursor : Cursor}

theorem scan_of_enough (enough : field.width ≤ cursor.remaining) :
    field.scan cursor = .ok (field.decode (cursor.rest.take field.width),
      ⟨cursor.rest.drop field.width, cursor.offset + field.width⟩) := by
  have size : (cursor.rest.take field.width).length = field.width :=
    List.length_take_of_le enough
  have read := scan_append size (cursor.rest.drop field.width) cursor.offset
  rwa [List.take_append_drop] at read

theorem scan_of_short (short : cursor.remaining < field.width) :
    field.scan cursor = .error (.truncated field.width cursor.offset) := by
  have bytes : Scan.bytes field.width cursor = .error (.truncated field.width cursor.offset) :=
    Scan.bytes_of_short short
  have number : Scan.littleEndian field.width cursor =
      .error (.truncated field.width cursor.offset) := by
    rw [Scan.littleEndian, Scan.bind_of_error bytes]
  cases field with
  | bytes count => exact bytes
  | f64 => exact Scan.map_of_error _ (Scan.map_of_error _ number)
  | _ => exact Scan.map_of_error _ number

end Field

/-- The bytes that write what has been read, if anything has. -/
def FieldRead.encoded (read : FieldRead) : Bytes :=
  read.field.encodeAnswer read.answer

namespace Cursor

variable {cursor : Cursor} {field : Field}

theorem read_of_enough (enough : field.width ≤ cursor.remaining) :
    cursor.read field = (.ok (field.decode (cursor.rest.take field.width)),
      ⟨cursor.rest.drop field.width, cursor.offset + field.width⟩) := by
  rw [read, Field.scan_of_enough enough]

theorem read_of_short (short : cursor.remaining < field.width) :
    cursor.read field = (.error (.truncated field.width cursor.offset), cursor) := by
  rw [read, Field.scan_of_short short]

/-- A field is there or missing. -/
theorem read_cases (cursor : Cursor) (field : Field) :
    (field.width ≤ cursor.remaining ∧
      cursor.read field = (.ok (field.decode (cursor.rest.take field.width)),
        ⟨cursor.rest.drop field.width, cursor.offset + field.width⟩)) ∨
    (cursor.remaining < field.width ∧
      cursor.read field = (.error (.truncated field.width cursor.offset), cursor)) :=
  (Nat.lt_or_ge cursor.remaining field.width).symm.imp
    (fun enough => ⟨enough, read_of_enough enough⟩) fun short => ⟨short, read_of_short short⟩

theorem exists_content_iff :
    (∃ content, (cursor.read field).1 = .ok content) ↔ field.width ≤ cursor.remaining := by
  rcases cursor.read_cases field with ⟨enough, read⟩ | ⟨short, read⟩
  · rw [read]
    simpa using enough
  · rw [read]
    simpa using short

theorem holds_of_read {content : field.Content} (found : (cursor.read field).1 = .ok content) :
    field.Holds (cursor.rest.take field.width) content ∧
      (cursor.read field).2 =
        ⟨cursor.rest.drop field.width, cursor.offset + field.width⟩ := by
  rcases cursor.read_cases field with ⟨enough, read⟩ | ⟨-, read⟩
  · rw [read] at found ⊢
    cases found
    exact ⟨Field.holds_decode (List.length_take_of_le enough), rfl⟩
  · rw [read] at found
    cases found

theorem stays_of_missing {error : Error} (missing : (cursor.read field).1 = .error error) :
    error = .truncated field.width cursor.offset ∧ (cursor.read field).2 = cursor := by
  rcases cursor.read_cases field with ⟨-, read⟩ | ⟨-, read⟩
  · rw [read] at missing
    cases missing
  · rw [read] at missing ⊢
    cases missing
    exact ⟨rfl, rfl⟩

/-- The place after fields that have been asked for. -/
def after (cursor : Cursor) : List Field → Cursor
  | [] => cursor
  | field :: fields => (cursor.read field).2.after fields

theorem readAll_append (cursor : Cursor) (front back : List Field) :
    cursor.readAll (front ++ back) = cursor.readAll front ++ (cursor.after front).readAll back := by
  induction front generalizing cursor with
  | nil => rfl
  | cons field front induction =>
      exact congrArg (_ :: ·) (induction (cursor.read field).2)

theorem length_readAll (cursor : Cursor) (fields : List Field) :
    (cursor.readAll fields).length = fields.length := by
  induction fields generalizing cursor with
  | nil => rfl
  | cons field fields induction =>
      exact congrArg (· + 1) (induction (cursor.read field).2)

/-- Without a field that is not there, the others are read as they are with it. -/
theorem eraseIdx_readAll (cursor : Cursor) (front back : List Field)
    (short : (cursor.after front).remaining < field.width) :
    (cursor.readAll (front ++ field :: back)).eraseIdx front.length =
      cursor.readAll (front ++ back) := by
  have same : ((cursor.after front).read field).2 = cursor.after front := by
    rw [read_of_short short]
  have skipped : (cursor.after front).readAll (field :: back) =
      ⟨field, ((cursor.after front).read field).1, cursor.after front⟩ ::
        (cursor.after front).readAll back := by
    simp only [readAll, same]
  rw [readAll_append, readAll_append, skipped, ← cursor.length_readAll front,
    List.eraseIdx_append_of_length_le (Nat.le_refl _), Nat.sub_self, List.eraseIdx_cons_zero]

/-- What is read of a field, written again, is what stands in front of the next place. -/
theorem encodeAnswer_append_rest (cursor : Cursor) (field : Field) :
    field.encodeAnswer (cursor.read field).1 ++ (cursor.read field).2.rest = cursor.rest ∧
      (cursor.read field).2.offset =
        cursor.offset + (field.encodeAnswer (cursor.read field).1).length := by
  rcases cursor.read_cases field with ⟨enough, read⟩ | ⟨-, read⟩
  · have size : (cursor.rest.take field.width).length = field.width :=
      List.length_take_of_le enough
    have written := Field.encode_decode size
    rw [read]
    simp only [Field.encodeAnswer, written, List.take_append_drop, size, and_self]
  · rw [read]
    exact ⟨rfl, rfl⟩

/-- What is read of fields, written again, is what stands in front of the place after them. -/
theorem flatMap_encoded_append_rest (cursor : Cursor) (fields : List Field) :
    (cursor.readAll fields).flatMap FieldRead.encoded ++ (cursor.after fields).rest = cursor.rest ∧
      (cursor.after fields).offset =
        cursor.offset + ((cursor.readAll fields).flatMap FieldRead.encoded).length := by
  induction fields generalizing cursor with
  | nil => exact ⟨rfl, rfl⟩
  | cons field fields induction =>
      obtain ⟨here, moved⟩ := cursor.encodeAnswer_append_rest field
      obtain ⟨later, reached⟩ := induction (cursor.read field).2
      have encoded : (cursor.readAll (field :: fields)).flatMap FieldRead.encoded =
          field.encodeAnswer (cursor.read field).1 ++
            ((cursor.read field).2.readAll fields).flatMap FieldRead.encoded := rfl
      rw [encoded, after, List.append_assoc, later, here, reached, moved, List.length_append,
        Nat.add_assoc]
      exact ⟨rfl, rfl⟩

end Cursor

/-- How fields are read after some others have been asked for, which has led to a place. -/
structure Bytes.ReadsExactly (data : Bytes) (fields : List Field) (place : Cursor) : Prop where
  /-- The place is inside the data, and the bytes behind it are left. -/
  inside : place.offset ≤ data.length ∧ place.offset + place.remaining = data.length ∧
    place.rest = data.drop place.offset
  /-- What is asked for next is read at the place, and what comes later from where that leads. -/
  next : ∀ (field : Field) (later : List Field),
    (Cursor.start data).readAll (fields ++ field :: later) =
      (Cursor.start data).readAll fields ++
        ⟨field, (place.read field).1, (place.read field).2⟩ :: (place.read field).2.readAll later
  /-- A field is read if all its bytes are left, and only then. -/
  read_iff : ∀ field : Field,
    (∃ content, (place.read field).1 = .ok content) ↔ field.width ≤ place.remaining
  /-- What is read is what the next bytes write, and the place moves behind them. -/
  found : ∀ {field : Field} {content : field.Content}, (place.read field).1 = .ok content →
    field.Holds (place.rest.take field.width) content ∧
      (place.read field).2 = ⟨place.rest.drop field.width, place.offset + field.width⟩
  /-- Otherwise it is told how many bytes are needed where, and the place stays. -/
  missing : ∀ {field : Field} {error : Error}, (place.read field).1 = .error error →
    error = .truncated field.width place.offset ∧ (place.read field).2 = place
  /-- Without a field that is missing, the others are read as they are with it. -/
  unnoticed : ∀ (field : Field) (later : List Field), place.remaining < field.width →
    ((Cursor.start data).readAll (fields ++ field :: later)).eraseIdx fields.length =
      (Cursor.start data).readAll (fields ++ later)
  /-- What has been read, written again, is the data up to the place. -/
  written : ((Cursor.start data).readAll fields).flatMap FieldRead.encoded =
    data.take place.offset

/-- Fields are read exactly, whichever have been asked for and whichever of them are missing. -/
theorem Bytes.readsExactly_after (data : Bytes) (fields : List Field) :
    data.ReadsExactly fields ((Cursor.start data).after fields) := by
  obtain ⟨split, reached⟩ := (Cursor.start data).flatMap_encoded_append_rest fields
  -- All that the fields matter for is what has been read of them and the place they have led to.
  generalize passed : ((Cursor.start data).readAll fields).flatMap FieldRead.encoded = front at *
  have next := fun field later => (Cursor.start data).readAll_append fields (field :: later)
  have unnoticed := fun field later =>
    @Cursor.eraseIdx_readAll field (Cursor.start data) fields later
  generalize (Cursor.start data).after fields = place at *
  have whole : front ++ place.rest = data := split
  have offset : place.offset = front.length := reached.trans (Nat.zero_add _)
  constructor
  case inside =>
    have length : front.length + place.remaining = data.length := by
      rw [← whole, List.length_append]
      rfl
    refine ⟨by omega, by omega, ?_⟩
    rw [offset, ← whole, List.drop_left]
  case next => exact next
  case read_iff => exact fun field => Cursor.exists_content_iff
  case found => exact Cursor.holds_of_read
  case missing => exact Cursor.stays_of_missing
  case unnoticed => exact unnoticed
  case written => rw [passed, offset, ← whole, List.take_left]

example : (Cursor.start [0xFE, 0xFF, 3]).readAll [.u32, .u16, .i32, .bytes 1, .bytes 0] =
    [⟨.u32, .error (.truncated 4 0), ⟨[0xFE, 0xFF, 3], 0⟩⟩, ⟨.u16, .ok 0xFFFE, ⟨[3], 2⟩⟩,
      ⟨.i32, .error (.truncated 4 2), ⟨[3], 2⟩⟩, ⟨.bytes 1, .ok [3], ⟨[], 3⟩⟩,
      ⟨.bytes 0, .ok [], ⟨[], 3⟩⟩] :=
  rfl

end CodeScope

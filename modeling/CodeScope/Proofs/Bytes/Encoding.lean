import CodeScope.Bytes.Cursor
import CodeScope.Proofs.Text.Decoding
import Mathlib.Algebra.Ring.Nat

/-!
# Encoding of numbers and texts

The bytes that a writer gives to numbers of a fixed width and to texts, and the reading of them.
-/

namespace CodeScope
namespace Bytes

/-- The lowest digits of a number in base 256, the least significant first. -/
def digits : Nat → Nat → Bytes
  | 0, _ => []
  | width + 1, number => UInt8.ofNat number :: digits width (number / 256)

@[simp] theorem length_digits (width number : Nat) : (digits width number).length = width := by
  induction width generalizing number with
  | zero => rfl
  | succ width induction => rw [digits, List.length_cons, induction]

/-- Reading the digits of a number gives back its lowest part. -/
theorem littleEndian_digits (width number : Nat) :
    littleEndian (digits width number) = number % 256 ^ width := by
  induction width generalizing number with
  | zero => rw [digits, littleEndian, Nat.pow_zero, Nat.mod_one]
  | succ width induction =>
      have power : 256 ^ (width + 1) = 256 * 256 ^ width := Nat.pow_succ'
      rw [digits, littleEndian, induction, UInt8.toNat_ofNat', power, Nat.mod_mul]

theorem littleEndian_digits_of_lt {width number : Nat} (small : number < 256 ^ width) :
    littleEndian (digits width number) = number := by
  rw [littleEndian_digits, Nat.mod_eq_of_lt small]

theorem littleEndian_lt (data : Bytes) : littleEndian data < 256 ^ data.length := by
  induction data with
  | nil => decide
  | cons byte rest induction =>
      have small := byte.toNat_lt
      have power : 256 ^ (rest.length + 1) = 256 * 256 ^ rest.length := Nat.pow_succ'
      rw [littleEndian, List.length_cons, power]
      omega

/-- Bytes are the digits of the number that they write. -/
theorem digits_littleEndian (data : Bytes) : digits data.length data.littleEndian = data := by
  induction data with
  | nil => rfl
  | cons byte rest induction =>
      have small := byte.toNat_lt
      have low : (byte.toNat + 256 * littleEndian rest) % 256 = byte.toNat := by omega
      have high : (byte.toNat + 256 * littleEndian rest) / 256 = littleEndian rest := by omega
      have first : UInt8.ofNat (byte.toNat + 256 * littleEndian rest) = byte := by
        rw [← UInt8.toNat_inj, UInt8.toNat_ofNat', low]
      rw [littleEndian, List.length_cons, digits, first, high, induction]

/-- A number of four bytes in two's complement. -/
def ofInt32 (number : Int32) : Bytes :=
  digits 4 number.toUInt32.toNat

@[simp] theorem length_ofInt32 (number : Int32) : (ofInt32 number).length = 4 :=
  length_digits 4 _

/-- Reading the bytes of a signed number gives it back. -/
theorem ofNat_ofInt32 (number : Int32) : Int32.ofNat (littleEndian (ofInt32 number)) = number := by
  rw [ofInt32, littleEndian_digits_of_lt number.toUInt32.toNat_lt]
  exact Int32.ofNat_bitVecToNat number.toBitVec

/-- A number of eight bytes in two's complement. -/
def ofInt64 (number : Int64) : Bytes :=
  digits 8 number.toUInt64.toNat

@[simp] theorem length_ofInt64 (number : Int64) : (ofInt64 number).length = 8 :=
  length_digits 8 _

/-- Reading the bytes of a signed number gives it back. -/
theorem ofNat_ofInt64 (number : Int64) : Int64.ofNat (littleEndian (ofInt64 number)) = number := by
  rw [ofInt64, littleEndian_digits_of_lt number.toUInt64.toNat_lt]
  exact Int64.ofNat_bitVecToNat number.toBitVec

/-- The bytes of a text in UTF-8. -/
def utf8 (content : String) : Bytes :=
  content.toList.flatMap String.utf8EncodeChar

/-- Decoding the bytes of a text gives it back. -/
theorem decode_utf8 (content : String) : String.ofList (Utf8.decode (utf8 content)) = content := by
  rw [utf8, Utf8.decode_encode, String.ofList_toList]

/-- The bytes of a text whose characters are bytes. -/
def latin1 (content : String) : Bytes :=
  content.toList.map fun char => UInt8.ofNat char.toNat

/-- Decoding the bytes of a text gives it back, if its characters are bytes. -/
theorem decode_latin1 {content : String} (bytes : ∀ char ∈ content.toList, char.toNat ≤ 0xFF) :
    String.ofList (Latin1.decode (latin1 content)) = content := by
  have small : ∀ char ∈ content.toList, char.toNat < 256 := by
    intro char member
    exact Nat.lt_succ_of_le (bytes char member)
  rw [latin1, Latin1.decode_encode small, String.ofList_toList]

end Bytes
end CodeScope

import CodeScope.Error
import CodeScope.Sequencing

/-!
# Byte cursors

A cursor is the part of a byte string that is still to be read, together with the number of bytes
before it. A scan reads from the cursor and moves it. A read that asks for more bytes than are left
fails and gives no new cursor, so its caller goes on where it was.
-/

namespace CodeScope

/-- A string of bytes. -/
abbrev Bytes := List UInt8

namespace Bytes

/-- The number whose digits in base 256 are the bytes, the least significant first. -/
def littleEndian : Bytes → Nat
  | [] => 0
  | byte :: rest => byte.toNat + 256 * littleEndian rest

end Bytes

/-- A place in a byte string. -/
structure Cursor where
  /-- Bytes still to be read. -/
  rest : Bytes
  /-- Number of bytes before the place. -/
  offset : Nat
  deriving DecidableEq, Repr

namespace Cursor

/-- The place before the first byte. -/
def start (data : Bytes) : Cursor := ⟨data, 0⟩

/-- Number of bytes still to be read. -/
def remaining (cursor : Cursor) : Nat := cursor.rest.length

/-- Whether every byte has been read. -/
def isEmpty (cursor : Cursor) : Bool := cursor.rest.isEmpty

/-- Take the next `count` bytes. -/
def take (count : Nat) (cursor : Cursor) : Except Error (Bytes × Cursor) :=
  let taken := cursor.rest.take count
  if taken.length = count then
    .ok (taken, ⟨cursor.rest.drop count, cursor.offset + count⟩)
  else
    .error (.truncated count cursor.offset)

end Cursor

/-- A reader that takes bytes from a cursor or fails. -/
abbrev Scan := StateT Cursor (Except Error)

namespace Scan

/-- The next `count` bytes. -/
def bytes (count : Nat) : Scan Bytes := Cursor.take count

/-- The number that the next `width` bytes write, the least significant first. -/
def littleEndian (width : Nat) : Scan Nat := do
  return Bytes.littleEndian (← bytes width)

/-- One byte. -/
def u8 : Scan UInt8 := UInt8.ofNat <$> littleEndian 1

/-- An unsigned number of two bytes. -/
def u16 : Scan UInt16 := UInt16.ofNat <$> littleEndian 2

/-- An unsigned number of four bytes. -/
def u32 : Scan UInt32 := UInt32.ofNat <$> littleEndian 4

/-- A number of four bytes in two's complement. -/
def i32 : Scan Int32 := Int32.ofNat <$> littleEndian 4

/-- A number of eight bytes in two's complement. -/
def i64 : Scan Int64 := Int64.ofNat <$> littleEndian 8

/-- An unsigned number of eight bytes. -/
def u64 : Scan UInt64 := UInt64.ofNat <$> littleEndian 8

/-- Give up with an error. -/
def fail {α : Type} (error : Error) : Scan α := fun _ => .error error

/-- A scan that never gives bytes back to its cursor. -/
def Forward {α : Type} (part : Scan α) : Prop :=
  ∀ (cursor next : Cursor) (value : α),
    part cursor = .ok (value, next) → next.remaining ≤ cursor.remaining

theorem Forward.bind {α β : Type} {part : Scan α} {after : α → Scan β} (first : part.Forward)
    (second : ∀ value, (after value).Forward) : (part >>= after).Forward := by
  intro cursor next value scanned
  simp only [Bind.bind, StateT.bind] at scanned
  obtain ⟨⟨middle, rest⟩, taken, scanned⟩ := bind_eq_ok_iff.mp scanned
  exact Nat.le_trans (second middle _ _ _ scanned) (first _ _ _ taken)

theorem forward_pure {α : Type} (value : α) : Forward (pure value : Scan α) := by
  intro cursor next result scanned
  cases scanned
  exact Nat.le_refl _

theorem Forward.map {α β : Type} {part : Scan α} (convert : α → β) (forward : part.Forward) :
    (convert <$> part).Forward :=
  forward.bind fun value => forward_pure (convert value)

theorem forward_fail {α : Type} (error : Error) : (fail error : Scan α).Forward := by
  intro cursor next value scanned
  exact nomatch scanned

theorem bytes_eq_ok {count : Nat} {data : Bytes} {cursor next : Cursor}
    (taken : bytes count cursor = .ok (data, next)) :
    next.remaining + count = cursor.remaining := by
  simp only [bytes, Cursor.take] at taken
  split at taken
  · next enough =>
      simp only [Except.ok.injEq, Prod.mk.injEq] at taken
      simp only [← taken.2, Cursor.remaining, List.length_drop, List.length_take] at enough ⊢
      omega
  · exact nomatch taken

theorem forward_bytes (count : Nat) : (bytes count).Forward := by
  intro cursor next data taken
  have := bytes_eq_ok taken
  omega

theorem forward_littleEndian (width : Nat) : (littleEndian width).Forward :=
  (forward_bytes width).bind fun data => forward_pure (Bytes.littleEndian data)

theorem forward_u8 : u8.Forward :=
  (forward_littleEndian 1).map UInt8.ofNat

theorem u8_eq_ok {byte : UInt8} {cursor next : Cursor} (read : u8 cursor = .ok (byte, next)) :
    next.remaining + 1 = cursor.remaining := by
  simp only [u8, littleEndian, Functor.map, StateT.map, Bind.bind, StateT.bind] at read
  obtain ⟨⟨number, rest⟩, written, read⟩ := bind_eq_ok_iff.mp read
  obtain ⟨⟨data, final⟩, taken, written⟩ := bind_eq_ok_iff.mp written
  cases read
  cases written
  exact bytes_eq_ok taken

end Scan
end CodeScope

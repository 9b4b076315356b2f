import CodeScope.Bytes.Cursor
import CodeScope.Number.Binary64

/-!
# Fields

A field is what can be read at one place of a byte string: a number of a fixed width or a number of
bytes. Fields are read one after the other. A field that is not there leaves the cursor where it is,
so that the next one is read from the same place.
-/

namespace CodeScope

/-- What is read at a place. The least significant byte of a number is the first one. -/
inductive Field where
  /-- One byte. -/
  | u8
  /-- An unsigned number of two bytes. -/
  | u16
  /-- An unsigned number of four bytes. -/
  | u32
  /-- A number of four bytes in two's complement. -/
  | i32
  /-- A number of eight bytes in two's complement. -/
  | i64
  /-- A floating-point number of eight bytes. -/
  | f64
  /-- So many bytes. -/
  | bytes (count : Nat)
  deriving DecidableEq, Repr

namespace Field

/-- Number of bytes. -/
def width : Field → Nat
  | u8 => 1
  | u16 => 2
  | u32 => 4
  | i32 => 4
  | i64 => 8
  | f64 => 8
  | bytes count => count

/-- What a field holds. -/
abbrev Content : Field → Type
  | u8 => UInt8
  | u16 => UInt16
  | u32 => UInt32
  | i32 => Int32
  | i64 => Int64
  | f64 => Binary64
  | bytes _ => Bytes

/-- Read a field. -/
def scan : (field : Field) → Scan field.Content
  | u8 => Scan.u8
  | u16 => Scan.u16
  | u32 => Scan.u32
  | i32 => Scan.i32
  | i64 => Scan.i64
  | f64 => Binary64.mk <$> Scan.u64
  | bytes count => Scan.bytes count

end Field

/-- A field that has been asked for. -/
structure FieldRead where
  /-- The field. -/
  field : Field
  /-- What it holds, or why it cannot be read. -/
  answer : Except Error field.Content
  /-- The place of the next field. -/
  next : Cursor

namespace Cursor

/-- Read a field. If it is not there, the next one is read from the same place. -/
def read (cursor : Cursor) (field : Field) : Except Error field.Content × Cursor :=
  match field.scan cursor with
  | .ok (content, next) => (.ok content, next)
  | .error error => (.error error, cursor)

/-- Read fields one after the other. -/
def readAll (cursor : Cursor) : List Field → List FieldRead
  | [] => []
  | field :: fields =>
      let outcome := cursor.read field
      ⟨field, outcome.1, outcome.2⟩ :: outcome.2.readAll fields

end Cursor
end CodeScope

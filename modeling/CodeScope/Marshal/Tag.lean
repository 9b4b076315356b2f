import CodeScope.Value.Basic

/-!
# Tags

Every value of a marshal stream starts with a tag byte. Its low seven bits are the tag; bit 7 asks
for a slot in the reference table. Tags that introduce a body of their own can have a slot; the
empty tag, the constants and the references have none, whatever their bit 7.
-/

namespace CodeScope

/-- How the characters of a text are written. -/
inductive TextForm where
  /-- UTF-8 after a length of four bytes. -/
  | utf8
  /-- One byte per character after a length of four bytes. -/
  | latin1
  /-- One byte per character after a length of one byte. -/
  | shortLatin1
  deriving DecidableEq, Repr

/-- How a floating-point number is written. -/
inductive FloatForm where
  /-- A decimal literal after a length of one byte. -/
  | decimal
  /-- Eight bytes. -/
  | binary
  deriving DecidableEq, Repr

/-- The form of a value with a body after its tag. -/
inductive BodyForm where
  | int32
  | int64
  | long
  | float (form : FloatForm)
  | complex (form : FloatForm)
  | bytes
  /-- A text; an interned one is recorded for later use. -/
  | text (form : TextForm) (interned : Bool)
  /-- A tuple; a short one has a length of one byte. -/
  | tuple (short : Bool)
  | list
  | set
  | frozenSet
  | dict
  | code
  deriving DecidableEq, Repr

/-- What a tag introduces. -/
inductive Tag where
  /-- No value: the end of a dictionary. -/
  | null
  /-- A value that the tag alone determines. -/
  | constant (value : Value)
  /-- The value of a slot. -/
  | reference
  /-- An interned text. -/
  | internedText
  /-- A value with a body. -/
  | body (form : BodyForm)

namespace Tag

/-- The byte of the empty tag. -/
def nullByte : UInt8 := 0x30

/-- The tag that a character stands for. -/
def ofChar? : Char → Option Tag
  | '0' => some .null
  | 'N' => some (.constant .none)
  | 'F' => some (.constant (.bool false))
  | 'T' => some (.constant (.bool true))
  | 'S' => some (.constant .stopIteration)
  | '.' => some (.constant .ellipsis)
  | 'r' => some .reference
  | 'R' => some .internedText
  | 'i' => some (.body .int32)
  | 'I' => some (.body .int64)
  | 'l' => some (.body .long)
  | 'f' => some (.body (.float .decimal))
  | 'g' => some (.body (.float .binary))
  | 'x' => some (.body (.complex .decimal))
  | 'y' => some (.body (.complex .binary))
  | 's' => some (.body .bytes)
  | 'u' => some (.body (.text .utf8 false))
  | 't' => some (.body (.text .utf8 true))
  | 'a' => some (.body (.text .latin1 false))
  | 'A' => some (.body (.text .latin1 true))
  | 'z' => some (.body (.text .shortLatin1 false))
  | 'Z' => some (.body (.text .shortLatin1 true))
  | '(' => some (.body (.tuple false))
  | ')' => some (.body (.tuple true))
  | '[' => some (.body .list)
  | '<' => some (.body .set)
  | '>' => some (.body .frozenSet)
  | '{' => some (.body .dict)
  | 'c' => some (.body .code)
  | _ => none

/-- The tag in the low seven bits of a byte. -/
def ofByte? (byte : UInt8) : Option Tag :=
  ofChar? (Char.ofNat (byte.toNat % 128))

end Tag

/-- Where a value starts. -/
structure TagSite where
  /-- Tag byte without bit 7. -/
  tag : UInt8
  /-- Offset of the tag byte. -/
  offset : Nat
  deriving DecidableEq, Repr

namespace TagSite

/-- The error of a value that is malformed. -/
def malformed (site : TagSite) : Error := .malformedValue site.tag site.offset

end TagSite
end CodeScope

import CodeScope.Marshal.Script
import CodeScope.Number.Literal
import CodeScope.Text.Blank
import CodeScope.Text.Latin1
import CodeScope.Text.Utf8

/-!
# Values without elements

Reading the bodies of numbers, byte strings and texts.
-/

namespace CodeScope
namespace Script

/-- A length of four bytes, which must not be negative. -/
def length (site : TagSite) : Script Nat := do
  let length := (← i32).toInt
  if length < 0 then fail site.malformed else return length.toNat

/-- Number of bits in a digit of a long integer. -/
def longShift : Nat := 15

/-- The base of the digits of a long integer. -/
def longBase : Nat := 0x8000

/-- A digit of a long integer. -/
def longDigit (site : TagSite) : Script Nat := do
  let digit ← number 2
  if digit < longBase then return digit else fail site.malformed

/--
The number with the given digits, the least significant first. It is put together from the other
end.
-/
def ofLongDigits (digits : List Nat) : Nat :=
  digits.reverse.foldl (fun number digit => number <<< longShift ||| digit) 0

/-- An integer of any size. The number of its digits carries its sign. -/
def long (site : TagSite) : Script Int := do
  let count := (← i32).toInt
  let digits ← times (longDigit site) count.natAbs
  let magnitude : Int := ofLongDigits digits
  return if count < 0 then -magnitude else magnitude

/-- A floating-point number that is written as a decimal literal. -/
def decimalFloat (offset : Nat) : Script Binary64 := do
  let size ← number 1
  let data ← bytes size
  match (Utf8.decode? data).bind fun content => Binary64.ofLiteral? (Blank.trim content) with
  | some value => return value
  | none => fail (.malformedValue 0x66 offset)

/-- A floating-point number. -/
def float (offset : Nat) : FloatForm → Script Binary64
  | .decimal => decimalFloat offset
  | .binary => do return Binary64.mk (UInt64.ofNat (← number 8))

/-- A byte string after its length. -/
def byteString (site : TagSite) : Script Bytes := do
  let size ← length site
  bytes size

/-- The characters of a text. -/
def text (site : TagSite) : TextForm → Script String
  | .utf8 => do return String.ofList (Utf8.decode (← byteString site))
  | .latin1 => do return String.ofList (Latin1.decode (← byteString site))
  | .shortLatin1 => do
      let size ← number 1
      let data ← bytes size
      return String.ofList (Latin1.decode data)

end Script
end CodeScope

/-!
# Hexadecimal text

Digits and fixed-width numerals in base sixteen, as they appear in error messages, escapes and
headers.
-/

namespace CodeScope
namespace Hex

/-- The lower-case digit of a number below sixteen. -/
def digit (value : Nat) : Char :=
  if value < 10 then Char.ofNat (48 + value) else Char.ofNat (87 + value)

/-- The two lower-case digits of a byte. -/
def byte (value : UInt8) : String :=
  String.ofList [digit (value.toNat / 16), digit (value.toNat % 16)]

/-- The bytes of a string, two digits each. -/
def bytes (data : List UInt8) : String :=
  String.join (data.map byte)

/-- The numeral of a number without leading zeros. -/
def numeral (value : Nat) : String :=
  String.ofList (Nat.toDigits 16 value)

/-- The upper-case numeral of a number, filled with zeros to at least `width` digits. -/
def upperNumeral (width value : Nat) : String :=
  let digits := (Nat.toDigits 16 value).map Char.toUpper
  String.ofList (List.replicate (width - digits.length) '0' ++ digits)

end Hex
end CodeScope

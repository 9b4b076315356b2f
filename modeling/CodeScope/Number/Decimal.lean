/-!
# Decimal numbers

A natural number times a power of ten, and its two ways of writing: with all its digits, or with
one digit before the point and an exponent.
-/

namespace CodeScope

/-- A power of ten. -/
def powerOfTen (exponent : Nat) : Nat := Nat.pow 10 exponent

/-- The number `digits` times ten to the power `exponent`. -/
structure Decimal where
  /-- The digits, as a number. -/
  digits : Nat
  /-- The power of ten of the last digit. -/
  exponent : Int
  deriving DecidableEq, Repr

namespace Decimal

/-- The digits as characters. -/
def numeral (value : Decimal) : List Char :=
  Nat.toDigits 10 value.digits

/-- The power of ten of the first digit. -/
def magnitude (value : Decimal) : Int :=
  value.exponent + value.numeral.length - 1

/-- Move zeros at the end of the digits into the exponent, at most `rounds` of them. -/
def shorten : Nat → Decimal → Decimal
  | 0, value => value
  | rounds + 1, value =>
      if value.digits ≠ 0 ∧ value.digits % 10 = 0 then
        shorten rounds ⟨value.digits / 10, value.exponent + 1⟩
      else
        value

/-- All digits, with a point before those of negative powers of ten. -/
def positional (value : Decimal) : String :=
  let digits := value.numeral
  if 0 ≤ value.exponent then
    String.ofList (digits ++ List.replicate value.exponent.toNat '0')
  else
    let places := (-value.exponent).toNat
    let padded := List.replicate (places + 1 - digits.length) '0' ++ digits
    let wholeLength := padded.length - places
    String.ofList (padded.take wholeLength ++ '.' :: padded.drop wholeLength)

/-- One digit, a point before the other digits if there are any, and the signed exponent. -/
def scientific (value : Decimal) : String :=
  let magnitude := value.magnitude
  let sign := if magnitude < 0 then "-" else "+"
  let size := magnitude.natAbs
  let point := match value.numeral with
    | first :: second :: rest => first :: '.' :: second :: rest
    | digits => digits
  String.ofList point ++ s!"e{sign}{size}"

end Decimal
end CodeScope

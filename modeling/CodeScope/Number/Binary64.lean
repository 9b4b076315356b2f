import CodeScope.Number.Decimal
import CodeScope.Number.Rounding

/-!
# Binary floating-point numbers

A number in the binary format of 64 bits: a sign, an exponent of 11 bits and a fraction of 52 bits.
A finite number is its significand times a power of two, so its arithmetic is exact arithmetic of
natural numbers followed by one rounding.
-/

namespace CodeScope

/-- A binary floating-point number of 64 bits. -/
structure Binary64 where
  /-- Sign, exponent field and fraction, the sign being the highest bit. -/
  bits : UInt64
  deriving DecidableEq, Repr, Inhabited

namespace Binary64

/-- The weight of the sign bit. -/
def signWeight : Nat := 1 <<< 63

/-- The weight of the lowest bit of the exponent field, one more than the greatest fraction. -/
def exponentWeight : Nat := 1 <<< 52

/-- Whether the sign bit is set. -/
def isNegative (value : Binary64) : Bool :=
  signWeight ≤ value.bits.toNat

/-- The eleven bits after the sign. -/
def exponentField (value : Binary64) : Nat :=
  value.bits.toNat / exponentWeight % 2048

/-- The last 52 bits. -/
def fraction (value : Binary64) : Nat :=
  value.bits.toNat % exponentWeight

/-- Whether the value is no number. -/
def isNaN (value : Binary64) : Bool :=
  value.exponentField = 2047 && value.fraction != 0

/-- Whether the value is infinite. -/
def isInfinite (value : Binary64) : Bool :=
  value.exponentField = 2047 && value.fraction == 0

/-- Whether the value is zero, with either sign. -/
def isZero (value : Binary64) : Bool :=
  value.bits.toNat % signWeight = 0

/-- The integer that a finite number multiplies a power of two with. -/
def significand (value : Binary64) : Nat :=
  if value.exponentField = 0 then value.fraction else exponentWeight + value.fraction

/-- The exponent of the power of two in a finite number. -/
def exponent (value : Binary64) : Int :=
  (max value.exponentField 1 : Nat) - 1075

/-- Numerical equality: nothing equals what is no number, and the two zeros are equal. -/
def agrees (left right : Binary64) : Bool :=
  !left.isNaN && !right.isNaN && (left.bits == right.bits || (left.isZero && right.isZero))

/-- The value without its sign. -/
def abs (value : Binary64) : Binary64 :=
  ⟨UInt64.ofNat (value.bits.toNat % signWeight)⟩

/-- The value with its sign set if `negative` holds and its magnitude kept. -/
def withSign (negative : Bool) (value : Binary64) : Binary64 :=
  if negative then ⟨UInt64.ofNat (value.abs.bits.toNat + signWeight)⟩ else value.abs

/-- Positive infinity. -/
def infinity : Binary64 := ⟨0x7FF0000000000000⟩

/-- The value that is no number, in its usual form. -/
def notANumber : Binary64 := ⟨0x7FF8000000000000⟩

/-- Numerator of the magnitude of a finite number. -/
def numerator (value : Binary64) : Nat :=
  value.significand <<< value.exponent.toNat

/-- Denominator of the magnitude of a finite number, a power of two. -/
def denominator (value : Binary64) : Nat :=
  1 <<< (-value.exponent).toNat

/-- The magnitude of a finite number that is whole. -/
def whole? (value : Binary64) : Option Nat :=
  if value.numerator % value.denominator = 0 then
    some (value.numerator / value.denominator)
  else
    none

/-- The exponent of the greatest power of two that is at most a positive quotient. -/
def floorLog2 (numerator denominator : Nat) : Int :=
  let guess : Int := (Nat.log2 numerator : Int) - Nat.log2 denominator
  if denominator <<< guess.toNat ≤ numerator <<< (-guess).toNat then guess else guess - 1

/--
The nearest value to a quotient; of two equally near ones, that with the even significand. A
quotient beyond the greatest number becomes infinite.
-/
def ofRatio (numerator denominator : Nat) : Binary64 :=
  if numerator = 0 then
    ⟨0⟩
  else
    let exponent := max (floorLog2 numerator denominator - 52) (-1074)
    let significand :=
      Rounding.halfEven (numerator <<< (-exponent).toNat) (denominator <<< exponent.toNat)
    let bits := (exponent + 1074).toNat * exponentWeight + significand
    if bits < 2047 * exponentWeight then ⟨UInt64.ofNat bits⟩ else infinity

/-- The nearest value to a power of ten times a natural number. -/
def ofDecimal (digits : Nat) (exponent : Int) : Binary64 :=
  let top := exponent + (Nat.toDigits 10 digits).length
  if digits = 0 ∨ top < -330 then
    ⟨0⟩
  else if 310 < top then
    infinity
  else
    ofRatio (digits * powerOfTen exponent.toNat) (powerOfTen (-exponent).toNat)

/-- The nearest value to the sum of two finite numbers without sign. -/
def addMagnitudes (left right : Binary64) : Binary64 :=
  ofRatio (left.numerator * right.denominator + right.numerator * left.denominator)
    (left.denominator * right.denominator)

/-- The nearest value to the product of two finite numbers without sign. -/
def mulMagnitudes (left right : Binary64) : Binary64 :=
  ofRatio (left.numerator * right.numerator) (left.denominator * right.denominator)

end Binary64
end CodeScope

import CodeScope.Number.Binary64
import CodeScope.Number.Decimal

/-!
# Shortest decimals

The decimal with the fewest digits that rounds to a given binary number, and the nearest to it
among those. A binary number is the value of every real number between its half-way points to its
neighbours, the two half-way points included exactly when its significand is even. For one, two, …
seventeen digits the two decimals next to the number are tested; the first length with a hit wins.
-/

namespace CodeScope

/-- Which of two equally near decimals is taken. -/
inductive Tie where
  /-- The greater one. -/
  | up
  /-- The one whose last digit is even. -/
  | even
  deriving DecidableEq, Repr

namespace Binary64

/-- The exponent of the greatest power of ten that is at most a positive quotient. -/
def floorLog10 (numerator denominator : Nat) : Int :=
  let length (number : Nat) : Int := (Nat.toDigits 10 number).length
  let guess := length numerator - length denominator
  if denominator * powerOfTen guess.toNat ≤ numerator * powerOfTen (-guess).toNat then
    guess
  else
    guess - 1

/-- The real numbers that round to a positive binary number, in quarters of its last place. -/
structure RoundingInterval where
  /-- The number itself. -/
  center : Nat
  /-- The half-way point to the number before it. -/
  low : Nat
  /-- The half-way point to the number after it. -/
  high : Nat
  /-- Whether the half-way points round to the number. -/
  closed : Bool

/-- The interval of a positive finite number. A power of two lies nearer to its predecessor. -/
def roundingInterval (value : Binary64) : RoundingInterval :=
  let center := 4 * value.significand
  let below := if value.fraction = 0 ∧ 1 < value.exponentField then 1 else 2
  ⟨center, center - below, center + 2, value.significand % 2 = 0⟩

/-- Whether `low`, `number` and `high` are in this order, the ends being allowed if `closed`. -/
def liesWithin (closed : Bool) (low number high : Nat) : Bool :=
  if closed then low ≤ number && number ≤ high else low < number && number < high

/--
A decimal that rounds to the value, if one of the two next to it does. Its last digit counts powers
of ten with the given exponent.
-/
def decimalAt (tie : Tie) (value : Binary64) (exponent : Int) : Option Decimal :=
  let interval := value.roundingInterval
  let unit := powerOfTen exponent.toNat <<< (2 - value.exponent).toNat
  let scale := powerOfTen (-exponent).toNat <<< (value.exponent - 2).toNat
  let center := interval.center * scale
  let fits (digits : Nat) : Bool :=
    liesWithin interval.closed (interval.low * scale) (digits * unit) (interval.high * scale)
  let lower := center / unit
  let upper := lower + 1
  let nearer := match compare (2 * (center % unit)) unit with
    | .lt => lower
    | .gt => upper
    | .eq => match tie with
      | .up => upper
      | .even => lower + lower % 2
  match fits lower, fits upper with
  | true, true => some ⟨nearer, exponent⟩
  | true, false => some ⟨lower, exponent⟩
  | false, true => some ⟨upper, exponent⟩
  | false, false => none

/-- The shortest decimal of the magnitude of a finite number. -/
def shortest (tie : Tie) (value : Binary64) : Decimal :=
  if value.isZero then
    ⟨0, 0⟩
  else
    let top := floorLog10 value.numerator value.denominator
    match (List.range 17).findSome? fun (extra : Nat) => value.decimalAt tie (top - extra) with
    | some decimal => decimal.shorten 17
    | none => ⟨0, 0⟩

/-- The magnitude of a finite number rounded to `places` places after the point. -/
def roundedTo (places : Nat) (value : Binary64) : Decimal :=
  ⟨Rounding.halfEven (value.numerator * powerOfTen places) value.denominator, -places⟩

end Binary64
end CodeScope

import CodeScope.Number.Binary64

/-!
# Decimal literals

Reading a floating-point number from text: an optional sign, then digits with an optional point and
an optional exponent, or one of the words for infinity and for no number in any case. The result is
the binary number nearest to the literal.
-/

namespace CodeScope
namespace Binary64

/-- Whether a literal starts with a minus, and what follows its sign. -/
def splitSign : List Char → Bool × List Char
  | '-' :: rest => (true, rest)
  | '+' :: rest => (false, rest)
  | text => (false, text)

/-- The number that decimal digits write. -/
def ofDigits (digits : List Char) : Nat :=
  digits.foldl (fun number digit => 10 * number + (digit.toNat - 48)) 0

/-- The exponent at the end of a literal; an empty end stands for zero. -/
def exponent? : List Char → Option Int
  | [] => some 0
  | mark :: rest =>
      let (negative, digits) := splitSign rest
      if (mark = 'e' ∨ mark = 'E') ∧ digits ≠ [] ∧ digits.all Char.isDigit then
        some (if negative then -ofDigits digits else ofDigits digits)
      else
        none

/-- The nearest value to an unsigned numeral with an optional point and exponent. -/
def ofNumeral? (text : List Char) : Option Binary64 := do
  let whole := text.takeWhile Char.isDigit
  let rest := text.dropWhile Char.isDigit
  let (fraction, rest) := match rest with
    | '.' :: rest => (rest.takeWhile Char.isDigit, rest.dropWhile Char.isDigit)
    | rest => ([], rest)
  if whole.isEmpty && fraction.isEmpty then
    none
  else
    let exponent ← exponent? rest
    return ofDecimal (ofDigits (whole ++ fraction)) (exponent - fraction.length)

/-- The value of an unsigned literal. -/
def ofUnsigned? (text : List Char) : Option Binary64 :=
  let word := String.ofList (text.map Char.toLower)
  if word = "inf" ∨ word = "infinity" then
    some infinity
  else if word = "nan" then
    some notANumber
  else
    ofNumeral? text

/-- The value of a literal. -/
def ofLiteral? (text : List Char) : Option Binary64 :=
  let (negative, rest) := splitSign text
  (ofUnsigned? rest).map (withSign negative)

end Binary64
end CodeScope

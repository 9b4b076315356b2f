import CodeScope.Number.Shortest
import CodeScope.Text.Latin1
import CodeScope.Text.Quoted
import CodeScope.Value.Basic

/-!
# Text of values

The text of a value as it appears in listings. Containers are written with brackets and their
elements in stream order; a code unit is written by its plain name.
-/

namespace CodeScope
namespace Binary64

/-- The sign, the shortest digits without an exponent, and the words for other values. -/
def plainText (value : Binary64) : String :=
  let sign := if value.isNegative then "-" else ""
  if value.isNaN then "NaN"
  else if value.isInfinite then sign ++ "inf"
  else sign ++ (value.shortest .up).positional

/-- As `plainText`, but a whole number below 10¹⁶ has one place after the point. -/
def floatText (value : Binary64) : String :=
  let sign := if value.isNegative then "-" else ""
  if value.isNaN then "nan"
  else if value.isInfinite then sign ++ "inf"
  else match value.whole? with
    | some whole => if whole < powerOfTen 16 then s!"{sign}{whole}.0" else value.plainText
    | none => value.plainText

/-- A complex number. A real part of positive zero is left out. -/
def complexText (real imaginary : Binary64) : String :=
  if real.isZero && !real.isNegative then
    imaginary.plainText ++ "j"
  else
    let sign := if imaginary.isNegative then "-" else "+"
    let magnitude := imaginary.abs
    s!"({real.plainText}{sign}{magnitude.plainText}j)"

end Binary64

namespace Value

/-- Texts separated by commas. -/
def commaSeparated (texts : List String) : String :=
  String.intercalate ", " texts

mutual

/-- The text of a value. -/
def repr : Value → String
  | none => "None"
  | bool true => "True"
  | bool false => "False"
  | stopIteration => "StopIteration"
  | ellipsis => "Ellipsis"
  | int32 value => toString value.toInt
  | int64 value => toString value.toInt
  | long value => toString value
  | float value => value.floatText
  | complex real imaginary => Binary64.complexText real imaginary
  | bytes data => "b" ++ String.ofList (Quoted.encode true (Latin1.decode data))
  | text content _ => String.ofList (Quoted.encode false content.toList)
  | tuple [item] => "(" ++ repr item ++ ",)"
  | tuple items => "(" ++ commaSeparated (reprAll items) ++ ")"
  | list items => "[" ++ commaSeparated (reprAll items) ++ "]"
  | dict entries => "\x7b" ++ commaSeparated (reprEntries entries) ++ "\x7d"
  | set [] => "set()"
  | set items => "\x7b" ++ commaSeparated (reprAll items) ++ "\x7d"
  | frozenSet [] => "frozenset()"
  | frozenSet items => "frozenset(\x7b" ++ commaSeparated (reprAll items) ++ "\x7d)"
  | reference slot => "<ref " ++ toString slot.toNat ++ ">"
  | code info _ => "<code:" ++ info.name ++ ">"

/-- The texts of values. -/
def reprAll : List Value → List String
  | [] => []
  | value :: rest => repr value :: reprAll rest

/-- The texts of keys with their values. -/
def reprEntries : List (Value × Value) → List String
  | [] => []
  | (key, value) :: rest => (repr key ++ ": " ++ repr value) :: reprEntries rest

end

end Value
end CodeScope

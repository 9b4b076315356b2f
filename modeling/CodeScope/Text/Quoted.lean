import CodeScope.Text.Hex

/-!
# Quoted text

Text between quotes. Double quotes are taken when the text holds a single one and no double one.
The quote itself, the backslash and characters that would not show are written with a backslash.
-/

namespace CodeScope
namespace Quoted

/-- The quote that delimits a text. -/
def delimiter (text : List Char) : Char :=
  if text.contains '\'' && !text.contains '"' then '"' else '\''

/--
A character inside quotes. With `ascii`, characters beyond the seven-bit ones are escaped too; they
must be below 256 then.
-/
def escape (ascii : Bool) (quote char : Char) : List Char :=
  let code := char.toNat
  if char = '\\' then ['\\', '\\']
  else if char = '\n' then ['\\', 'n']
  else if char = '\r' then ['\\', 'r']
  else if char = '\t' then ['\\', 't']
  else if char = quote then ['\\', quote]
  else if code < 0x20 ∨ code = 0x7F ∨ (ascii ∧ 0x7F < code) then
    ['\\', 'x', Hex.digit (code / 16), Hex.digit (code % 16)]
  else [char]

/-- A text with its quotes and escapes. -/
def encode (ascii : Bool) (text : List Char) : List Char :=
  let quote := delimiter text
  quote :: text.flatMap (escape ascii quote) ++ [quote]

end Quoted
end CodeScope

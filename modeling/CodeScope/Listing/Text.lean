import CodeScope.Listing.Basic
import CodeScope.Text.Columns
import CodeScope.Text.Lines
import CodeScope.Value.Repr

/-!
# Text of listings

A heading shows the name of a unit and its first line. A line shows the source line, the offset, the
mnemonic, the argument and what it stands for, each in its column. The listing of a nested unit
follows that of its parent after a blank line.
-/

namespace CodeScope
namespace Operand

/-- What an operand shows after the number of its argument. -/
def text : Operand → String
  | const value => " (" ++ value.repr ++ ")"
  | name found | localVar found | freeVar found => " (" ++ found ++ ")"
  | target offset => s!" (to {offset})"
  | number _ => ""
  | unknown => " (<unknown>)"

end Operand

namespace ListingLine

/-- The text of a line. Without an argument it ends with the mnemonic. -/
def text (line : ListingLine) : String :=
  let source := Columns.right 5 (toString line.span.line)
  let offset := Columns.right 6 (toString line.instruction.start)
  let mnemonic := line.opcode.name
  let columns := source ++ offset ++ "  "
  match line.instruction.argument with
  | none => columns ++ mnemonic
  | some argument =>
      let number := Columns.right 5 (toString argument.toNat)
      let operand := (line.operand.map Operand.text).getD ""
      columns ++ Columns.left 30 mnemonic ++ number ++ operand

end ListingLine

namespace Listing

/-- The heading of a unit with a name and a first line. -/
def heading (name : String) (firstLine : Int32) : String :=
  let line := firstLine.toInt
  s!"Disassembly of <code:{name}> (line {line}):"

mutual

/-- The lines of the text of a listing. -/
def textLines : Listing → List String
  | node name firstLine lines children =>
      heading name firstLine :: lines.map ListingLine.text ++ childLines children

/-- The lines of the text of nested listings, a blank one before each. -/
def childLines : List Listing → List String
  | [] => []
  | listing :: rest => "" :: listing.textLines ++ childLines rest

end

/-- The text of a listing. -/
def text (listing : Listing) : String :=
  unlines listing.textLines

end Listing
end CodeScope

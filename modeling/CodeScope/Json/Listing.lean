import CodeScope.Handler
import CodeScope.Json.Value
import CodeScope.Listing.Basic

/-!
# Listings as JSON

Listings, source positions and exception handlers as documents.
-/

namespace CodeScope

/-- The fields of a span, in their order. -/
def Span.members (span : Span) : List (String × Json) :=
  [("line", .int span.line), ("end_line", .int span.endLine), ("col", .int span.column),
    ("end_col", .int span.endColumn)]

/-- A source position as a document. -/
def Position.toJson (position : Position) : Json :=
  .object (("offset", .nat position.offset) :: position.span.members)

/-- An exception handler as a document. -/
def Handler.toJson (handler : Handler) : Json :=
  .object [("start", .nat handler.start), ("end", .nat handler.stop),
    ("target", .nat handler.target), ("depth", .nat handler.depth), ("lasti", .bool handler.lasti)]

/-- An operand as a document. -/
def Operand.toJson : Operand → Json
  | const value => Json.variant "Const" value.toJson
  | name found => Json.variant "Name" (.text found)
  | localVar found => Json.variant "Local" (.text found)
  | freeVar found => Json.variant "Free" (.text found)
  | target offset => Json.variant "Jump" (.nat offset)
  | number value => Json.variant "Raw" (.nat value.toNat)
  | unknown => .text "Unresolvable"

/-- A line of a listing as a document. -/
def ListingLine.toJson (line : ListingLine) : Json :=
  let instruction := line.instruction
  .object (
    [("offset", .nat instruction.start), ("end", .nat instruction.stop)] ++
    line.span.members ++
    [("op", .nat instruction.opcode.toNat), ("name", .text line.opcode.name),
      ("arg", Json.option (instruction.argument.map fun argument => .nat argument.toNat)),
      ("argval", Json.option (line.operand.map Operand.toJson))])

namespace Listing

mutual

/-- A listing as a document. -/
def toJson : Listing → Json
  | node name firstLine lines children =>
      .object [("name", .text name), ("first_line", .int firstLine.toInt),
        ("opcodes", .array (lines.map ListingLine.toJson)),
        ("children", .array (toJsonAll children))]

/-- Listings as documents. -/
def toJsonAll : List Listing → List Json
  | [] => []
  | listing :: rest => listing.toJson :: toJsonAll rest

end

end Listing
end CodeScope

/-!
# Columns

Alignment of text in columns. A text wider than its column is never cut.
-/

namespace CodeScope
namespace Columns

/-- Blanks that fill a text up to `width` characters. -/
def fill (width : Nat) (text : String) : String :=
  String.ofList (List.replicate (width - text.length) ' ')

/-- A text at the left of its column. -/
def left (width : Nat) (text : String) : String :=
  text ++ fill width text

/-- A text at the right of its column. -/
def right (width : Nat) (text : String) : String :=
  fill width text ++ text

end Columns
end CodeScope

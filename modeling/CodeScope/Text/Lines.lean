/-!
# Lines

Text that consists of whole lines.
-/

namespace CodeScope

/-- Lines with a line feed after each. -/
def unlines (lines : List String) : String :=
  String.join (lines.map fun line => line ++ "\n")

end CodeScope

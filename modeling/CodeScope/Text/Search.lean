/-!
# Search

Finding one run of characters inside another.
-/

namespace CodeScope
namespace Search

/-- Whether `pattern` stands somewhere in a list of characters. -/
def occurs (pattern : List Char) : List Char → Bool
  | [] => pattern.isEmpty
  | char :: rest => pattern.isPrefixOf (char :: rest) || occurs pattern rest

end Search
end CodeScope

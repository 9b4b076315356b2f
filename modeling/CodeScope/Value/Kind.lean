/-!
# Kinds of values

The kind of a value is what diagnostics call it. Integers have one kind, whatever their encoding.
-/

namespace CodeScope

/-- What a value is, without its content. -/
inductive ValueKind where
  | none
  | bool
  | stopIteration
  | ellipsis
  | int
  | float
  | complex
  | bytes
  | text
  | tuple
  | list
  | dict
  | set
  | frozenSet
  | reference
  | code
  deriving DecidableEq, Repr

namespace ValueKind

/-- The name of a kind in diagnostics. -/
def name : ValueKind → String
  | none => "None"
  | bool => "bool"
  | stopIteration => "StopIteration"
  | ellipsis => "ellipsis"
  | int => "int"
  | float => "float"
  | complex => "complex"
  | bytes => "bytes"
  | text => "str"
  | tuple => "tuple"
  | list => "list"
  | dict => "dict"
  | set => "set"
  | frozenSet => "frozenset"
  | reference => "ref"
  | code => "code"

end ValueKind
end CodeScope

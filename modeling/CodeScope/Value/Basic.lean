import CodeScope.Code.Info
import CodeScope.Number.Binary64
import CodeScope.Value.Kind

/-!
# Values

The values that a marshal stream holds. They form a tree: containers hold their elements in the
order of the stream, and a code unit holds its constants.
-/

namespace CodeScope

/-- A value of a marshal stream. -/
inductive Value where
  | none
  | bool (value : Bool)
  | stopIteration
  | ellipsis
  /-- An integer written in four bytes. -/
  | int32 (value : Int32)
  /-- An integer written in eight bytes. -/
  | int64 (value : Int64)
  /-- An integer of any size. -/
  | long (value : Int)
  | float (value : Binary64)
  | complex (real imaginary : Binary64)
  | bytes (data : Bytes)
  /-- A text; `interned` tells whether its writer shared it by name. -/
  | text (content : String) (interned : Bool)
  | tuple (items : List Value)
  | list (items : List Value)
  /-- Keys with their values. -/
  | dict (entries : List (Value × Value))
  | set (items : List Value)
  | frozenSet (items : List Value)
  /-- A reference to a container that was still being filled. -/
  | reference (slot : UInt32)
  | code (info : CodeInfo) (consts : List Value)
  deriving Inhabited

/-- A code unit. -/
structure CodeUnit extends CodeInfo where
  /-- Constants. -/
  consts : List Value

namespace CodeUnit

/-- The unit as a value. -/
def toValue (unit : CodeUnit) : Value :=
  .code unit.toCodeInfo unit.consts

end CodeUnit

namespace Value

/-- The kind of a value. -/
def kind : Value → ValueKind
  | none => .none
  | bool _ => .bool
  | stopIteration => .stopIteration
  | ellipsis => .ellipsis
  | int32 _ | int64 _ | long _ => .int
  | float _ => .float
  | complex _ _ => .complex
  | bytes _ => .bytes
  | text _ _ => .text
  | tuple _ => .tuple
  | list _ => .list
  | dict _ => .dict
  | set _ => .set
  | frozenSet _ => .frozenSet
  | reference _ => .reference
  | code _ _ => .code

/-- The integer that a value is, whatever its encoding. -/
def int? : Value → Option Int
  | int32 value => some value.toInt
  | int64 value => some value.toInt
  | long value => some value
  | _ => Option.none

/-- The integer that a value is, if eight bytes can hold it. -/
def int64? (value : Value) : Option Int :=
  value.int?.filter fun number => -0x8000000000000000 ≤ number && number < 0x8000000000000000

/-- The text that a value is. -/
def text? : Value → Option String
  | text content _ => some content
  | _ => Option.none

/-- The byte string that a value is. -/
def bytes? : Value → Option Bytes
  | bytes data => some data
  | _ => Option.none

/-- The items of a tuple or a list. -/
def items? : Value → Option (List Value)
  | tuple items | list items => some items
  | _ => Option.none

/-- The code unit that a value is. -/
def code? : Value → Option CodeUnit
  | code info consts => some ⟨info, consts⟩
  | _ => Option.none

end Value

namespace CodeUnit

/-- The code units directly among the constants. -/
def nested (unit : CodeUnit) : List CodeUnit :=
  unit.consts.filterMap Value.code?

end CodeUnit
end CodeScope

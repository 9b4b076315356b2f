import CodeScope.Text.Search
import CodeScope.Version

/-!
# Opcodes

An opcode has a number, a mnemonic and a rule for its argument. The opcodes of one version form a
table, in the order of their numbers.
-/

namespace CodeScope

/-- What the argument of an instruction stands for. -/
inductive ArgumentKind where
  /-- A number of its own, or no argument at all. -/
  | plain
  /-- An index into the constants. -/
  | const
  /-- An index into the names. -/
  | name
  /-- An index into the local variables. -/
  | localVar
  /-- An index into the cell and free variables. -/
  | freeVar
  /-- A distance from the end of the instruction. -/
  | relativeJump
  /-- A jump target. -/
  | absoluteJump
  deriving DecidableEq, Repr

namespace ArgumentKind

/-- Whether the argument names a place in the code. -/
def isJump : ArgumentKind → Bool
  | relativeJump | absoluteJump => true
  | _ => false

end ArgumentKind

/-- One operation of the interpreter. -/
structure Opcode where
  /-- Number in the wordcode. -/
  code : UInt8
  /-- Mnemonic. -/
  name : String
  /-- Meaning of the argument. -/
  argument : ArgumentKind
  deriving DecidableEq, Repr

namespace Opcode

/-- Opcodes from this number on carry an argument. -/
def firstWithArgument : UInt8 := 90

/-- The opcode that widens the argument of the instruction after it. -/
def extendedArgument : UInt8 := 144

/-- Whether the mnemonic marks a jump towards the start of the code. -/
def jumpsBackward (opcode : Opcode) : Bool :=
  Search.occurs "JUMP_BACKWARD".toList opcode.name.toList

end Opcode

/-- The opcodes of one version. -/
structure OpcodeTable where
  /-- Version that defines these opcodes. -/
  version : Version
  /-- Opcodes in the order of their numbers. -/
  opcodes : List Opcode

namespace OpcodeTable

/-- The opcode with a given number. -/
def find? (table : OpcodeTable) (code : UInt8) : Option Opcode :=
  table.opcodes.find? fun opcode => opcode.code == code

/-- The opcode with a given mnemonic. -/
def findName? (table : OpcodeTable) (name : String) : Option Opcode :=
  table.opcodes.find? fun opcode => opcode.name == name

/-- Number of opcodes. -/
def size (table : OpcodeTable) : Nat :=
  table.opcodes.length

end OpcodeTable
end CodeScope

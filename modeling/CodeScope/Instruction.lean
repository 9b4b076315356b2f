import CodeScope.Bytes.Cursor
import CodeScope.Opcode

/-!
# Instructions

Code is a sequence of words: an opcode and an argument byte. Words that widen an argument belong to
the instruction after them. The argument of an instruction is the number that the argument bytes of
its words write, the most significant first, modulo 2³². A byte without partner and widening words
without instruction at the end are left out.
-/

namespace CodeScope

/-- An instruction with the words that widen its argument. -/
structure Instruction where
  /-- Offset of the first word. -/
  start : Nat
  /-- Offset just after the last word. -/
  stop : Nat
  /-- Number of the opcode. -/
  opcode : UInt8
  /-- Argument, if the opcode has one. -/
  argument : Option UInt32
  deriving DecidableEq, Repr

namespace Instruction

/--
The instructions from `offset` on. The first of them began at `start`, and its words so far write
the number `high`.
-/
def decodeFrom (start offset : Nat) (high : UInt32) : Bytes → List Instruction
  | opcode :: low :: rest =>
      let number := high * 256 + low.toUInt32
      let next := offset + 2
      if opcode = Opcode.extendedArgument then
        decodeFrom start next number rest
      else
        let argument := if Opcode.firstWithArgument ≤ opcode then some number else none
        ⟨start, next, opcode, argument⟩ :: decodeFrom next next 0 rest
  | _ => []

/-- The instructions of a piece of code. -/
def decode (code : Bytes) : List Instruction :=
  decodeFrom 0 0 0 code

end Instruction
end CodeScope

import CodeScope.Instruction
import CodeScope.Position.Table

/-!
# Lines of a listing

A listing has one line for every instruction of a code unit: its opcode, its place in the source
and what its argument stands for. Inline cache slots are left out unless they are asked for.
-/

namespace CodeScope

/-- What the argument of an instruction stands for in its code unit. -/
inductive Operand where
  /-- A constant. -/
  | const (value : Value)
  /-- The name of a global or an attribute. -/
  | name (name : String)
  /-- The name of a local variable. -/
  | localVar (name : String)
  /-- The name of a cell or free variable. -/
  | freeVar (name : String)
  /-- The byte offset that an instruction jumps to. -/
  | target (offset : Nat)
  /-- A number of its own. -/
  | number (value : UInt32)
  /-- An index outside its table. -/
  | unknown

namespace Operand

/-- The target of a jump relative to the end of its instruction. -/
def relativeTarget (rule : JumpRule) (opcode : Opcode) (argument : UInt32) (stop : Nat) :
    Operand :=
  let distance := argument.toNat
  match rule with
  | .bytes => target (stop + distance)
  | .words =>
      if opcode.jumpsBackward then target (stop - 2 * distance) else target (stop + 2 * distance)
  | .absoluteWords => number argument

/-- The target of a jump that names its offset. -/
def absoluteTarget (rule : JumpRule) (argument : UInt32) : Operand :=
  match rule with
  | .bytes => target argument.toNat
  | .words | .absoluteWords => target (2 * argument.toNat)

/-- What an argument stands for, in an instruction that ends at `stop`. -/
def resolve (profile : Profile) (unit : CodeUnit) (opcode : Opcode) (stop : Nat)
    (argument : UInt32) : Operand :=
  let index := argument.toNat >>> profile.nameShift opcode.name
  match opcode.argument with
  | .const => (unit.consts[index]?.map const).getD unknown
  | .name => (unit.names[index]?.map name).getD unknown
  | .localVar => ((unit.locals.local? index).map localVar).getD unknown
  | .freeVar => ((unit.locals.free? index).map freeVar).getD unknown
  | .relativeJump => relativeTarget profile.jumpRule opcode argument stop
  | .absoluteJump => absoluteTarget profile.jumpRule argument
  | .plain => number argument

end Operand

/-- One line of a listing. -/
structure ListingLine where
  /-- The instruction. -/
  instruction : Instruction
  /-- Its opcode. -/
  opcode : Opcode
  /-- Its place in the source. -/
  span : Span
  /-- What its argument stands for, if it has one. -/
  operand : Option Operand

namespace ListingLine

/-- The code unit that the instruction takes from the constants. -/
def code? (line : ListingLine) : Option CodeUnit :=
  match line.operand with
  | some (.const value) => value.code?
  | _ => none

end ListingLine

/-- What a listing shows. -/
structure ListingOptions where
  /-- Whether the code units among the constants are listed too. -/
  nested : Bool
  /-- Whether inline cache slots are shown. -/
  keepCaches : Bool
  deriving DecidableEq, Repr

namespace CodeUnit

/-- The instructions that a listing shows. -/
def listedInstructions (unit : CodeUnit) (profile : Profile) (options : ListingOptions) :
    List Instruction :=
  (Instruction.decode unit.code).filter fun instruction =>
    options.keepCaches || !profile.isCache instruction.opcode

/-- The opcode of an instruction. -/
def opcodeOf (profile : Profile) (instruction : Instruction) : Except Error Opcode :=
  match profile.opcodes.find? instruction.opcode with
  | some opcode => .ok opcode
  | none => .error (.unknownOpcode instruction.opcode profile.version instruction.start)

/-- The lines of instructions, with a cursor before the first of them. -/
def linesFrom (unit : CodeUnit) (profile : Profile) :
    PositionCursor → List Instruction → Except Error (List ListingLine)
  | _, [] => .ok []
  | cursor, instruction :: rest => do
      let opcode ← opcodeOf profile instruction
      let (position, cursor) ← cursor.get instruction.start
      let operand := instruction.argument.map (Operand.resolve profile unit opcode instruction.stop)
      let lines ← linesFrom unit profile cursor rest
      return ⟨instruction, opcode, position.span, operand⟩ :: lines

/-- The lines of a code unit without those of nested ones. -/
def lines (unit : CodeUnit) (options : ListingOptions) : Except Error (List ListingLine) := do
  let profile ← Profile.ofVersion unit.version
  let table ← PositionTable.ofUnit unit
  unit.linesFrom profile (PositionCursor.start table) (unit.listedInstructions profile options)

end CodeUnit
end CodeScope

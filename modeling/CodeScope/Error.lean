import CodeScope.Text.Hex
import CodeScope.Value.Kind
import CodeScope.Version

/-!
# Errors

Why a compiled module, one of its values or one of its tables cannot be read. An error is a cause
with its data; `Error.message` alone decides its wording.
-/

namespace CodeScope

/-- Values may be nested this many levels deep in a stream, the top-level value being one. -/
def nestingLimit : Nat := 2000

/-- What is wrong with the header of a compiled module. -/
inductive HeaderFault where
  /-- The file holds only `size` bytes. -/
  | tooShort (size : Nat)
  /-- The magic number is cut off. -/
  | magicTooShort
  /-- The magic number is not followed by a carriage return and a line feed. -/
  | lineEnding
  deriving DecidableEq, Repr

namespace HeaderFault

/-- Wording of a header fault. -/
def message : HeaderFault → String
  | tooShort size => s!"need 16 bytes, got {size}"
  | magicTooShort => "magic number needs 2 bytes"
  | lineEnding => "magic number not followed by \\r\\n"

end HeaderFault

/-- A part of a code unit that can be malformed. -/
inductive CodeField where
  | argcount
  | posonlyargcount
  | kwonlyargcount
  | nlocals
  | stacksize
  | code
  | consts
  | names
  | varnames
  | freevars
  | cellvars
  | localNames
  | localKinds
  | filename
  | name
  | qualname
  | lineDeltas
  | linetable
  | exceptiontable
  /-- The whole unit, where a module must hold one. -/
  | unit
  /-- An entry of the location table. -/
  | location
  /-- An entry of the exception table. -/
  | handler
  deriving DecidableEq, Repr

namespace CodeField

/-- The name of a part of a code unit in diagnostics. -/
def label : CodeField → String
  | argcount => "argcount"
  | posonlyargcount => "posonlyargcount"
  | kwonlyargcount => "kwonlyargcount"
  | nlocals => "nlocals"
  | stacksize => "stacksize"
  | code => "code"
  | consts => "consts"
  | names => "names"
  | varnames => "varnames"
  | freevars => "freevars"
  | cellvars => "cellvars"
  | localNames => "localsplusnames"
  | localKinds => "localspluskinds"
  | filename => "filename"
  | name => "name"
  | qualname => "qualname"
  | lineDeltas => "lnotab"
  | linetable => "linetable"
  | exceptiontable => "exceptiontable"
  | unit => "<module>"
  | location => "co_linetable"
  | handler => "co_exceptiontable"

end CodeField

/-- What is wrong with a part of a code unit. -/
inductive CodeFault where
  /-- A count is below zero. -/
  | negativeCount (count : Int32)
  /-- A byte string is wanted. -/
  | notBytes (actual : ValueKind)
  /-- A text is wanted. -/
  | notText (actual : ValueKind)
  /-- A tuple is wanted. -/
  | notTuple (actual : ValueKind)
  /-- An item of a tuple of names is no text. -/
  | notName (actual : ValueKind)
  /-- The variable names and their kinds differ in number. -/
  | kindCount (kinds names : Nat)
  /-- A module holds a value that is no code unit. -/
  | notCode (actual : ValueKind)
  /-- The column byte of a short location entry is 128 or more. -/
  | columnByte (byte : UInt8)
  /-- A number of an exception table is 2³² or more. -/
  | tooLarge
  deriving DecidableEq, Repr

namespace CodeFault

/-- Wording of a fault in a code unit. -/
def message : CodeFault → String
  | negativeCount count =>
      let count := count.toInt
      s!"negative count {count}"
  | notBytes actual => s!"expected bytes, got {actual.name}"
  | notText actual => s!"expected str, got {actual.name}"
  | notTuple actual => s!"expected tuple, got {actual.name}"
  | notName actual => s!"expected str item, got {actual.name}"
  | kindCount kinds names => s!"{kinds} kinds for {names} names"
  | notCode actual => s!"top-level value is {actual.name}, not code"
  | columnByte byte => s!"short entry column byte 0x{Hex.byte byte} has its top bit set"
  | tooLarge => "varint overflows 32 bits"

end CodeFault

/-- Why an input cannot be read. -/
inductive Error where
  /-- No supported version writes this magic number. -/
  | unknownMagic (magic : UInt16)
  /-- There is no profile of this version. -/
  | unsupportedVersion (version : Version)
  /-- The header of a compiled module is malformed. -/
  | invalidHeader (fault : HeaderFault)
  /-- The value whose tag stands at `offset` is malformed, or the tag is unknown. -/
  | malformedValue (tag : UInt8) (offset : Nat)
  /-- The data ends before the `needed` bytes at `offset`. -/
  | truncated (needed offset : Nat)
  /-- Bytes are left after the top-level value. -/
  | trailingData (remaining : Nat)
  /-- A reference names a slot that was never reserved. -/
  | invalidReference (index : UInt32)
  /-- A reference names a value that encloses it and cannot be shared yet. -/
  | incompleteReference (index : UInt32)
  /-- The value at `offset` is nested too deeply. -/
  | nestedTooDeep (offset : Nat)
  /-- A part of a code unit is malformed. -/
  | malformedCode (field : CodeField) (fault : CodeFault)
  /-- The instruction at `offset` has a number that its version does not define. -/
  | unknownOpcode (opcode : UInt8) (version : Version) (offset : Nat)
  /-- A position is asked for before one that was already given. -/
  | positionRewind (requested current : Nat)
  /-- A file cannot be read. -/
  | unreadable (reason : String)
  deriving DecidableEq, Repr

namespace Error

/-- Wording of an error. -/
def message : Error → String
  | unknownMagic magic =>
      let numeral := Hex.upperNumeral 4 magic.toNat
      s!"unknown magic number: 0x{numeral}"
  | unsupportedVersion version => s!"unsupported python version {version.text}"
  | invalidHeader fault => s!"invalid pyc header: {fault.message}"
  | malformedValue tag offset =>
      let numeral := Hex.upperNumeral 2 tag.toNat
      s!"bad marshal data: unknown type code 0x{numeral} at offset {offset}"
  | truncated needed offset => s!"unexpected EOF: need {needed} bytes at {offset}"
  | trailingData remaining =>
      s!"trailing data: {remaining} bytes left after the top-level value"
  | invalidReference index =>
      let index := index.toNat
      s!"bad marshal data: invalid reference {index}"
  | incompleteReference index =>
      let index := index.toNat
      s!"bad marshal data: reference {index} to an incomplete value"
  | nestedTooDeep offset =>
      s!"bad marshal data: nesting deeper than {nestingLimit} levels at offset {offset}"
  | malformedCode field fault => s!"malformed code object field `{field.label}`: {fault.message}"
  | unknownOpcode opcode version offset =>
      let opcode := opcode.toNat
      s!"unknown opcode {opcode} for python {version.text} at offset {offset}"
  | positionRewind requested current =>
      s!"position table queried at offset {requested} after offset {current}"
  | unreadable reason => s!"io error: {reason}"

end Error
end CodeScope

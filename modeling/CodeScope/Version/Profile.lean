import CodeScope.Error
import CodeScope.Opcode.Table310
import CodeScope.Opcode.Table311
import CodeScope.Opcode.Table312
import CodeScope.Opcode.Table38
import CodeScope.Opcode.Table39

/-!
# Version profiles

A profile collects every choice that depends on the version. It is looked up once; no other module
inspects version numbers.
-/

namespace CodeScope

/-- The order of the fields of a code unit and the shape of its variable tables. -/
inductive CodeLayout where
  /-- Separate tables of local, free and cell variables. -/
  | split
  /-- One table of variables with a kind byte each, a qualified name and an exception table. -/
  | unified
  deriving DecidableEq, Repr

/-- The encoding of the table that maps code to source positions. -/
inductive PositionFormat where
  /-- Pairs whose line delta counts from the end of their bytes on. -/
  | lineDeltas
  /-- Pairs whose line delta counts for their own bytes. -/
  | lineRanges
  /-- Entries with columns. -/
  | locations
  deriving DecidableEq, Repr

/-- How the argument of a jump becomes a byte offset. -/
inductive JumpRule where
  /-- Arguments count bytes. -/
  | bytes
  /-- Arguments count words of two bytes. -/
  | words
  /-- Absolute jumps count words; relative ones are not resolved. -/
  | absoluteWords
  deriving DecidableEq, Repr

/-- Everything about compiled modules that depends on the version. -/
structure Profile where
  /-- The version itself. -/
  version : Version
  /-- Its opcodes. -/
  opcodes : OpcodeTable
  /-- Layout of its code units. -/
  layout : CodeLayout
  /-- Encoding of its position tables. -/
  positionFormat : PositionFormat
  /-- Whether its code units have an exception table. -/
  hasExceptionTable : Bool
  /-- The opcode of an inline cache slot. -/
  cacheOpcode : Option UInt8
  /-- Its rule for jumps. -/
  jumpRule : JumpRule
  /-- Mnemonics whose argument has flags in its low bits, and the number of these bits. -/
  nameShifts : List (String × Nat)

namespace Profile

/-- Version 3.8. -/
def version38 : Profile where
  version := ⟨3, 8⟩
  opcodes := OpcodeTable.table38
  layout := .split
  positionFormat := .lineDeltas
  hasExceptionTable := false
  cacheOpcode := none
  jumpRule := .bytes
  nameShifts := []

/-- Version 3.9. -/
def version39 : Profile where
  version := ⟨3, 9⟩
  opcodes := OpcodeTable.table39
  layout := .split
  positionFormat := .lineDeltas
  hasExceptionTable := false
  cacheOpcode := none
  jumpRule := .bytes
  nameShifts := []

/-- Version 3.10. -/
def version310 : Profile where
  version := ⟨3, 10⟩
  opcodes := OpcodeTable.table310
  layout := .split
  positionFormat := .lineRanges
  hasExceptionTable := false
  cacheOpcode := none
  jumpRule := .words
  nameShifts := []

/-- Version 3.11. -/
def version311 : Profile where
  version := ⟨3, 11⟩
  opcodes := OpcodeTable.table311
  layout := .unified
  positionFormat := .locations
  hasExceptionTable := true
  cacheOpcode := some 0
  jumpRule := .absoluteWords
  nameShifts := [("LOAD_GLOBAL", 1)]

/-- Version 3.12. -/
def version312 : Profile where
  version := ⟨3, 12⟩
  opcodes := OpcodeTable.table312
  layout := .unified
  positionFormat := .locations
  hasExceptionTable := true
  cacheOpcode := some 0
  jumpRule := .absoluteWords
  nameShifts := [("LOAD_GLOBAL", 1), ("LOAD_ATTR", 1), ("LOAD_SUPER_ATTR", 2)]

/-- The profiles of all supported versions, oldest first. -/
def all : List Profile :=
  [version38, version39, version310, version311, version312]

/-- The profile of a version. -/
def ofVersion (version : Version) : Except Error Profile :=
  match all.find? fun profile => profile.version == version with
  | some profile => .ok profile
  | none => .error (.unsupportedVersion version)

/-- Number of flag bits below the index in the argument of an instruction. -/
def nameShift (profile : Profile) (mnemonic : String) : Nat :=
  (profile.nameShifts.lookup mnemonic).getD 0

/-- Whether an opcode marks an inline cache slot. -/
def isCache (profile : Profile) (opcode : UInt8) : Bool :=
  profile.cacheOpcode == some opcode

end Profile
end CodeScope

import CodeScope.Code.Flags
import CodeScope.Code.Locals

/-!
# Code information

Everything in a code unit except its constants, which are values and may hold code units again.
-/

namespace CodeScope

/-- A code unit without its constants. -/
structure CodeInfo where
  /-- Offset of the tag that the unit was read from; it tells units of one stream apart. -/
  site : Nat
  /-- Version that the unit was written for. -/
  version : Version
  /-- Number of positional parameters. -/
  argcount : Nat
  /-- Number of parameters that are positional only. -/
  posonlyargcount : Nat
  /-- Number of parameters that are keyword only. -/
  kwonlyargcount : Nat
  /-- Number of local variables. -/
  nlocals : Nat
  /-- Stack that the unit needs. -/
  stacksize : Nat
  /-- Flag word. -/
  flags : CodeFlags
  /-- Wordcode. -/
  code : Bytes
  /-- Names of globals and attributes. -/
  names : List String
  /-- Variable tables. -/
  locals : Locals
  /-- Source file. -/
  filename : String
  /-- Plain name. -/
  name : String
  /-- Qualified name, if the version has one. -/
  qualname : Option String
  /-- First line of the source. -/
  firstLine : Int32
  /-- Table from code to source positions. -/
  linetable : Bytes
  /-- Table of protected ranges, empty where the version has none. -/
  exceptiontable : Bytes
  deriving DecidableEq, Repr

namespace CodeInfo

/-- The qualified name, or the plain name if there is none. -/
def displayName (info : CodeInfo) : String :=
  info.qualname.getD info.name

/-- Whether two units agree in everything but the place they were read from. -/
def agrees (left right : CodeInfo) : Bool :=
  { left with site := right.site } = right

end CodeInfo
end CodeScope

import CodeScope.Image.Basic
import CodeScope.Json.Document

/-!
# Values as JSON

Values, code units and compiled modules as documents. A value with content is an object with one
member, whose name is the kind of the value.
-/

namespace CodeScope

/-- A version as a document. -/
def Version.toJson (version : Version) : Json :=
  .object [("major", .nat version.major.toNat), ("minor", .nat version.minor.toNat)]

namespace Json

/-- A document with one member. -/
def variant (name : String) (content : Json) : Json := .object [(name, content)]

/-- The digits of a number in base 2³², the least significant first, at most `rounds` of them. -/
def wordDigits : Nat → Nat → List Json
  | 0, _ => []
  | rounds + 1, number =>
      if number = 0 then [] else nat (number % 0x100000000) :: wordDigits rounds (number >>> 32)

/-- An integer of any size as its sign and the digits of its magnitude in base 2³². -/
def signedDigits (number : Int) : Json :=
  let magnitude := number.natAbs
  array [int number.sign, array (wordDigits (Nat.log2 magnitude / 32 + 1) magnitude)]

end Json

/-- Variable tables as a document. -/
def Locals.toJson : Locals → Json
  | .split varnames cellvars freevars =>
      Json.variant "Split" (.object [("varnames", Json.texts varnames),
        ("cellvars", Json.texts cellvars), ("freevars", Json.texts freevars)])
  | .unified names kinds =>
      Json.variant "Unified" (.object [("names", Json.texts names), ("kinds", Json.bytes kinds)])

/-- A code unit as a document, given that of its constants. -/
def CodeInfo.toJson (info : CodeInfo) (consts : List Json) : Json :=
  .object [
    ("version", info.version.toJson),
    ("argcount", .nat info.argcount),
    ("posonlyargcount", .nat info.posonlyargcount),
    ("kwonlyargcount", .nat info.kwonlyargcount),
    ("nlocals", .nat info.nlocals),
    ("stacksize", .nat info.stacksize),
    ("flags", .text info.flags.text),
    ("code", Json.bytes info.code),
    ("consts", .array consts),
    ("names", Json.texts info.names),
    ("locals", info.locals.toJson),
    ("filename", .text info.filename),
    ("name", .text info.name),
    ("qualname", Json.option (info.qualname.map Json.text)),
    ("first_line", .int info.firstLine.toInt),
    ("linetable", Json.bytes info.linetable),
    ("exceptiontable", Json.bytes info.exceptiontable)]

namespace Value

mutual

/-- A value as a document. -/
def toJson : Value → Json
  | none => .text "None"
  | bool value => Json.variant "Bool" (.bool value)
  | stopIteration => .text "StopIteration"
  | ellipsis => .text "Ellipsis"
  | int32 value => Json.variant "Int" (.int value.toInt)
  | int64 value => Json.variant "Int64" (.int value.toInt)
  | long value => Json.variant "Long" (Json.signedDigits value)
  | float value => Json.variant "Float" (.float value)
  | complex real imaginary => Json.variant "Complex" (.array [.float real, .float imaginary])
  | bytes data => Json.variant "Bytes" (Json.bytes data)
  | text content interned =>
      Json.variant "Str" (.object [("value", .text content), ("interned", .bool interned)])
  | tuple items => Json.variant "Tuple" (.array (toJsonAll items))
  | list items => Json.variant "List" (.array (toJsonAll items))
  | dict entries => Json.variant "Dict" (.array (toJsonEntries entries))
  | set items => Json.variant "Set" (.array (toJsonAll items))
  | frozenSet items => Json.variant "FrozenSet" (.array (toJsonAll items))
  | reference slot => Json.variant "Ref" (.nat slot.toNat)
  | code info consts => Json.variant "Code" (info.toJson (toJsonAll consts))

/-- Values as documents. -/
def toJsonAll : List Value → List Json
  | [] => []
  | value :: rest => value.toJson :: toJsonAll rest

/-- Keys with their values as documents. -/
def toJsonEntries : List (Value × Value) → List Json
  | [] => []
  | (key, value) :: rest => .array [key.toJson, value.toJson] :: toJsonEntries rest

end

end Value

/-- A code unit as a document. -/
def CodeUnit.toJson (unit : CodeUnit) : Json :=
  unit.toCodeInfo.toJson (Value.toJsonAll unit.consts)

/-- The data about the source as a document. -/
def Invalidation.toJson : Invalidation → Json
  | .timestamp mtime sourceSize =>
      Json.variant "Timestamp"
        (.object [("mtime", .nat mtime.toNat), ("source_size", .nat sourceSize.toNat)])
  | .hash checkSource digest =>
      Json.variant "Hash"
        (.object [("check_source", .bool checkSource), ("hash", Json.bytes digest)])

/-- A header as a document. -/
def Header.toJson (header : Header) : Json :=
  .object [
    ("magic", .nat header.magic.toNat),
    ("version", header.version.toJson),
    ("flags", .nat header.flags.toNat),
    ("invalidation", header.invalidation.toJson)]

/-- A compiled module as a document. -/
def Image.toJson (image : Image) : Json :=
  .object [("header", image.header.toJson), ("code", image.code.toJson)]

end CodeScope

import CodeScope.Marshal.Script
import CodeScope.Text.Latin1
import CodeScope.Version.Profile

/-!
# Code units in a stream

A code unit is a sequence of counts and values whose order depends on the layout of its version.
Each value must have the kind of its field.
-/

namespace CodeScope
namespace Script

/-- A count of four bytes, which must not be negative. -/
def count (field : CodeField) : Script Nat := do
  let count ← i32
  if count.toInt < 0 then
    fail (.malformedCode field (.negativeCount count))
  else
    return count.toInt.toNat

/-- A field that holds a byte string. -/
def bytesField (field : CodeField) : Script Bytes := do
  match ← required with
  | .bytes data => return data
  | other => fail (.malformedCode field (.notBytes other.kind))

/-- A field that holds a text; a byte string is taken as its characters. -/
def textField (field : CodeField) : Script String := do
  match ← required with
  | .text content _ => return content
  | .bytes data => return String.ofList (Latin1.decode data)
  | other => fail (.malformedCode field (.notText other.kind))

/-- A field that holds a sequence; nothing is taken as an empty one. -/
def tupleField (field : CodeField) : Script (List Value) := do
  match ← required with
  | .tuple items => return items
  | .list items => return items
  | .none => return []
  | other => fail (.malformedCode field (.notTuple other.kind))

/-- The names in a list of values, if all of them are texts. -/
def namesOf (field : CodeField) : List Value → Except Error (List String)
  | [] => .ok []
  | .text content _ :: rest => (content :: ·) <$> namesOf field rest
  | other :: _ => .error (.malformedCode field (.notName other.kind))

/-- A field that holds a sequence of texts. -/
def namesField (field : CodeField) : Script (List String) := do
  let items ← tupleField field
  match namesOf field items with
  | .ok names => return names
  | .error error => fail error

/-- A code unit with separate variable tables. -/
def splitCode (version : Version) (site : Nat) : Script CodeUnit := do
  let argcount ← count .argcount
  let posonlyargcount ← count .posonlyargcount
  let kwonlyargcount ← count .kwonlyargcount
  let nlocals ← count .nlocals
  let stacksize ← count .stacksize
  let flags := UInt32.ofNat (← number 4)
  let code ← bytesField .code
  let consts ← tupleField .consts
  let names ← namesField .names
  let varnames ← namesField .varnames
  let freevars ← namesField .freevars
  let cellvars ← namesField .cellvars
  let filename ← textField .filename
  let name ← textField .name
  let firstLine ← i32
  let linetable ← bytesField .lineDeltas
  return {
    site, version, argcount, posonlyargcount, kwonlyargcount, nlocals, stacksize, code, consts
    names, filename, name, firstLine, linetable
    flags := ⟨flags⟩
    locals := .split varnames cellvars freevars
    qualname := none
    exceptiontable := [] }

/-- A code unit with one variable table. -/
def unifiedCode (version : Version) (site : Nat) : Script CodeUnit := do
  let argcount ← count .argcount
  let posonlyargcount ← count .posonlyargcount
  let kwonlyargcount ← count .kwonlyargcount
  let stacksize ← count .stacksize
  let flags := UInt32.ofNat (← number 4)
  let code ← bytesField .code
  let consts ← tupleField .consts
  let names ← namesField .names
  let localNames ← namesField .localNames
  let kinds ← bytesField .localKinds
  if kinds.length ≠ localNames.length then
    fail (.malformedCode .localKinds (.kindCount kinds.length localNames.length))
  let filename ← textField .filename
  let name ← textField .name
  let qualname ← textField .qualname
  let firstLine ← i32
  let linetable ← bytesField .linetable
  let exceptiontable ← bytesField .exceptiontable
  return {
    site, version, argcount, posonlyargcount, kwonlyargcount, stacksize, code, consts, names
    filename, name, firstLine, linetable, exceptiontable
    nlocals := kinds.countP fun kind => VariableKind.localVar.isIn kind
    flags := ⟨flags⟩
    locals := .unified localNames kinds
    qualname := some qualname }

/-- A code unit in the layout of a version. -/
def code (profile : Profile) (site : Nat) : Script CodeUnit :=
  match profile.layout with
  | .split => splitCode profile.version site
  | .unified => unifiedCode profile.version site

end Script
end CodeScope

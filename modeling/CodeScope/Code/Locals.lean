import CodeScope.Bytes.Cursor

/-!
# Variable tables

The names of the variables of a code unit. Local, cell and free variables have a table each, or
they share one in which every name has a kind byte. In the shared table a name can be a variable of
several kinds.
-/

namespace CodeScope

/-- A kind of variable. -/
inductive VariableKind where
  | localVar
  | cell
  | free
  deriving DecidableEq, Repr

namespace VariableKind

/-- The bit of a kind in the kind byte of a variable. -/
def bit : VariableKind → Nat
  | localVar => 5
  | cell => 6
  | free => 7

/-- Whether a kind byte says that its variable is of this kind. -/
def isIn (kind : VariableKind) (byte : UInt8) : Bool :=
  byte.toNat.testBit kind.bit

end VariableKind

/-- The variable names of a code unit. -/
inductive Locals where
  /-- A table for each kind of variable. -/
  | split (varnames cellvars freevars : List String)
  /-- One table, with the kinds of each variable. -/
  | unified (names : List String) (kinds : Bytes)
  deriving DecidableEq, Repr

namespace Locals

/-- The names in a shared table whose variables are of a kind. -/
def ofKind (kind : VariableKind) (names : List String) (kinds : Bytes) : List String :=
  (names.zip kinds).filterMap fun (name, byte) => if kind.isIn byte then some name else none

/-- Names of the local variables. -/
def varnames : Locals → List String
  | split varnames _ _ => varnames
  | unified names kinds => ofKind .localVar names kinds

/-- Names of the local variables that nested code uses. -/
def cellvars : Locals → List String
  | split _ cellvars _ => cellvars
  | unified names kinds => ofKind .cell names kinds

/-- Names of the variables of enclosing code. -/
def freevars : Locals → List String
  | split _ _ freevars => freevars
  | unified names kinds => ofKind .free names kinds

/-- The name that an index into the local variables stands for. -/
def local? (locals : Locals) (index : Nat) : Option String :=
  match locals with
  | split varnames _ _ => varnames[index]?
  | unified names _ => names[index]?

/--
The name that an index into the cell and free variables stands for. Separate tables are indexed as
if the free variables followed the cell variables.
-/
def free? (locals : Locals) (index : Nat) : Option String :=
  match locals with
  | split _ cellvars freevars => (cellvars ++ freevars)[index]?
  | unified names _ => names[index]?

end Locals
end CodeScope

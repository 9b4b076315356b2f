/-!
# Printing

A part of a run prints texts one after the other. It ends with a result or it fails, and what it has
printed by then stays.
-/

namespace CodeScope

/-- A part of a run that prints. Its state is the text on standard output. -/
abbrev Printing (Failure : Type) := EStateM Failure String

namespace Printing

variable {Failure : Type}

/-- Print a text. -/
def print (text : String) : Printing Failure Unit := fun output => .ok () (output ++ text)

/-- Go on with a result, or fail as it does. -/
def attempt {α : Type} (result : Except Failure α) : Printing Failure α := fun output =>
  match result with
  | .ok value => .ok value output
  | .error failure => .error failure output

/-- Print a table under a heading, if there is one. -/
def printTable {α : Type} (heading : String) (describe : α → String) :
    Option α → Printing Failure Unit
  | none => pure ()
  | some table => do
      print heading
      print (describe table)

end Printing
end CodeScope

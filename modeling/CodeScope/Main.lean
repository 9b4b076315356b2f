import CodeScope.CommandLine.Run
import CodeScope.Report.Duration

/-!
# Main program

The program reads files and standard input, prints what the command line asks for and returns its
exit status.
-/

namespace CodeScope

/-- The wording of an error of the system. -/
def reasonOf : IO.Error → String
  | .noFileOrDirectory .. => "No such file or directory (os error 2)"
  | .permissionDenied .. => "Permission denied (os error 13)"
  | .inappropriateType .. => "Is a directory (os error 21)"
  | other => toString other

/-- What an action gives, or why it failed. -/
def attemptRead (action : IO ByteArray) : IO (Except String Bytes) := do
  try
    return .ok (← action).toList
  catch error =>
    return .error (reasonOf error)

/-- The content of a file, or why it cannot be read. -/
def readFile (path : String) : IO (Except String Bytes) :=
  attemptRead (IO.FS.readBinFile path)

/-- Everything on standard input, or why it cannot be read. -/
def readStdin : IO (Except String Bytes) :=
  attemptRead do (← IO.getStdin).readBinToEnd

/-- The surroundings in which one input can be read. -/
def surroundingsOf (input : String) : IO Surroundings := do
  if input = "-" then
    return ⟨fun _ => .ok [], ← readStdin⟩
  else
    let content ← readFile input
    return ⟨fun _ => content, .ok []⟩

/-- Print what an input gives and the time that it took; the result tells whether it succeeded. -/
def runInput (options : Options) (input : String) : IO Bool := do
  let started ← IO.monoNanosNow
  match options.processInput (← surroundingsOf input) input "" with
  | .ok () printed =>
      IO.print printed
      if options.has .time && !options.has .summary then
        let elapsed : Duration := ⟨(← IO.monoNanosNow) - started⟩
        IO.eprintln s!"⏱️  {elapsed.text}"
      return true
  | .error failure printed =>
      IO.print printed
      IO.eprintln failure.line
      return false

/-- Process inputs up to the first one that fails; the result is the exit status. -/
def runInputs (options : Options) : List String → IO UInt32
  | [] => return 0
  | input :: rest => do
      if ← runInput options input then runInputs options rest else return 1

end CodeScope

open CodeScope in
/-- Do what the arguments ask for. -/
def main (arguments : List String) : IO UInt32 := do
  match Request.ofArguments arguments with
  | .run options =>
      match options.check with
      | .ok () => runInputs options options.inputs
      | .error failure =>
          IO.eprintln failure.line
          return 1
  | .rejected =>
      IO.eprintln "Usage: pyclens-dis [OPTIONS] [INPUTS]..."
      return 2
  | request =>
      IO.print (request.outcome ⟨fun _ => .ok [], .ok []⟩).output
      return 0

/-!
# Command line options

Arguments are read from left to right. The first one that asks for the version or the help text, or
that cannot be accepted, decides the outcome. A switch may be given once; only the one for more
messages may be repeated. After two hyphens every argument is an input.
-/

namespace CodeScope

/-- A switch that may be given once. -/
inductive Switch where
  /-- List nested code units too. -/
  | tree
  /-- Print documents instead of text. -/
  | json
  /-- Print source positions. -/
  | lines
  /-- Print exception handlers. -/
  | exceptions
  /-- Print constants and names. -/
  | consts
  /-- Print one line for each input. -/
  | summary
  /-- Show inline cache slots. -/
  | keepCaches
  /-- Report the time that each input took. -/
  | time
  deriving DecidableEq, Repr

namespace Switch

/-- The switch with a name. -/
def ofName? : String → Option Switch
  | "--tree" => some .tree
  | "--json" => some .json
  | "--lines" => some .lines
  | "--exceptions" => some .exceptions
  | "--consts" => some .consts
  | "--summary" => some .summary
  | "--keep-caches" => some .keepCaches
  | "--time" => some .time
  | _ => none

end Switch

/-- What the command line asks for. -/
structure Options where
  /-- Switches that are on. -/
  switches : List Switch
  /-- Number of requests for more messages. -/
  verbosity : Nat
  /-- Files, or a hyphen for standard input. -/
  inputs : List String
  deriving DecidableEq, Repr, Inhabited

/-- The outcome of reading the arguments. -/
inductive Request where
  /-- Work on inputs. -/
  | run (options : Options)
  /-- Print the help text. -/
  | help
  /-- Print the version. -/
  | version
  /-- The arguments cannot be accepted. -/
  | rejected
  deriving DecidableEq, Repr

namespace Options

/-- No switches and no inputs. -/
def empty : Options := ⟨[], 0, []⟩

/-- Whether a switch is on. -/
def has (options : Options) (switch : Switch) : Bool :=
  options.switches.contains switch

/-- Turn a switch on. -/
def turnOn (options : Options) (switch : Switch) : Options :=
  { options with switches := switch :: options.switches }

/-- Add inputs after those before. -/
def addInputs (options : Options) (inputs : List String) : Options :=
  { options with inputs := options.inputs ++ inputs }

/-- Ask for more messages. -/
def addVerbosity (options : Options) : Options :=
  { options with verbosity := options.verbosity + 1 }

/-- Read the letters after one hyphen. -/
def readLetters (options : Options) : List Char → Except Request Options
  | [] => .ok options
  | 'v' :: rest => readLetters options.addVerbosity rest
  | 'V' :: _ => .error .version
  | 'h' :: _ => .error .help
  | _ => .error .rejected

/-- Read an argument that starts with two hyphens. -/
def readName (options : Options) (name : String) : Except Request Options :=
  match Switch.ofName? name with
  | some switch => if options.has switch then .error .rejected else .ok (options.turnOn switch)
  | none =>
      if name = "--verbose" then .ok options.addVerbosity
      else if name = "--version" then .error .version
      else if name = "--help" then .error .help
      else .error .rejected

/-- Read one argument. -/
def readArgument (options : Options) (argument : String) : Except Request Options :=
  match argument.toList with
  | '-' :: '-' :: _ => options.readName argument
  | '-' :: letter :: rest => options.readLetters (letter :: rest)
  | _ => .ok (options.addInputs [argument])

/-- Read arguments after those that gave `options`. -/
def readArguments (options : Options) : List String → Except Request Options
  | [] => .ok options
  | "--" :: rest => .ok (options.addInputs rest)
  | argument :: rest => do
      let options ← options.readArgument argument
      options.readArguments rest

end Options

namespace Request

/-- What arguments ask for. A summary excludes a document. -/
def ofArguments (arguments : List String) : Request :=
  match Options.empty.readArguments arguments with
  | .error request => request
  | .ok options => if options.has .summary && options.has .json then rejected else run options

end Request
end CodeScope

import CodeScope.CommandLine.Options
import CodeScope.CommandLine.Printing
import CodeScope.Report.Basic
import CodeScope.Report.Text

/-!
# Command line

What the command line prints. Inputs are processed in their order. All that can fail about an input
comes before the first text that is printed about it; the first input that fails ends the run, and
what has been printed stays.
-/

namespace CodeScope

/-- Version of this program. -/
def programVersion : String := "0.1.0"

/-- The line that a tool shows about itself. -/
def banner (tool : String) : String := s!"{tool} (pyclens {programVersion})"

/-- Why a run ends early. -/
inductive Failure where
  /-- There is no input. -/
  | noInput
  /-- Standard input is one of several inputs. -/
  | sharedStdin
  /-- Standard input cannot be read. -/
  | unreadableStdin (reason : String)
  /-- A file cannot be read. -/
  | unreadable (name reason : String)
  /-- An input holds no module. -/
  | notLoaded (name : String) (error : Error)
  /-- A module cannot be listed. -/
  | notListed (name : String) (error : Error)
  /-- A table that was asked for is malformed. -/
  | badTable (error : Error)
  deriving DecidableEq, Repr

namespace Failure

/-- Wording of a failure. -/
def message : Failure → String
  | noInput => "Aucune entrée. Exemple: pyclens-dis mod.pyc --tree"
  | sharedStdin => "stdin ('-') doit être l'unique entrée"
  | unreadableStdin reason => s!"Lecture stdin échouée: {reason}"
  | unreadable name reason => s!"Lecture échouée: {name}: {reason}"
  | notLoaded name error => s!"Chargement échoué: {name}: {error.message}"
  | notListed name error => s!"Désassemblage échoué: {name}: {error.message}"
  | badTable error => error.message

/-- The line that tells a failure. -/
def line (failure : Failure) : String := "❌ " ++ failure.message

end Failure

/-- What a run leaves behind. -/
structure Outcome where
  /-- Exit status. -/
  status : Nat
  /-- Text on standard output. -/
  output : String
  /-- The line that tells why the run failed. -/
  failure : Option String
  deriving DecidableEq, Repr

/-- What is left behind by a run that has printed and ended or failed. -/
def Outcome.ofEnd : EStateM.Result Failure String Unit → Outcome
  | .ok () output => ⟨0, output, none⟩
  | .error failure output => ⟨1, output, some failure.line⟩

/-- The files and the standard input that a run can read. -/
structure Surroundings where
  /-- The content of a file, or why it cannot be read. -/
  file : String → Except String Bytes
  /-- Standard input, or why it cannot be read. -/
  stdin : Except String Bytes

namespace Options

/-- What the listing of an input shows. -/
def listingOptions (options : Options) : ListingOptions :=
  ⟨options.has .tree, options.has .keepCaches⟩

/-- Print the parts of a report on an input with a name. -/
def printReport (options : Options) (name : String) (report : Report) : Printing Failure Unit := do
  Printing.print (report.image.header.describe name)
  if options.has .consts then
    Printing.print report.image.code.describeConsts
  Printing.print "\n"
  Printing.print report.listing.text
  Printing.printTable "\n" Position.describeAll report.positions
  Printing.printTable "\nExceptionTable:\n" Handler.describeAll report.handlers

/-- Print what is asked for about a module with a name and its listing. -/
def printListed (options : Options) (name : String) (image : Image) (listing : Listing) :
    Printing Failure Unit :=
  if options.has .summary then
    Printing.print (image.summary name listing ++ "\n")
  else do
    let report ← Printing.attempt ((Report.ofListing image listing (options.has .lines)
      (options.has .exceptions)).mapError Failure.badTable)
    if options.has .json then
      Printing.print ((report.toJson name).pretty ++ "\n")
    else
      options.printReport name report

/-- Print what is asked for about an input with a name and a content. -/
def process (options : Options) (name : String) (content : Bytes) : Printing Failure Unit := do
  let image ← Printing.attempt ((Image.ofBytes content).mapError (Failure.notLoaded name))
  let listing ← Printing.attempt
    ((image.code.listing options.listingOptions).mapError (Failure.notListed name))
  options.printListed name image listing

/-- The name under which an input is shown, and its content. -/
def read (surroundings : Surroundings) (input : String) : Except Failure (String × Bytes) :=
  if input = "-" then
    match surroundings.stdin with
    | .ok content => .ok ("<stdin>", content)
    | .error reason => .error (.unreadableStdin reason)
  else
    match surroundings.file input with
    | .ok content => .ok (input, content)
    | .error reason => .error (.unreadable input reason)

/-- Print what is asked for about one input. -/
def processInput (options : Options) (surroundings : Surroundings) (input : String) :
    Printing Failure Unit := do
  let (name, content) ← Printing.attempt (read surroundings input)
  options.process name content

/-- Whether the inputs can be processed at all. -/
def check (options : Options) : Except Failure Unit :=
  if options.inputs.isEmpty then
    .error .noInput
  else if 1 < options.inputs.length && options.inputs.contains "-" then
    .error .sharedStdin
  else
    .ok ()

/-- Print what is asked for about inputs, up to the first one that fails. -/
def processInputs (options : Options) (surroundings : Surroundings) :
    List String → Printing Failure Unit
  | [] => pure ()
  | input :: rest => do
      options.processInput surroundings input
      options.processInputs surroundings rest

/-- Check the inputs and print what is asked for about them. -/
def processAll (options : Options) (surroundings : Surroundings) : Printing Failure Unit := do
  Printing.attempt options.check
  options.processInputs surroundings options.inputs

/-- The outcome of a run on all inputs. -/
def run (options : Options) (surroundings : Surroundings) : Outcome :=
  .ofEnd (options.processAll surroundings "")

end Options

namespace Request

/-- The help text. -/
def helpText : String :=
  unlines [
    "Désassembleur .pyc (CPython 3.8 → 3.12) vers texte/JSON",
    "",
    "Usage: pyclens-dis [OPTIONS] [INPUTS]...",
    "",
    "Arguments:",
    "  [INPUTS]...  Fichier(s) .pyc à analyser (ou '-' pour stdin, unique)",
    "",
    "Options:",
    "      --tree         Désassemble récursivement les code objects imbriqués",
    "      --json         Affiche un JSON structuré sur stdout",
    "      --lines        Affiche la table de positions brute",
    "      --exceptions   Affiche la table d'exceptions",
    "      --consts       Affiche constantes et noms du code de premier niveau",
    "      --summary      Résumé 1 ligne par fichier (pas de listing)",
    "      --keep-caches  Conserve les mots CACHE dans le listing",
    "      --time         Affiche la durée de traitement",
    "  -v, --verbose...   Verbosité des logs (-v info, -vv debug, -vvv trace)",
    "  -h, --help         Print help",
    "  -V, --version      Print version"]

/-- The outcome of a request. -/
def outcome (request : Request) (surroundings : Surroundings) : Outcome :=
  match request with
  | run options => options.run surroundings
  | help => ⟨0, helpText, none⟩
  | version => ⟨0, s!"pyclens-dis {programVersion}\n", none⟩
  | rejected => ⟨2, "", none⟩

end Request
end CodeScope

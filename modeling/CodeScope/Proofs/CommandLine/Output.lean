import CodeScope.CommandLine.Run
import CodeScope.Proofs.Listing.Located

/-!
# The output of a run

Whatever can fail about an input fails before anything is printed about it, and nothing is carried
over from one input to the next. So a run prints what is printed about each input alone, up to the
first one that fails. Under a summary an input that has been loaded fails only if it has no listing:
no table is decoded, and a listing reads no further than its last instruction.
-/

namespace CodeScope
namespace Printing

variable {Failure α : Type} {part next : Printing Failure Unit} {result : Except Failure String}

/-- The end of a part that prints a whole text, or else fails and prints nothing. -/
def settle (result : Except Failure String) (output : String) :
    EStateM.Result Failure String Unit :=
  match result with
  | .ok text => .ok () (output ++ text)
  | .error failure => .error failure output

/-- A part that prints a whole text wherever it stands, or else fails and prints nothing. -/
def Settles (part : Printing Failure Unit) (result : Except Failure String) : Prop :=
  ∀ output, part output = settle result output

/-- A part that prints a whole text and does not fail. -/
def Prints (part : Printing Failure Unit) : Prop :=
  ∃ text, part.Settles (.ok text)

namespace Prints

theorem nothing : Prints (pure () : Printing Failure Unit) :=
  ⟨"", fun _ => congrArg (EStateM.Result.ok ()) (String.append_empty).symm⟩

theorem print (text : String) : Prints (Printing.print text : Printing Failure Unit) :=
  ⟨text, fun _ => rfl⟩

theorem andThen (first : part.Prints) (second : next.Prints) : Prints (part >>= fun _ => next) := by
  obtain ⟨front, settlesFirst⟩ := first
  obtain ⟨back, settlesSecond⟩ := second
  refine ⟨front ++ back, fun output => ?_⟩
  have sequence : (part >>= fun _ => next) output = next (output ++ front) := by
    simp only [bind, EStateM.bind, settlesFirst output, settle]
  rw [sequence, settlesSecond, settle, settle, String.append_assoc]

theorem printTable (heading : String) (describe : α → String) (table : Option α) :
    Prints (Printing.printTable heading describe table : Printing Failure Unit) := by
  cases table with
  | none => exact nothing
  | some table => exact (print heading).andThen (print (describe table))

end Prints

section Attempt

variable {stage : Except Failure α} {further : α → Printing Failure Unit}

theorem attempt_of_ok {value : α} (succeeded : stage = .ok value) :
    (attempt stage >>= further) = further value := by
  subst succeeded
  rfl

theorem settles_attempt_of_error {failure : Failure} (failed : stage = .error failure) :
    Settles (attempt stage >>= further) (.error failure) := by
  subst failed
  exact fun _ => rfl

end Attempt
end Printing

namespace Report

variable {image : Image} {listing : Listing} {positions handlers : Bool} {error : Error}

/-- Why a table that is wanted cannot be decoded. Positions come before handlers. -/
inductive Undecodable (unit : CodeUnit) (positions handlers : Bool) (error : Error) : Prop
  | positions (wanted : positions = true)
      (failed : PositionTable.ofUnit unit >>= PositionTable.positions = .error error)
  | handlers {found : Option (List Position)} (before : positionsOf unit positions = .ok found)
      (wanted : handlers = true)
      (failed : Handler.ofUnit unit >>= HandlerCursor.readAll = .error error)

/-- A decoded table that is optional fails as its decoding does. -/
theorem some_bind_eq_error_iff {α β : Type} {cursor : Except Error α}
    {decode : α → Except Error β} :
    (do let start ← cursor; return some (← decode start)) = .error error ↔
      cursor >>= decode = .error error := by
  cases cursor with
  | error other => simp [bind, Except.bind]
  | ok start =>
      cases decoded : decode start <;> simp [bind, Except.bind, pure, Except.pure, decoded]

theorem positionsOf_eq_error_iff {unit : CodeUnit} {wanted : Bool} :
    positionsOf unit wanted = .error error ↔
      wanted = true ∧ PositionTable.ofUnit unit >>= PositionTable.positions = .error error := by
  cases wanted with
  | false => simp [positionsOf]
  | true => simpa [positionsOf] using some_bind_eq_error_iff

theorem handlersOf_eq_error_iff {unit : CodeUnit} {wanted : Bool} :
    handlersOf unit wanted = .error error ↔
      wanted = true ∧ Handler.ofUnit unit >>= HandlerCursor.readAll = .error error := by
  cases wanted with
  | false => simp [handlersOf]
  | true => simpa [handlersOf] using some_bind_eq_error_iff

theorem ofListing_eq_error_iff :
    ofListing image listing positions handlers = .error error ↔
      Undecodable image.code positions handlers error := by
  constructor
  · intro failed
    cases before : positionsOf image.code positions with
    | error other =>
        rw [ofListing, before] at failed
        cases failed
        obtain ⟨wanted, failed⟩ := positionsOf_eq_error_iff.mp before
        exact .positions wanted failed
    | ok found =>
        cases after : handlersOf image.code handlers with
        | error other =>
            rw [ofListing, before, after] at failed
            cases failed
            obtain ⟨wanted, failed⟩ := handlersOf_eq_error_iff.mp after
            exact .handlers before wanted failed
        | ok entries =>
            rw [ofListing, before, after] at failed
            cases failed
  · intro undecodable
    cases undecodable with
    | positions wanted failed =>
        rw [ofListing, positionsOf_eq_error_iff.mpr ⟨wanted, failed⟩]
        rfl
    | handlers before wanted failed =>
        rw [ofListing, before, handlersOf_eq_error_iff.mpr ⟨wanted, failed⟩]
        rfl

end Report

namespace Surroundings

/-- The name under which an input is shown, and the content that can be read of it. -/
inductive Supplies (surroundings : Surroundings) : String → String → Bytes → Prop
  | stdin {content : Bytes} (given : surroundings.stdin = .ok content) :
      Supplies surroundings "-" "<stdin>" content
  | file {input : String} {content : Bytes} (isFile : input ≠ "-")
      (given : surroundings.file input = .ok content) :
      Supplies surroundings input input content

/-- Why an input cannot be read. -/
inductive Withholds (surroundings : Surroundings) : String → Failure → Prop
  | stdin {reason : String} (refused : surroundings.stdin = .error reason) :
      Withholds surroundings "-" (.unreadableStdin reason)
  | file {input reason : String} (isFile : input ≠ "-")
      (refused : surroundings.file input = .error reason) :
      Withholds surroundings input (.unreadable input reason)

theorem supplies_or_withholds (surroundings : Surroundings) (input : String) :
    (∃ name content, surroundings.Supplies input name content) ∨
      ∃ failure, surroundings.Withholds input failure := by
  by_cases isStdin : input = "-"
  · subst isStdin
    cases given : surroundings.stdin with
    | ok content => exact .inl ⟨_, content, .stdin given⟩
    | error reason => exact .inr ⟨_, .stdin given⟩
  · cases given : surroundings.file input with
    | ok content => exact .inl ⟨_, content, .file isStdin given⟩
    | error reason => exact .inr ⟨_, .file isStdin given⟩

end Surroundings

namespace Options

open Printing

variable {options : Options} {surroundings : Surroundings} {input : String}

theorem read_of_supplies {name : String} {content : Bytes}
    (found : surroundings.Supplies input name content) :
    read surroundings input = .ok (name, content) := by
  cases found with
  | stdin given => rw [read, if_pos rfl, given]
  | file isFile given => rw [read, if_neg isFile, given]

theorem read_of_withholds {failure : Failure} (withheld : surroundings.Withholds input failure) :
    read surroundings input = .error failure := by
  cases withheld with
  | stdin refused => rw [read, if_pos rfl, refused]
  | file isFile refused => rw [read, if_neg isFile, refused]

/-- Why an input fails. -/
inductive Fails (options : Options) (surroundings : Surroundings) (input : String) :
    Failure → Prop
  | unreadable {failure : Failure} (withheld : surroundings.Withholds input failure) :
      Fails options surroundings input failure
  | notLoaded {name : String} {content : Bytes} {error : Error}
      (found : surroundings.Supplies input name content)
      (failed : Image.ofBytes content = .error error) :
      Fails options surroundings input (.notLoaded name error)
  | notListed {name : String} {content : Bytes} {image : Image} {error : Error}
      (found : surroundings.Supplies input name content)
      (loaded : Image.ofBytes content = .ok image)
      (failed : image.code.listing options.listingOptions = .error error) :
      Fails options surroundings input (.notListed name error)
  | badTable {name : String} {content : Bytes} {image : Image} {listing : Listing} {error : Error}
      (found : surroundings.Supplies input name content)
      (loaded : Image.ofBytes content = .ok image)
      (listed : image.code.listing options.listingOptions = .ok listing)
      (notSummary : options.has .summary = false)
      (failed : Report.Undecodable image.code (options.has .lines) (options.has .exceptions)
        error) :
      Fails options surroundings input (.badTable error)

theorem prints_printReport (name : String) (report : Report) :
    (options.printReport name report).Prints := by
  have handlers : Prints (printTable "\nExceptionTable:\n" Handler.describeAll report.handlers :
      Printing Failure Unit) := .printTable _ _ _
  have tables := (Prints.printTable "\n" Position.describeAll report.positions).andThen handlers
  have listing := (Prints.print "\n").andThen ((Prints.print report.listing.text).andThen tables)
  rw [printReport]
  refine (Prints.print _).andThen ?_
  cases options.has .consts with
  | true => exact (Prints.print _).andThen listing
  | false => exact listing

theorem processInput_of_found {name : String} {content : Bytes}
    (found : surroundings.Supplies input name content) :
    options.processInput surroundings input = options.process name content :=
  attempt_of_ok (read_of_supplies found)

theorem process_of_listed {name : String} {content : Bytes} {image : Image} {listing : Listing}
    (loaded : Image.ofBytes content = .ok image)
    (listed : image.code.listing options.listingOptions = .ok listing) :
    options.process name content = options.printListed name image listing := by
  rw [process, attempt_of_ok (mapError_of_ok _ loaded), attempt_of_ok (mapError_of_ok _ listed)]

/-- An input that fails prints nothing. -/
theorem settles_of_fails {failure : Failure} (fails : options.Fails surroundings input failure) :
    (options.processInput surroundings input).Settles (.error failure) := by
  cases fails with
  | unreadable withheld => exact settles_attempt_of_error (read_of_withholds withheld)
  | notLoaded found failed =>
      rw [processInput_of_found found]
      exact settles_attempt_of_error (mapError_of_error _ failed)
  | notListed found loaded failed =>
      rw [processInput_of_found found, process, attempt_of_ok (mapError_of_ok _ loaded)]
      exact settles_attempt_of_error (mapError_of_error _ failed)
  | badTable found loaded listed notSummary failed =>
      rw [processInput_of_found found, process_of_listed loaded listed, printListed, notSummary]
      refine settles_attempt_of_error (mapError_of_error _ ?_)
      exact Report.ofListing_eq_error_iff.mpr failed

/-- An input that does not fail prints a whole text. -/
theorem prints_of_not_fails (succeeds : ∀ failure, ¬options.Fails surroundings input failure) :
    (options.processInput surroundings input).Prints := by
  obtain ⟨name, content, found⟩ := (surroundings.supplies_or_withholds input).resolve_right
    fun ⟨failure, withheld⟩ => succeeds failure (.unreadable withheld)
  cases loaded : Image.ofBytes content with
  | error error => exact absurd (.notLoaded found loaded) (succeeds _)
  | ok image =>
      cases listed : image.code.listing options.listingOptions with
      | error error => exact absurd (.notListed found loaded listed) (succeeds _)
      | ok listing =>
          rw [processInput_of_found found, process_of_listed loaded listed, printListed]
          cases summary : options.has .summary with
          | true => exact .print _
          | false =>
              cases decoded : Report.ofListing image listing (options.has .lines)
                  (options.has .exceptions) with
              | error error =>
                  have failed := Report.ofListing_eq_error_iff.mp decoded
                  exact absurd (.badTable found loaded listed summary failed) (succeeds _)
              | ok report =>
                  rw [attempt_of_ok (mapError_of_ok _ rfl)]
                  cases options.has .json with
                  | true => exact .print _
                  | false => exact prints_printReport name report

/-- The outcome of a run on one input only. -/
def alone (options : Options) (surroundings : Surroundings) (input : String) : Outcome :=
  { options with inputs := [input] }.run surroundings

/-- A run on one input only is never refused. -/
theorem alone_eq (options : Options) (surroundings : Surroundings) (input : String) :
    options.alone surroundings input =
      .ofEnd (options.processInput surroundings input "") := by
  have processed : { options with inputs := [input] }.processAll surroundings "" =
      (options.processInput surroundings input >>= fun _ => pure ()) "" := rfl
  rw [alone, run, processed]
  simp only [bind, EStateM.bind]
  cases options.processInput surroundings input "" <;> rfl

theorem alone_of_fails {failure : Failure} (fails : options.Fails surroundings input failure) :
    options.alone surroundings input = ⟨1, "", some failure.line⟩ := by
  rw [alone_eq, settles_of_fails fails]
  rfl

theorem alone_of_not_fails (succeeds : ∀ failure, ¬options.Fails surroundings input failure) :
    (options.alone surroundings input).status = 0 ∧
      (options.processInput surroundings input).Settles
        (.ok (options.alone surroundings input).output) := by
  obtain ⟨text, settles⟩ := prints_of_not_fails succeeds
  rw [alone_eq, settles, settle, String.empty_append]
  exact ⟨rfl, settles⟩

/-- An input fails exactly for one of the reasons. -/
theorem status_alone_ne_zero_iff :
    (options.alone surroundings input).status ≠ 0 ↔
      ∃ failure, options.Fails surroundings input failure := by
  constructor
  · intro failed
    by_contra succeeds
    exact failed (alone_of_not_fails (not_exists.mp succeeds)).1
  · intro ⟨failure, fails⟩
    rw [alone_of_fails fails]
    exact Nat.one_ne_zero

theorem not_fails_of_status (succeeds : (options.alone surroundings input).status = 0) :
    ∀ failure, ¬options.Fails surroundings input failure :=
  fun failure fails => status_alone_ne_zero_iff.mpr ⟨failure, fails⟩ succeeds

/-- What is printed about inputs up to the first one that fails. -/
def printedAlone (options : Options) (surroundings : Surroundings) (inputs : List String) :
    String :=
  String.join ((inputs.takeWhile fun input => (options.alone surroundings input).status = 0).map
    fun input => (options.alone surroundings input).output)

section Inputs

variable {rest : List String}

theorem printedAlone_of_status (succeeds : (options.alone surroundings input).status = 0) :
    options.printedAlone surroundings (input :: rest) =
      (options.alone surroundings input).output ++ options.printedAlone surroundings rest := by
  rw [printedAlone, List.takeWhile_cons_of_pos (by simpa using succeeds), List.map_cons,
    String.join_cons, printedAlone]

theorem printedAlone_of_failed (failed : (options.alone surroundings input).status ≠ 0) :
    options.printedAlone surroundings (input :: rest) = "" := by
  rw [printedAlone, List.takeWhile_cons_of_neg (by simpa using failed), List.map_nil,
    String.join_nil]

end Inputs

/-- Inputs print what they print alone, up to the first one that fails. -/
theorem processInputs_cases (options : Options) (surroundings : Surroundings)
    (inputs : List String) (output : String) :
    (∀ input ∈ inputs, (options.alone surroundings input).status = 0) ∧
        options.processInputs surroundings inputs output =
          .ok () (output ++ options.printedAlone surroundings inputs) ∨
      ∃ failure, (∃ input ∈ inputs, options.Fails surroundings input failure) ∧
        options.processInputs surroundings inputs output =
          .error failure (output ++ options.printedAlone surroundings inputs) := by
  induction inputs generalizing output with
  | nil =>
      refine .inl ⟨List.forall_mem_nil _, ?_⟩
      rw [printedAlone, List.takeWhile_nil, List.map_nil, String.join_nil, String.append_empty]
      rfl
  | cons input rest induction =>
      by_cases succeeds : (options.alone surroundings input).status = 0
      · have text := (alone_of_not_fails (not_fails_of_status succeeds)).2
        have further : options.processInputs surroundings (input :: rest) output =
            options.processInputs surroundings rest
              (output ++ (options.alone surroundings input).output) := by
          simp only [processInputs, bind, EStateM.bind, text output, settle]
        rw [further, printedAlone_of_status succeeds, ← String.append_assoc]
        rcases induction (output ++ (options.alone surroundings input).output) with
          ⟨others, processed⟩ | ⟨failure, ⟨other, member, fails⟩, processed⟩
        · exact .inl ⟨List.forall_mem_cons.mpr ⟨succeeds, others⟩, processed⟩
        · exact .inr ⟨failure, ⟨other, List.mem_cons_of_mem _ member, fails⟩, processed⟩
      · obtain ⟨failure, fails⟩ := status_alone_ne_zero_iff.mp succeeds
        refine .inr ⟨failure, ⟨input, List.mem_cons_self, fails⟩, ?_⟩
        simp only [processInputs, bind, EStateM.bind, settles_of_fails fails output, settle,
          printedAlone_of_failed succeeds, String.append_empty]

/-- A run that is not refused ends as its inputs do. -/
theorem run_of_accepted (accepted : options.check = .ok ()) :
    options.run surroundings =
      .ofEnd (options.processInputs surroundings options.inputs "") := by
  rw [run, processAll, attempt_of_ok accepted]

/-- Under a summary one line is printed about an input that has a listing. -/
theorem alone_of_summary {name : String} {content : Bytes} {image : Image} {listing : Listing}
    (summary : options.has .summary = true) (found : surroundings.Supplies input name content)
    (loaded : Image.ofBytes content = .ok image)
    (listed : image.code.listing options.listingOptions = .ok listing) :
    options.alone surroundings input = ⟨0, image.summary name listing ++ "\n", none⟩ := by
  rw [alone_eq, processInput_of_found found, process_of_listed loaded listed, printListed, summary]
  exact congrArg (fun output => Outcome.mk 0 output none) (String.empty_append)

/-- A summary needs no tables: an input fails only if a unit that is visited cannot be listed. -/
theorem status_alone_of_summary {name : String} {content : Bytes} {image : Image}
    {profile : Profile} (summary : options.has .summary = true)
    (found : surroundings.Supplies input name content)
    (loaded : Image.ofBytes content = .ok image)
    (supported : Profile.ofVersion image.header.version = .ok profile) :
    (options.alone surroundings input).status = 0 ↔
      ∀ visited ∈ image.code.visits options.listingOptions,
        visited.Listable profile options.listingOptions := by
  rw [← Image.exists_listing_iff loaded supported]
  constructor
  · intro succeeds
    cases listed : image.code.listing options.listingOptions with
    | ok listing => exact ⟨listing, rfl⟩
    | error error => exact absurd (.notListed found loaded listed) (not_fails_of_status succeeds _)
  · intro ⟨listing, listed⟩
    rw [alone_of_summary summary found loaded listed]

/--
A run that prints what its inputs print alone, up to the first one that fails, and nothing of that
one. Under a summary, only the listings of the visited units decide whether an input fails.
-/
structure RunsInTurn (options : Options) (surroundings : Surroundings) : Prop where
  output : (options.run surroundings).output = options.printedAlone surroundings options.inputs
  status : (options.run surroundings).status = 0 ↔
    ∀ input ∈ options.inputs, ∀ failure, ¬options.Fails surroundings input failure
  alone : ∀ input, (options.alone surroundings input).status = 0 ↔
    ∀ failure, ¬options.Fails surroundings input failure
  silent : ∀ input failure, options.Fails surroundings input failure →
    options.alone surroundings input = ⟨1, "", some failure.line⟩
  summary : options.has .summary = true → ∀ input name content image,
    surroundings.Supplies input name content → Image.ofBytes content = .ok image →
      ∃ profile, Profile.ofVersion image.header.version = .ok profile ∧
        ((options.alone surroundings input).status = 0 ↔
          ∀ visited ∈ image.code.visits options.listingOptions,
            visited.Listable profile options.listingOptions)

theorem runsInTurn (accepted : options.check = .ok ()) : options.RunsInTurn surroundings := by
  have ends := processInputs_cases options surroundings options.inputs ""
  have alone : ∀ input, (options.alone surroundings input).status = 0 ↔
      ∀ failure, ¬options.Fails surroundings input failure :=
    fun input => ⟨not_fails_of_status, fun succeeds => (alone_of_not_fails succeeds).1⟩
  rw [String.empty_append] at ends
  constructor
  · rcases ends with ⟨-, processed⟩ | ⟨failure, -, processed⟩
    · rw [run_of_accepted accepted, processed]
      rfl
    · rw [run_of_accepted accepted, processed]
      rfl
  · simp only [← alone]
    rcases ends with ⟨succeed, processed⟩ | ⟨failure, ⟨input, member, fails⟩, processed⟩
    · rw [run_of_accepted accepted, processed]
      exact iff_of_true rfl succeed
    · rw [run_of_accepted accepted, processed]
      refine iff_of_false Nat.one_ne_zero fun succeed => ?_
      exact not_fails_of_status (succeed input member) failure fails
  · exact alone
  · exact fun input failure => alone_of_fails
  · intro summary input name content image found loaded
    obtain ⟨profile, supported⟩ := Image.exists_profile_of_ofBytes loaded
    exact ⟨profile, supported, status_alone_of_summary summary found loaded supported⟩

/-- A module of one instruction, with a location table and an exception table that are cut off. -/
def cutOffTables : Bytes :=
  [0xA7, 0x0D, 0x0D, 0x0A] ++ List.replicate 12 0 ++ 0x63 :: List.replicate 20 0 ++
    [0x73, 2, 0, 0, 0, 83, 0, 0x29, 0, 0x29, 0, 0x29, 0, 0x73, 0, 0, 0, 0] ++
    [0x7A, 0, 0x7A, 0, 0x7A, 0, 1, 0, 0, 0, 0x73, 2, 0, 0, 0, 0xF8, 0x80, 0x73, 1, 0, 0, 0, 0x40]

/-- A directory with one file, from which standard input is redirected. -/
def onlyFile : Surroundings where
  file name := if name = "a.pyc" then .ok cutOffTables else .error "not found"
  stdin := .error "Is a directory (os error 21)"

/-- A summary of two files whose tables are asked for too. -/
def summaryOfTwo : Options :=
  ⟨[.summary, .lines, .exceptions], 0, ["a.pyc", "b.pyc"]⟩

/-- The first file is told of although neither of its tables can be decoded. -/
theorem runsInTurn_summaryOfTwo :
    summaryOfTwo.check = .ok () ∧
      ∃ image, Image.ofBytes cutOffTables = .ok image ∧
        (PositionTable.ofUnit image.code >>= PositionTable.positions).toOption = none ∧
        (Handler.ofUnit image.code >>= HandlerCursor.readAll).toOption = none ∧
        (summaryOfTwo.alone onlyFile "a.pyc").status = 0 ∧
        (summaryOfTwo.run onlyFile).output = (summaryOfTwo.alone onlyFile "a.pyc").output ∧
        (summaryOfTwo.run onlyFile).output =
          "a.pyc: python 3.11, 1 code unit(s), 1 opcodes, 0 top-level consts\n" ∧
        (summaryOfTwo.run onlyFile).status ≠ 0 := by
  have evaluated : (Image.ofBytes cutOffTables).toOption.bind (fun image =>
      (image.code.lines ⟨false, false⟩).toOption.map fun lines =>
        (image.summary "a.pyc" (.node image.code.displayName image.code.firstLine lines []),
          (PositionTable.ofUnit image.code >>= PositionTable.positions).toOption.isNone,
          (Handler.ofUnit image.code >>= HandlerCursor.readAll).toOption.isNone)) =
      some ("a.pyc: python 3.11, 1 code unit(s), 1 opcodes, 0 top-level consts", true, true) := by
    decide +kernel
  obtain ⟨image, succeeded, evaluated⟩ := Option.bind_eq_some_iff.mp evaluated
  obtain ⟨lines, shown, evaluated⟩ := Option.map_eq_some_iff.mp evaluated
  simp only [Prod.mk.injEq, Option.isNone_iff_eq_none] at evaluated
  obtain ⟨summary, noPositions, noHandlers⟩ := evaluated
  have loaded := eq_ok_of_toOption succeeded
  have lined : image.code.lines summaryOfTwo.listingOptions = .ok lines := eq_ok_of_toOption shown
  have listed : image.code.listing summaryOfTwo.listingOptions =
      .ok (.node image.code.displayName image.code.firstLine lines []) := by
    rw [CodeUnit.listing_eq, lined]
    rfl
  have found : onlyFile.Supplies "a.pyc" "a.pyc" cutOffTables := .file (by decide) rfl
  have alone := @alone_of_summary summaryOfTwo onlyFile _ _ _ _ _ rfl found loaded listed
  have first : (summaryOfTwo.alone onlyFile "a.pyc").status = 0 := by rw [alone]
  have missing : summaryOfTwo.Fails onlyFile "b.pyc" (.unreadable "b.pyc" "not found") :=
    .unreadable (.file (by decide) rfl)
  have second := status_alone_ne_zero_iff.mpr ⟨_, missing⟩
  have runs : summaryOfTwo.RunsInTurn onlyFile := runsInTurn rfl
  have output : (summaryOfTwo.run onlyFile).output =
      (summaryOfTwo.alone onlyFile "a.pyc").output := by
    have inputs : summaryOfTwo.inputs = ["a.pyc", "b.pyc"] := rfl
    rw [runs.output, inputs, printedAlone_of_status first, printedAlone_of_failed second,
      String.append_empty]
  refine ⟨rfl, image, loaded, noPositions, noHandlers, first, output, ?_, ?_⟩
  · rw [output, alone, summary]
    rfl
  · intro succeeds
    exact runs.status.mp succeeds "b.pyc" (by decide) _ missing

example : Options.alone ⟨[.tree, .json], 0, []⟩ onlyFile "-" =
    ⟨1, "", some "❌ Lecture stdin échouée: Is a directory (os error 21)"⟩ :=
  rfl

end Options
end CodeScope

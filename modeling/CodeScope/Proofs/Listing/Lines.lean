import CodeScope.Listing.Line
import CodeScope.Proofs.Position.Seeking
import CodeScope.Proofs.Sequencing

/-!
# Lines of a listing

A listing reads the position table of its unit once, with a cursor that goes on from instruction to
instruction. Its lines are those that every instruction has alone, with a cursor of its own: the
instructions are in the order of their offsets, so no query is refused, and what a cursor finds
does not depend on the queries before. A listing fails as its first instruction without a line does.
-/

namespace CodeScope
namespace Instruction

theorem le_start_decodeFrom {start offset : Nat} (high : UInt32) (code : Bytes)
    (reached : start ≤ offset) :
    ∀ instruction ∈ decodeFrom start offset high code, start ≤ instruction.start := by
  fun_induction decodeFrom start offset high code with
  | case1 start offset high low rest number next induction =>
      exact induction (Nat.le_add_right_of_le reached)
  | case2 start offset high opcode low rest number next plain argument induction =>
      intro instruction member
      rcases List.mem_cons.mp member with same | later
      · exact Nat.le_of_eq (congrArg Instruction.start same.symm)
      · have after := induction (Nat.le_refl next) instruction later
        omega
  | case3 start offset high code short =>
      intro instruction member
      cases member

theorem pairwise_decodeFrom {start offset : Nat} (high : UInt32) (code : Bytes)
    (reached : start ≤ offset) :
    (decodeFrom start offset high code).Pairwise fun earlier later =>
      earlier.start < later.start := by
  fun_induction decodeFrom start offset high code with
  | case1 start offset high low rest number next induction =>
      exact induction (Nat.le_add_right_of_le reached)
  | case2 start offset high opcode low rest number next plain argument induction =>
      refine List.Pairwise.cons ?_ (induction (Nat.le_refl next))
      intro later member
      have after := le_start_decodeFrom 0 rest (Nat.le_refl next) later member
      show start < later.start
      omega
  | case3 start offset high code short => exact List.Pairwise.nil

/-- Instructions start one after the other, prefixes included. -/
theorem pairwise_decode (code : Bytes) :
    (decode code).Pairwise fun earlier later => earlier.start < later.start :=
  pairwise_decodeFrom 0 code (Nat.le_refl 0)

end Instruction

namespace Locals

/-- Number of names that an index into the local variables can stand for. -/
def localCount : Locals → Nat
  | split varnames _ _ => varnames.length
  | unified names _ => names.length

/-- Number of names that an index into the cell and free variables can stand for. -/
def freeCount : Locals → Nat
  | split _ cellvars freevars => cellvars.length + freevars.length
  | unified names _ => names.length

variable {locals : Locals} {index : Nat}

theorem local?_eq_none_iff : locals.local? index = none ↔ locals.localCount ≤ index := by
  cases locals with
  | split varnames cellvars freevars => exact List.getElem?_eq_none_iff
  | unified names kinds => exact List.getElem?_eq_none_iff

theorem free?_eq_none_iff : locals.free? index = none ↔ locals.freeCount ≤ index := by
  cases locals with
  | split varnames cellvars freevars =>
      rw [free?, freeCount, ← List.length_append]
      exact List.getElem?_eq_none_iff
  | unified names kinds => exact List.getElem?_eq_none_iff

end Locals

namespace Operand

/-- Length of the table that arguments of a kind are indices into. -/
def tableSize (unit : CodeUnit) : ArgumentKind → Option Nat
  | .const => some unit.consts.length
  | .name => some unit.names.length
  | .localVar => some unit.locals.localCount
  | .freeVar => some unit.locals.freeCount
  | .plain | .relativeJump | .absoluteJump => none

variable {profile : Profile} {unit : CodeUnit} {opcode : Opcode} {stop : Nat}
  {argument : UInt32}

theorem map_getD_eq_unknown_iff {α : Type} {entry : Option α} {operand : α → Operand}
    (known : ∀ value, operand value ≠ unknown) :
    (entry.map operand).getD unknown = unknown ↔ entry = none := by
  cases entry with
  | none => simp
  | some value => simpa using known value

theorem relativeTarget_ne_unknown (rule : JumpRule) :
    relativeTarget rule opcode argument stop ≠ unknown := by
  intro same
  cases rule with
  | bytes => cases same
  | words =>
      simp only [relativeTarget] at same
      split at same
      · cases same
      · cases same
  | absoluteWords => cases same

theorem absoluteTarget_ne_unknown (rule : JumpRule) :
    absoluteTarget rule argument ≠ unknown := by
  intro same
  cases rule with
  | bytes => cases same
  | words => cases same
  | absoluteWords => cases same

/-- An argument stands for nothing exactly if its index is outside its table. -/
theorem resolve_eq_unknown_iff :
    resolve profile unit opcode stop argument = unknown ↔
      ∃ size ∈ tableSize unit opcode.argument,
        size ≤ argument.toNat >>> profile.nameShift opcode.name := by
  rw [resolve]
  cases opcode.argument with
  | const =>
      rw [map_getD_eq_unknown_iff (by simp), List.getElem?_eq_none_iff]
      simp [tableSize]
  | name =>
      rw [map_getD_eq_unknown_iff (by simp), List.getElem?_eq_none_iff]
      simp [tableSize]
  | localVar =>
      rw [map_getD_eq_unknown_iff (by simp), Locals.local?_eq_none_iff]
      simp [tableSize]
  | freeVar =>
      rw [map_getD_eq_unknown_iff (by simp), Locals.free?_eq_none_iff]
      simp [tableSize]
  | relativeJump => simp [tableSize, relativeTarget_ne_unknown]
  | absoluteJump => simp [tableSize, absoluteTarget_ne_unknown]
  | plain => simp [tableSize]

end Operand

namespace CodeUnit

/-- The line of an instruction alone, with a cursor of its own at the start of the table. -/
def lineAlone (unit : CodeUnit) (profile : Profile) (table : PositionTable)
    (instruction : Instruction) : Except Error ListingLine := do
  let opcode ← opcodeOf profile instruction
  let (position, _) ← (PositionCursor.start table).get instruction.start
  let operand := instruction.argument.map (Operand.resolve profile unit opcode instruction.stop)
  return ⟨instruction, opcode, position.span, operand⟩

variable {unit : CodeUnit} {profile : Profile} {table : PositionTable}

/-- A cursor that finds what one at the start does gives every instruction the line it has alone. -/
theorem linesFrom_eq_mapM {cursor : PositionCursor} {instructions : List Instruction}
    (increasing : instructions.Pairwise fun earlier later => earlier.start < later.start)
    (ordered : ∀ instruction ∈ instructions,
      Position.checkOrder cursor.last instruction.start = .ok ())
    (sought : ∀ instruction ∈ instructions,
      cursor.seek instruction.start = (PositionCursor.start table).seek instruction.start) :
    unit.linesFrom profile cursor instructions =
      instructions.mapM (unit.lineAlone profile table) := by
  induction instructions generalizing cursor with
  | nil => rfl
  | cons instruction rest induction =>
      obtain ⟨after, increasingRest⟩ := List.pairwise_cons.mp increasing
      have orderedHere := ordered instruction List.mem_cons_self
      have soughtHere := sought instruction List.mem_cons_self
      rw [List.mapM_cons, linesFrom, lineAlone]
      cases opcodeOf profile instruction with
      | error error => rfl
      | ok opcode =>
          cases alone : (PositionCursor.start table).seek instruction.start with
          | error error =>
              rw [alone] at soughtHere
              rw [PositionCursor.get_of_lost orderedHere soughtHere,
                PositionCursor.get_of_lost (PositionCursor.ordered_start table _) alone]
              rfl
          | ok span =>
              rw [alone] at soughtHere
              obtain ⟨next, found, last, kept⟩ :=
                PositionCursor.get_of_sought orderedHere soughtHere
              obtain ⟨own, foundAlone, -, -⟩ :=
                PositionCursor.get_of_sought (PositionCursor.ordered_start table _) alone
              -- Later instructions start further on, where the moved cursor finds the same.
              have following : unit.linesFrom profile next rest =
                  rest.mapM (unit.lineAlone profile table) := by
                apply induction increasingRest
                · intro later member
                  rw [last]
                  exact Position.ordered_of_le (Nat.le_of_lt (after later member))
                · intro later member
                  rw [kept later.start (Nat.le_of_lt (after later member))]
                  exact sought later (List.mem_cons_of_mem _ member)
              rw [found, foundAlone]
              simp only [following, bind, Except.bind, pure, Except.pure]

theorem pairwise_listedInstructions (unit : CodeUnit) (profile : Profile)
    (options : ListingOptions) :
    (unit.listedInstructions profile options).Pairwise fun earlier later =>
      earlier.start < later.start :=
  (Instruction.pairwise_decode unit.code).filter _

/-- Only cache slots are left out, and none if they are kept. -/
theorem listedInstructions_eq (unit : CodeUnit) (profile : Profile) (options : ListingOptions) :
    unit.listedInstructions profile options =
      (Instruction.decode unit.code).filter fun instruction =>
        options.keepCaches ∨ profile.cacheOpcode ≠ some instruction.opcode := by
  apply List.filter_congr
  intro instruction member
  rw [Profile.isCache, Bool.decide_or, Bool.decide_eq_true, decide_not, beq_eq_decide]

/-- What a line tells of its instruction, whatever other instructions there are. -/
structure Shows (unit : CodeUnit) (profile : Profile) (table : PositionTable)
    (instruction : Instruction) (line : ListingLine) : Prop where
  own : line.instruction = instruction
  known : profile.opcodes.find? instruction.opcode = some line.opcode
  placed : ∃ next, (PositionCursor.start table).get instruction.start =
    .ok (⟨instruction.start, line.span⟩, next)
  operand : line.operand =
    instruction.argument.map (Operand.resolve profile unit line.opcode instruction.stop)
  unknown : line.operand = some .unknown ↔
    ∃ argument ∈ instruction.argument, ∃ size ∈ Operand.tableSize unit line.opcode.argument,
      size ≤ argument.toNat >>> profile.nameShift line.opcode.name

/-- Why an instruction has no line. An unknown opcode comes before a missing position. -/
inductive Obstacle (profile : Profile) (table : PositionTable) (instruction : Instruction) :
    Error → Prop
  | opcode (missing : profile.opcodes.find? instruction.opcode = none) :
      Obstacle profile table instruction
        (.unknownOpcode instruction.opcode profile.version instruction.start)
  | position {opcode : Opcode} {error : Error}
      (known : profile.opcodes.find? instruction.opcode = some opcode)
      (failed : (PositionCursor.start table).get instruction.start = .error error) :
      Obstacle profile table instruction error

section Alone

variable {instruction : Instruction} {opcode : Opcode}

theorem lineAlone_of_missing (missing : profile.opcodes.find? instruction.opcode = none) :
    unit.lineAlone profile table instruction =
      .error (.unknownOpcode instruction.opcode profile.version instruction.start) := by
  simp only [lineAlone, opcodeOf, missing]
  rfl

theorem lineAlone_of_failed {error : Error}
    (known : profile.opcodes.find? instruction.opcode = some opcode)
    (failed : (PositionCursor.start table).get instruction.start = .error error) :
    unit.lineAlone profile table instruction = .error error := by
  simp only [lineAlone, opcodeOf, known, failed]
  rfl

theorem lineAlone_of_found {position : Position} {next : PositionCursor}
    (known : profile.opcodes.find? instruction.opcode = some opcode)
    (found : (PositionCursor.start table).get instruction.start = .ok (position, next)) :
    unit.lineAlone profile table instruction =
      .ok ⟨instruction, opcode, position.span,
        instruction.argument.map (Operand.resolve profile unit opcode instruction.stop)⟩ := by
  simp only [lineAlone, opcodeOf, known, found]
  rfl

theorem lineAlone_eq_ok_iff {line : ListingLine} :
    unit.lineAlone profile table instruction = .ok line ↔
      unit.Shows profile table instruction line := by
  constructor
  · intro shown
    cases known : profile.opcodes.find? instruction.opcode with
    | none =>
        rw [lineAlone_of_missing known] at shown
        cases shown
    | some opcode =>
        cases answered : (PositionCursor.start table).get instruction.start with
        | error error =>
            rw [lineAlone_of_failed known answered] at shown
            cases shown
        | ok answer =>
            obtain ⟨⟨offset, span⟩, next⟩ := answer
            rw [lineAlone_of_found known answered] at shown
            have same : offset = instruction.start := PositionCursor.offset_of_get answered
            cases shown
            refine ⟨rfl, known, ⟨next, same ▸ answered⟩, rfl, ?_⟩
            simp only [Option.map_eq_some_iff, Operand.resolve_eq_unknown_iff]
            exact Iff.rfl
  · intro ⟨own, known, ⟨next, found⟩, operand, _⟩
    rw [lineAlone_of_found known found, ← operand, ← own]

/-- An instruction is shown with its opcode, the answer to it alone and what its argument means. -/
theorem shows_of_answer {span : Span}
    (known : profile.opcodes.find? instruction.opcode = some opcode)
    (answer : ((PositionCursor.start table).get instruction.start).toOption.map Prod.fst =
      some ⟨instruction.start, span⟩) :
    unit.Shows profile table instruction ⟨instruction, opcode, span,
      instruction.argument.map (Operand.resolve profile unit opcode instruction.stop)⟩ := by
  obtain ⟨⟨position, next⟩, succeeded, rfl⟩ := Option.map_eq_some_iff.mp answer
  exact lineAlone_eq_ok_iff.mp (lineAlone_of_found known (eq_ok_of_toOption succeeded))

theorem lineAlone_eq_error_iff {error : Error} :
    unit.lineAlone profile table instruction = .error error ↔
      Obstacle profile table instruction error := by
  constructor
  · intro failed
    cases known : profile.opcodes.find? instruction.opcode with
    | none =>
        rw [lineAlone_of_missing known] at failed
        cases failed
        exact .opcode known
    | some opcode =>
        cases answered : (PositionCursor.start table).get instruction.start with
        | error other =>
            rw [lineAlone_of_failed known answered] at failed
            cases failed
            exact .position known answered
        | ok answer =>
            rw [lineAlone_of_found known answered] at failed
            cases failed
  · intro obstacle
    cases obstacle with
    | opcode missing => exact lineAlone_of_missing missing
    | position known lost => exact lineAlone_of_failed known lost

end Alone

/-- A unit that has lines is of a supported version and has a position table. -/
theorem exists_table_of_lines {options : ListingOptions} {lines : List ListingLine}
    (listed : unit.lines options = .ok lines) :
    ∃ profile table, Profile.ofVersion unit.version = .ok profile ∧
      PositionTable.ofUnit unit = .ok table := by
  simp only [CodeUnit.lines, bind_eq_ok_iff] at listed
  obtain ⟨profile, supported, table, decoder, -⟩ := listed
  exact ⟨profile, table, supported, decoder⟩

theorem table_of_supported (supported : Profile.ofVersion unit.version = .ok profile) :
    PositionTable.ofUnit unit =
      .ok ⟨profile.positionFormat, unit.firstLine, unit.linetable⟩ := by
  rw [PositionTable.ofUnit, supported]
  rfl

theorem lines_eq_mapM {options : ListingOptions}
    (supported : Profile.ofVersion unit.version = .ok profile)
    (decoder : PositionTable.ofUnit unit = .ok table) :
    unit.lines options =
      (unit.listedInstructions profile options).mapM (unit.lineAlone profile table) := by
  simp only [lines, supported, decoder, bind, Except.bind]
  apply linesFrom_eq_mapM (pairwise_listedInstructions unit profile options)
  · intro instruction member
    exact PositionCursor.ordered_start table instruction.start
  · intro instruction member
    rfl

theorem exists_shows_iff {instruction : Instruction} :
    (∃ line, unit.Shows profile table instruction line) ↔
      (∃ opcode, profile.opcodes.find? instruction.opcode = some opcode) ∧
        ∃ answer, (PositionCursor.start table).get instruction.start = .ok answer := by
  constructor
  · intro ⟨line, shows⟩
    obtain ⟨next, found⟩ := shows.placed
    exact ⟨⟨line.opcode, shows.known⟩, ⟨_, found⟩⟩
  · intro ⟨⟨opcode, known⟩, ⟨position, next⟩, found⟩
    exact ⟨_, lineAlone_eq_ok_iff.mp (lineAlone_of_found known found)⟩

/-- How the listing of a unit goes through the instructions that it shows. -/
structure ListsThrough (unit : CodeUnit) (profile : Profile) (table : PositionTable)
    (options : ListingOptions) (instructions : List Instruction) : Prop where
  /-- There are lines exactly if every instruction has an opcode and, asked alone, a position. -/
  succeeds : (∃ lines, unit.lines options = .ok lines) ↔
    ∀ instruction ∈ instructions,
      (∃ opcode, profile.opcodes.find? instruction.opcode = some opcode) ∧
        ∃ answer, (PositionCursor.start table).get instruction.start = .ok answer
  /-- The lines are those of the instructions, one for each. -/
  lines : ∀ lines, unit.lines options = .ok lines ↔
    List.Forall₂ (unit.Shows profile table) instructions lines
  /-- The error is the obstacle of the first instruction without a line. -/
  fails : ∀ error, unit.lines options = .error error ↔
    ∃ before failing after, instructions = before ++ failing :: after ∧
      (∀ instruction ∈ before, ∃ line, unit.Shows profile table instruction line) ∧
      Obstacle profile table failing error

/--
The listing of a unit goes through all instructions of its code, cache slots only if they are kept.
-/
theorem lines_of_supported {options : ListingOptions}
    (supported : Profile.ofVersion unit.version = .ok profile) :
    ∃ table, PositionTable.ofUnit unit = .ok table ∧
      unit.ListsThrough profile table options
        ((Instruction.decode unit.code).filter fun instruction =>
          options.keepCaches ∨ profile.cacheOpcode ≠ some instruction.opcode) := by
  have decoder := table_of_supported supported
  have lines : unit.lines options = _ := lines_eq_mapM supported decoder
  rw [listedInstructions_eq] at lines
  refine ⟨_, decoder, ?_, ?_, ?_⟩
  · rw [lines, exists_mapM_eq_ok_iff]
    simp only [lineAlone_eq_ok_iff, exists_shows_iff]
  · intro shown
    rw [lines, mapM_eq_ok_iff]
    simp only [lineAlone_eq_ok_iff]
  · intro error
    rw [lines, mapM_eq_error_iff]
    simp only [lineAlone_eq_ok_iff, lineAlone_eq_error_iff]

/--
A unit of three instructions with a cache slot behind each of the first two. The first one loads a
name that is not there, with an argument of two bytes; the last one is nowhere in the source.
-/
def loadingNothing : CodeUnit where
  site := 0
  version := ⟨3, 12⟩
  argcount := 0
  posonlyargcount := 0
  kwonlyargcount := 0
  nlocals := 0
  stacksize := 1
  flags := ⟨0⟩
  code := [144, 1, 116, 1, 0, 0, 116, 1, 0, 0, 83, 0]
  names := ["x"]
  locals := .unified [] []
  filename := "t.py"
  name := "f"
  qualname := some "f"
  firstLine := 7
  linetable := [0xD2, 4, 9, 0xD9, 0, 1, 0xF8]
  exceptiontable := []
  consts := []

theorem lines_of_supported_loadingNothing :
    Profile.ofVersion loadingNothing.version = .ok Profile.version312 ∧
      loadingNothing.lines ⟨false, false⟩ = .ok [
        ⟨⟨0, 4, 116, some 257⟩, ⟨116, "LOAD_GLOBAL", .name⟩, ⟨7, 7, 4, 9⟩, some .unknown⟩,
        ⟨⟨6, 8, 116, some 1⟩, ⟨116, "LOAD_GLOBAL", .name⟩, ⟨8, 8, 0, 1⟩, some (.name "x")⟩,
        ⟨⟨10, 12, 83, none⟩, ⟨83, "RETURN_VALUE", .plain⟩, ⟨-1, -1, -1, -1⟩, none⟩] := by
  have supported : Profile.ofVersion loadingNothing.version = .ok Profile.version312 := rfl
  obtain ⟨table, decoder, through⟩ :=
    @lines_of_supported loadingNothing Profile.version312 ⟨false, false⟩ supported
  cases decoder
  have listed : ((Instruction.decode loadingNothing.code).filter fun instruction =>
      (⟨false, false⟩ : ListingOptions).keepCaches ∨
        Profile.version312.cacheOpcode ≠ some instruction.opcode) =
      [⟨0, 4, 116, some 257⟩, ⟨6, 8, 116, some 1⟩, ⟨10, 12, 83, none⟩] := by
    decide
  rw [listed] at through
  refine ⟨supported, (through.lines _).mpr (.cons ?_ (.cons ?_ (.cons ?_ .nil)))⟩
  · exact shows_of_answer rfl (by decide +kernel)
  · exact shows_of_answer rfl (by decide +kernel)
  · exact shows_of_answer rfl (by decide +kernel)

end CodeUnit
end CodeScope

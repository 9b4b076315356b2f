import CodeScope.Instruction
import CodeScope.Proofs.Bytes.Encoding
import Mathlib.Data.List.Forall2

/-!
# Segments of code

Code falls into segments: some words that widen an argument, as many as there are, and a word that
does not. Each segment is an instruction, and what is left behind the last of them is widening words
and perhaps half a word. Segments are found without doubt, so an instruction that is written with
enough widening words is read back.
-/

namespace CodeScope

/-- Two bytes of code. -/
structure CodeWord where
  /-- Number of the opcode. -/
  opcode : UInt8
  /-- Byte of the argument. -/
  low : UInt8
  deriving DecidableEq, Repr

namespace CodeWord

/-- Whether a word widens the argument of the instruction that it belongs to. -/
def widens (word : CodeWord) : Bool :=
  word.opcode == Opcode.extendedArgument

/-- The bytes of a word. -/
def bytes (word : CodeWord) : Bytes := [word.opcode, word.low]

/-- The words of a piece of code. -/
def ofBytes : Bytes → List CodeWord
  | opcode :: low :: rest => ⟨opcode, low⟩ :: ofBytes rest
  | _ => []

/-- The number that the argument bytes of words write, the most significant first. -/
def number (words : List CodeWord) : Nat :=
  Bytes.littleEndian (words.map low).reverse

theorem ofBytes_of_short {code : Bytes}
    (short : ∀ opcode low rest, code = opcode :: low :: rest → False) : ofBytes code = [] := by
  rw [ofBytes]
  exact short

/-- The words of a piece of code are all of it but half a word at most. -/
theorem exists_half (code : Bytes) :
    ∃ half : Bytes, half.length ≤ 1 ∧ code = (ofBytes code).flatMap bytes ++ half := by
  induction code using ofBytes.induct with
  | case1 opcode low rest induction =>
      obtain ⟨half, short, split⟩ := induction
      exact ⟨half, short, congrArg (opcode :: low :: ·) split⟩
  | case2 code short =>
      refine ⟨code, ?_, ?_⟩
      · rcases code with _ | ⟨opcode, _ | ⟨low, rest⟩⟩
        · exact Nat.zero_le 1
        · exact Nat.le_refl 1
        · exact (short opcode low rest rfl).elim
      · rw [ofBytes_of_short short]
        rfl

theorem ofBytes_flatMap_bytes (words : List CodeWord) : ofBytes (words.flatMap bytes) = words := by
  induction words with
  | nil => rfl
  | cons word words induction => exact congrArg (word :: ·) induction

theorem number_append (words : List CodeWord) (word : CodeWord) :
    number (words ++ [word]) = word.low.toNat + 256 * number words := by
  simp [number, Bytes.littleEndian]

/-- The words before the first one that does not widen an argument. -/
theorem takeWhile_widens {run rest : List CodeWord} {word : CodeWord}
    (widening : ∀ early ∈ run, early.widens = true) (plain : word.widens = false) :
    (run ++ word :: rest).takeWhile widens = run := by
  rw [List.takeWhile_append_of_pos widening, List.takeWhile_cons_of_neg (by simp [plain]),
    List.append_nil]

end CodeWord

namespace Instruction

/-- The instruction of a word behind some others, of which those in `run` widen its argument. -/
def ofWords (before : Nat) (run : List CodeWord) (word : CodeWord) : Instruction where
  start := 2 * before
  stop := 2 * (before + run.length + 1)
  opcode := word.opcode
  argument :=
    if Opcode.firstWithArgument ≤ word.opcode then
      some (UInt32.ofNat (CodeWord.number (run ++ [word])))
    else
      none

/-- The instructions of words behind `before` others. -/
inductive Segments : Nat → List CodeWord → List Instruction → Prop
  | done {before : Nat} {run : List CodeWord} (widening : ∀ word ∈ run, word.widens = true) :
      Segments before run []
  | next {before : Nat} {run rest : List CodeWord} {word : CodeWord}
      {instructions : List Instruction} (widening : ∀ early ∈ run, early.widens = true)
      (plain : word.widens = false)
      (others : Segments (before + run.length + 1) rest instructions) :
      Segments before (run ++ word :: rest) (ofWords before run word :: instructions)

theorem segments_decodeFrom {before : Nat} {run : List CodeWord} (code : Bytes)
    (widening : ∀ word ∈ run, word.widens = true) :
    Segments before (run ++ CodeWord.ofBytes code)
      (decodeFrom (2 * before) (2 * (before + run.length)) (UInt32.ofNat (CodeWord.number run))
        code) := by
  -- The induction is on the code; `run` holds the widening words that are not yet used up.
  induction code using CodeWord.ofBytes.induct generalizing before run with
  | case1 opcode low rest induction =>
      have folded : UInt32.ofNat (CodeWord.number run) * 256 + low.toUInt32 =
          UInt32.ofNat (CodeWord.number (run ++ [⟨opcode, low⟩])) := by
        rw [CodeWord.number_append, UInt32.ofNat_add, UInt32.ofNat_mul, UInt32.add_comm,
          UInt32.mul_comm, UInt32.ofNat_uInt8ToNat]
        rfl
      rw [decodeFrom, CodeWord.ofBytes]
      simp only [folded]
      split
      · next isWidening =>
          have isLast : (CodeWord.mk opcode low).widens = true := by
            simpa [CodeWord.widens] using isWidening
          have further : ∀ word ∈ run ++ [⟨opcode, low⟩], word.widens = true := by
            simpa [or_imp, forall_and] using ⟨widening, isLast⟩
          have segments := @induction before _ further
          rwa [List.append_assoc, List.length_append] at segments
      · next isPlain =>
          have plain : (CodeWord.mk opcode low).widens = false := by
            simpa [CodeWord.widens] using isPlain
          have others := @induction (before + run.length + 1) [] (List.forall_mem_nil _)
          exact Segments.next widening plain others
  | case2 code short =>
      rw [CodeWord.ofBytes_of_short short, List.append_nil, decodeFrom]
      · exact .done widening
      · exact short

/-- Words fall into segments in one way. -/
theorem Segments.unique {before : Nat} {words : List CodeWord} {some other : List Instruction}
    (one : Segments before words some) (another : Segments before words other) : some = other := by
  induction one generalizing other with
  | done widening =>
      rename_i before run
      generalize same : run = words at another
      cases another with
      | done _ => rfl
      | @next _ run rest word _ _ plain _ =>
          have contrary := widening word (by simp [same])
          rw [plain] at contrary
          cases contrary
  | @next before run rest word instructions widening plain others induction =>
      generalize same : run ++ word :: rest = words at another
      cases another with
      | done otherWidening =>
          have contrary := otherWidening word (by simp [← same])
          rw [plain] at contrary
          cases contrary
      | @next _ otherRun otherRest otherWord _ otherWidening otherPlain otherOthers =>
          have runs := congrArg (List.takeWhile CodeWord.widens) same
          rw [CodeWord.takeWhile_widens widening plain,
            CodeWord.takeWhile_widens otherWidening otherPlain] at runs
          subst runs
          cases List.append_cancel_left same
          rw [induction otherOthers]

/--
An instruction that stands for the word at an index: it has the number and the argument byte of that
word, and starts with the first of the widening words directly before it.
-/
inductive StandsFor : List CodeWord → Nat → Instruction → Prop
  | intro {before run after : List CodeWord} {word : CodeWord}
      (maximal : ∀ last ∈ before.getLast?, last.widens = false)
      (widening : ∀ early ∈ run, early.widens = true) (plain : word.widens = false) :
      StandsFor (before ++ (run ++ word :: after)) (before.length + run.length)
        (ofWords before.length run word)

/-- Indices of the words that do not widen an argument, if the first word has index `first`. -/
def plainIndices (first : Nat) (words : List CodeWord) : List Nat :=
  ((words.zipIdx first).filter fun place => !place.1.widens).map Prod.snd

theorem plainIndices_of_widening {first : Nat} {run : List CodeWord}
    (widening : ∀ word ∈ run, word.widens = true) : plainIndices first run = [] := by
  rw [plainIndices, List.map_eq_nil_iff, List.filter_eq_nil_iff]
  intro place member
  have isWord : place.1 ∈ run := List.fst_mem_of_mem_zipIdx member
  simp [widening place.1 isWord]

theorem plainIndices_next {first : Nat} {run rest : List CodeWord} {word : CodeWord}
    (widening : ∀ early ∈ run, early.widens = true) (plain : word.widens = false) :
    plainIndices first (run ++ word :: rest) =
      (first + run.length) :: plainIndices (first + run.length + 1) rest := by
  have none := @plainIndices_of_widening first run widening
  rw [plainIndices] at none
  simp [plainIndices, List.zipIdx_append, none, plain]

/-- The instructions of words stand for those of them that do not widen an argument. -/
theorem Segments.standFor {before : List CodeWord} {words : List CodeWord}
    {instructions : List Instruction} (segments : Segments before.length words instructions)
    (maximal : ∀ last ∈ before.getLast?, last.widens = false) :
    List.Forall₂ (StandsFor (before ++ words)) (plainIndices before.length words)
      instructions := by
  generalize position : before.length = first at segments
  induction segments generalizing before with
  | done widening =>
      rw [plainIndices_of_widening widening]
      exact .nil
  | @next first run rest word instructions widening plain others induction =>
      subst position
      rw [plainIndices_next widening plain]
      refine .cons (.intro maximal widening plain) ?_
      have further : (before ++ run ++ [word]).length = before.length + run.length + 1 := by
        simp [Nat.add_assoc]
      have isLast : ∀ last ∈ (before ++ run ++ [word]).getLast?, last.widens = false := by
        simpa using plain
      have stand := induction isLast further
      simpa using stand

/-- Instructions that lie side by side, from one offset to another. -/
inductive Tiles : Nat → List Instruction → Nat → Prop
  | nil (offset : Nat) : Tiles offset [] offset
  | cons {instruction : Instruction} {rest : List Instruction} {last : Nat}
      (nonempty : instruction.start < instruction.stop)
      (others : Tiles instruction.stop rest last) :
      Tiles instruction.start (instruction :: rest) last

/-- Instructions lie side by side, and only widening words are left behind them. -/
theorem Segments.tiles {before : Nat} {words : List CodeWord} {instructions : List Instruction}
    (segments : Segments before words instructions) :
    ∃ covered run, words = covered ++ run ∧ (∀ word ∈ run, word.widens = true) ∧
      Tiles (2 * before) instructions (2 * (before + covered.length)) := by
  induction segments with
  | done widening => exact ⟨[], _, rfl, widening, .nil _⟩
  | @next before run rest word instructions widening plain others induction =>
      obtain ⟨covered, left, split, leftWidening, tiles⟩ := induction
      have total : before + run.length + 1 + covered.length =
          before + (run ++ word :: covered).length := by
        rw [List.length_append, List.length_cons]
        omega
      have nonempty : (ofWords before run word).start < (ofWords before run word).stop := by
        show 2 * before < 2 * (before + run.length + 1)
        omega
      refine ⟨run ++ word :: covered, left, by simp [split], leftWidening, ?_⟩
      rw [← total]
      exact .cons nonempty tiles

end Instruction

/-- An instruction with the number of widening words that it is written with. -/
structure WrittenInstruction where
  /-- Number of the opcode. -/
  opcode : UInt8
  /-- Argument, which is written even if the opcode has none. -/
  argument : UInt32
  /-- Number of widening words. -/
  widenings : Nat
  plain : opcode ≠ Opcode.extendedArgument
  enough : argument.toNat < 256 ^ (widenings + 1)

namespace WrittenInstruction

/-- The words that widen the argument. -/
def run (written : WrittenInstruction) : List CodeWord :=
  (Bytes.digits written.widenings (written.argument.toNat / 256)).reverse.map
    (⟨Opcode.extendedArgument, ·⟩)

/-- The last word. -/
def word (written : WrittenInstruction) : CodeWord :=
  ⟨written.opcode, UInt8.ofNat written.argument.toNat⟩

/-- The words of an instruction. -/
def words (written : WrittenInstruction) : List CodeWord :=
  written.run ++ [written.word]

/-- The bytes of an instruction. -/
def bytes (written : WrittenInstruction) : Bytes :=
  written.words.flatMap CodeWord.bytes

/-- The argument that is read, if the opcode has one. -/
def read (written : WrittenInstruction) : Option UInt32 :=
  if Opcode.firstWithArgument ≤ written.opcode then some written.argument else none

theorem widens_of_mem_run (written : WrittenInstruction) :
    ∀ word ∈ written.run, word.widens = true := by
  intro word member
  obtain ⟨low, -, rfl⟩ := List.mem_map.mp member
  rfl

theorem plain_word (written : WrittenInstruction) : written.word.widens = false := by
  simpa [word, CodeWord.widens] using written.plain

theorem number_words (written : WrittenInstruction) :
    CodeWord.number written.words = written.argument.toNat := by
  have power : 256 ^ (written.widenings + 1) = 256 ^ written.widenings * 256 :=
    pow_succ 256 written.widenings
  have small : written.argument.toNat / 256 < 256 ^ written.widenings := by
    have enough := written.enough
    omega
  have high : CodeWord.number written.run = written.argument.toNat / 256 := by
    rw [CodeWord.number, run, List.map_map]
    simp [Function.comp_def, Bytes.littleEndian_digits_of_lt small]
  rw [words, CodeWord.number_append, high, word, UInt8.toNat_ofNat']
  omega

/-- The instructions that are read from the words of several ones. -/
def instructionsFrom (before : Nat) : List WrittenInstruction → List Instruction
  | [] => []
  | written :: rest =>
      Instruction.ofWords before written.run written.word ::
        instructionsFrom (before + written.run.length + 1) rest

theorem segments_instructionsFrom (before : Nat) (several : List WrittenInstruction) :
    Instruction.Segments before (several.flatMap words) (instructionsFrom before several) := by
  induction several generalizing before with
  | nil => exact .done (List.forall_mem_nil _)
  | cons written rest induction =>
      rw [List.flatMap_cons, words, List.append_assoc]
      exact .next written.widens_of_mem_run written.plain_word (induction _)

theorem ofBytes_flatMap_bytes (several : List WrittenInstruction) :
    CodeWord.ofBytes (several.flatMap bytes) = several.flatMap words := by
  have joined : several.flatMap bytes = (several.flatMap words).flatMap CodeWord.bytes :=
    List.flatMap_assoc.symm
  rw [joined, CodeWord.ofBytes_flatMap_bytes]

theorem map_instructionsFrom (before : Nat) (several : List WrittenInstruction) :
    (instructionsFrom before several).map
        (fun instruction => (instruction.opcode, instruction.argument)) =
      several.map fun written => (written.opcode, written.read) := by
  induction several generalizing before with
  | nil => rfl
  | cons written rest induction =>
      have number : CodeWord.number (written.run ++ [written.word]) = written.argument.toNat :=
        written.number_words
      rw [instructionsFrom, List.map_cons, List.map_cons, induction]
      simp only [Instruction.ofWords, number, UInt32.ofNat_toNat]
      rfl

end WrittenInstruction

namespace Instruction

/-- What the instructions of a piece of code are. -/
structure Segmentation (code : Bytes) (instructions : List Instruction) : Prop where
  /-- The words are all of the code but half a word at most. -/
  words : ∃ half : Bytes, half.length ≤ 1 ∧
    code = (CodeWord.ofBytes code).flatMap CodeWord.bytes ++ half
  /-- There is one instruction for each word that does not widen an argument, in their order. -/
  each : List.Forall₂ (StandsFor (CodeWord.ofBytes code))
    (plainIndices 0 (CodeWord.ofBytes code)) instructions
  /-- They lie side by side from the start on, and only widening words are left behind them. -/
  covered : ∃ covered run, CodeWord.ofBytes code = covered ++ run ∧
    (∀ word ∈ run, word.widens = true) ∧ Tiles 0 instructions (2 * covered.length)

/-- Code is cut into its instructions exactly, and what is written is read back. -/
theorem segmentation_decode :
    (∀ code, Segmentation code (decode code)) ∧
      ∀ several : List WrittenInstruction,
        (decode (several.flatMap WrittenInstruction.bytes)).map
            (fun instruction => (instruction.opcode, instruction.argument)) =
          several.map fun written => (written.opcode, written.read) := by
  have segments : ∀ code, Segments 0 (CodeWord.ofBytes code) (decode code) := fun code =>
    @segments_decodeFrom 0 [] code (List.forall_mem_nil _)
  constructor
  · intro code
    obtain ⟨covered, run, split, widening, tiles⟩ := (segments code).tiles
    rw [Nat.mul_zero, Nat.zero_add] at tiles
    exact {
      words := CodeWord.exists_half code
      each := @Segments.standFor [] _ _ (segments code) (by simp)
      covered := ⟨covered, run, split, widening, tiles⟩ }
  · intro several
    have written := WrittenInstruction.segments_instructionsFrom 0 several
    have found := segments (several.flatMap WrittenInstruction.bytes)
    rw [WrittenInstruction.ofBytes_flatMap_bytes] at found
    rw [found.unique written, WrittenInstruction.map_instructionsFrom]

-- The first of four widening words falls out of the argument.
example : decode [144, 255, 144, 0, 144, 0, 144, 1, 100, 2] = [⟨0, 10, 100, some 258⟩] := by
  decide

end Instruction
end CodeScope

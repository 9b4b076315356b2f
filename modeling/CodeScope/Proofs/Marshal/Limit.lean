import CodeScope.Proofs.Marshal.Depth
import CodeScope.Proofs.Marshal.Fitting
import CodeScope.Proofs.Marshal.Outcome
import CodeScope.Proofs.Marshal.Tree

/-!
# The limit on nesting

A reader with some levels reads what is written with so many levels of tags. It refuses anything
deeper at the first tag that is below its levels, whatever stands behind that tag. Its counter is
what it was after every value, read or refused, so every value has all levels again.
-/

namespace CodeScope

open Writer

namespace Pieces

/-- Number of bytes in front of the first tag below so many levels, or of all bytes. -/
def reach (levels : Nat) (pieces : Pieces) : Nat :=
  ((pieces.front? levels).getD pieces.data).length

theorem reach_bytes (levels : Nat) (data : Bytes) (rest : Pieces) :
    (bytes data rest).reach levels = data.length + rest.reach levels := by
  rw [reach, reach, front?]
  cases rest.front? levels <;> simp [Pieces.data]

theorem reach_tagged {levels : Nat} {tag : UInt8} {inside : Pieces}
    (shallow : (single tag inside).front? levels = none) (rest : Pieces) :
    (tagged tag inside rest).reach levels =
      (single tag inside).data.length + rest.reach levels := by
  rw [reach, reach, front?_tagged, shallow, Option.none_or, data_tagged]
  cases rest.front? levels <;> simp

end Pieces

namespace Reading

variable {α β : Type} {profile : Profile} {levels : Nat} {inside : Reading (Option Value)}
  {accepts : α → Prop} {state : ReaderState}

/--
A part of a reader that reads some pieces if they have so many levels of tags, and otherwise refuses
them at the first tag below these.
-/
structure Limited (levels : Nat) (part : Reading α) (accepts : α → Prop) (pieces : Pieces)
    (state : ReaderState) : Prop where
  read : pieces.front? levels = none → ∀ rest, state.cursor.rest = pieces.data ++ rest →
    ∃ value, accepts value ∧
      part.outcome state = .ok (value, ⟨rest, state.cursor.offset + pieces.data.length⟩)
  refused : ∀ front, pieces.front? levels = some front →
    ∀ rest, state.cursor.rest = front ++ rest →
      part.outcome state = .error (.nestedTooDeep (state.cursor.offset + front.length))

/-- A part of a reader of values that reads or refuses what is written for them. -/
def LimitsValues (profile : Profile) (levels : Nat) (part : Reading (Option Value)) : Prop :=
  ∀ (value : Option Value) (tag : UInt8) (inside : Pieces), Writes profile value tag inside →
    ∀ state, Limited levels part (·.map Value.unplaced = value.map Value.unplaced)
      (.single tag inside) state

namespace Limited

theorem congr {part other : Reading α} {pieces : Pieces} {next : ReaderState}
    (limited : Limited levels other accepts pieces next) (place : next.cursor = state.cursor)
    (same : part.outcome state = other.outcome next) :
    Limited levels part accepts pieces state where
  read shallow rest stream := by
    rw [same, ← place]
    exact limited.read shallow rest (place ▸ stream)
  refused front deep rest stream := by
    rw [same, ← place]
    exact limited.refused front deep rest (place ▸ stream)

theorem bytes {data : Bytes} {pieces : Pieces} {next : Bytes → Reading α}
    (limited : ∀ state, Limited levels (next data) accepts pieces state) (state : ReaderState) :
    Limited levels (scan (Scan.bytes data.length) >>= next) accepts (.bytes data pieces) state where
  read shallow rest stream := by
    rw [Pieces.front?, Option.map_eq_none_iff] at shallow
    rw [Pieces.data, List.append_assoc] at stream
    obtain ⟨value, accepted, read⟩ := (limited { state with cursor :=
      ⟨pieces.data ++ rest, state.cursor.offset + data.length⟩ }).read shallow rest rfl
    refine ⟨value, accepted, ?_⟩
    rw [outcome_bind_of_ok (scan_bytes_of_stream stream), read, Pieces.data, List.length_append,
      Nat.add_assoc]
  refused front deep rest stream := by
    rw [Pieces.front?, Option.map_eq_some_iff] at deep
    obtain ⟨others, deep, rfl⟩ := deep
    rw [List.append_assoc] at stream
    have refused := (limited { state with cursor :=
      ⟨others ++ rest, state.cursor.offset + data.length⟩ }).refused others deep rest rfl
    rw [outcome_bind_of_ok (scan_bytes_of_stream stream), refused, List.length_append,
      Nat.add_assoc]

theorem value {tag : UInt8} {inner pieces : Pieces} {answers : Option Value → Prop}
    {next : Option Value → Reading α}
    (first : ∀ state, Limited levels inside answers (.single tag inner) state)
    (second : (Pieces.single tag inner).front? levels = none → ∀ answer, answers answer →
      ∀ state, Limited levels (next answer) accepts pieces state) (state : ReaderState) :
    Limited levels (inside >>= next) accepts (.tagged tag inner pieces) state where
  read shallow rest stream := by
    rw [Pieces.front?_tagged, Option.or_eq_none_iff, Option.map_eq_none_iff] at shallow
    rw [Pieces.data_tagged, List.append_assoc] at stream
    obtain ⟨answer, admitted, answered⟩ := (first state).read shallow.1 _ stream
    obtain ⟨middle, answered, place⟩ := outcome_eq_ok_iff.mp answered
    obtain ⟨value, accepted, read⟩ :=
      (second shallow.1 answer admitted middle).read shallow.2 rest (by rw [place])
    refine ⟨value, accepted, ?_⟩
    rw [outcome_bind_of_ok answered, read, place, Pieces.data_tagged, List.length_append,
      Nat.add_assoc]
  refused front deep rest stream := by
    rw [Pieces.front?_tagged] at deep
    cases inFirst : (Pieces.single tag inner).front? levels with
    | some others =>
        rw [inFirst, Option.some_or, Option.some.injEq] at deep
        subst deep
        exact outcome_bind_of_error ((first state).refused others inFirst rest stream)
    | none =>
        rw [inFirst, Option.none_or, Option.map_eq_some_iff] at deep
        obtain ⟨others, deep, rfl⟩ := deep
        rw [List.append_assoc] at stream
        obtain ⟨answer, admitted, answered⟩ := (first state).read inFirst _ stream
        obtain ⟨middle, answered, place⟩ := outcome_eq_ok_iff.mp answered
        rw [outcome_bind_of_ok answered, (second inFirst answer admitted middle).refused others deep
          rest (by rw [place]), place, List.length_append, Nat.add_assoc]

end Limited

/-- A script reads or refuses the pieces that are written for the parts that it goes along. -/
theorem limited_run {script : Script α} {parts : List Part} {pieces : Pieces} {budget : Nat}
    (fits : script.Fits accepts budget parts) (written : WritesAll profile parts pieces)
    (limits : LimitsValues profile levels inside) (enough : pieces.reach levels ≤ budget)
    (slot : Option Nat) (state : ReaderState) :
    Limited levels (script.run inside slot) accepts pieces state := by
  -- The bytes that are known to follow are those up to the first tag that is too deep, so the
  -- budget is as large as they are many at every step.
  induction script generalizing parts pieces budget state with
  | done result =>
      obtain ⟨rfl, accepted⟩ := fits
      cases written
      refine ⟨fun _ rest stream => ⟨result, accepted, ?_⟩, fun front deep => ?_⟩
      · have ended : (Script.done result).run inside slot state = .ok result state := rfl
        have left : state.cursor.rest = rest := stream
        rw [outcome_of_ok ended, ← left]
        rfl
      · cases deep
  | fail error => exact fits.elim
  | takeBytes count next induction =>
      obtain ⟨data, rest, rfl, rfl, fits⟩ := fits
      cases written with
      | bytes others =>
          rw [Pieces.reach_bytes] at enough
          exact Limited.bytes (induction data fits others (by omega)) state
  | askOffset next induction =>
      exact (induction _ (fits state.cursor.offset) written enough state).congr rfl rfl
  | askRemaining next induction =>
      have limited := fun left reached =>
        induction left (fits left) written reached state
      constructor
      · intro shallow rest stream
        refine (limited state.cursor.remaining ?_).read shallow rest stream
        rw [Pieces.reach, shallow, Cursor.remaining, stream, List.length_append]
        exact Nat.le_add_right _ _
      · intro front deep rest stream
        refine (limited state.cursor.remaining ?_).refused front deep rest stream
        rw [Pieces.reach, deep, Cursor.remaining, stream, List.length_append]
        exact Nat.le_add_right _ _
  | markFilling next induction =>
      cases slot with
      | none => exact (induction fits written enough state).congr rfl rfl
      | some index =>
          have filled := induction fits written enough
            { state with slots := state.slots.setIfInBounds index .filling }
          exact filled.congr rfl rfl
  | recordText content next induction =>
      obtain ⟨rest, rfl, fits⟩ := fits
      cases written with
      | recorded others =>
          have recorded := induction fits others enough
            { state with interned := state.interned.push content }
          exact recorded.congr rfl rfl
  | askChild next induction =>
      obtain ⟨value, rest, rfl, fits⟩ := fits
      cases written with
      | @value _ tag inner pieces _ first others =>
          refine Limited.value (limits value tag inner first) ?_ state
          intro shallow answer same
          rw [Pieces.reach_tagged shallow, Pieces.data_single, List.length_cons] at enough
          exact induction answer (fits answer same (pieces.reach levels) (by omega)) others
            (Nat.le_refl _)

/-- A tag takes one level from the body behind it. -/
theorem limited_optional_of_body {char : Char} {form : BodyForm} {value : Value} {pieces : Pieces}
    (flagged : Bool) (named : Tag.ofChar? char = some (.body form))
    (limited : ∀ (site : TagSite) (slot : Option Nat) (middle : ReaderState),
      Limited levels ((Script.body profile site form).run (optional profile levels) slot)
        (·.SameAs value) pieces middle) (state : ReaderState) :
    Limited (levels + 1) (optional profile (levels + 1))
      (·.map Value.unplaced = (some value).map Value.unplaced)
      (.single (tagByte flagged char) pieces) state where
  read shallow rest stream := by
    rw [Pieces.front?_single_succ, Option.map_eq_none_iff] at shallow
    rw [Pieces.data_single, List.cons_append] at stream
    obtain ⟨slot, middle, place, same⟩ := outcome_optional_of_body profile levels named stream
    obtain ⟨copy, sameAs, read⟩ := (limited _ slot middle).read shallow rest (by rw [place])
    have behind : state.cursor.offset + 1 + pieces.data.length =
        state.cursor.offset + (pieces.data.length + 1) := by omega
    refine ⟨some copy, congrArg some sameAs, ?_⟩
    rw [same, read, place, behind, Pieces.data_single]
    rfl
  refused front deep rest stream := by
    rw [Pieces.front?_single_succ, Option.map_eq_some_iff] at deep
    obtain ⟨others, deep, rfl⟩ := deep
    rw [List.cons_append] at stream
    obtain ⟨slot, middle, place, same⟩ := outcome_optional_of_body profile levels named stream
    have behind : state.cursor.offset + 1 + others.length =
        state.cursor.offset + (others.length + 1) := by omega
    rw [same, (limited _ slot middle).refused others deep rest (by rw [place]), place, behind]
    rfl

theorem limited_optional_of_settled {char : Char} {answer : Option Value} (flagged : Bool)
    (named : Tag.ofChar? char = some (answer.elim .null .constant)) (state : ReaderState) :
    Limited (levels + 1) (optional profile (levels + 1))
      (·.map Value.unplaced = answer.map Value.unplaced)
      (.single (tagByte flagged char) .done) state where
  read _ rest stream := ⟨answer, rfl, outcome_optional_of_settled profile levels named stream⟩
  refused front deep rest stream := by cases deep

/-- A reader with some levels reads what is written with so many, and refuses what is deeper. -/
theorem limitsValues_optional (profile : Profile) (levels : Nat) :
    LimitsValues profile levels (optional profile levels) := by
  induction levels with
  | zero =>
      intro value tag inside written state
      refine ⟨fun shallow => ?_, fun front deep rest stream => ?_⟩
      · cases shallow
      · cases deep
        have failed : optional profile 0 state =
            .error (.nestedTooDeep state.cursor.offset) state := rfl
        exact outcome_of_error failed
  | succ levels induction =>
      intro value tag inside written state
      cases written with
      | null flagged => exact @limited_optional_of_settled _ _ '0' none flagged rfl state
      | @constant flagged char value named =>
          exact @limited_optional_of_settled _ _ char (some value) flagged
            (ofChar?_constant named) state
      | @body flagged char value parts _ shape written =>
          obtain ⟨form, named, fits⟩ := Script.fits_of_shape shape
          refine limited_optional_of_body flagged named (fun site slot middle => ?_) state
          exact limited_run (fits site _) written induction (Nat.le_refl _) slot middle

/-- A value with its tag at level one is read or refused with the levels that the reader has. -/
theorem limited_value {value : Value} {tag : UInt8} {inside : Pieces}
    (written : Writes profile (some value) tag inside) (state : ReaderState) :
    Limited (nestingLimit - state.depth) (Reading.value profile) (·.SameAs value)
      (.single tag inside) state where
  read shallow rest stream := by
    obtain ⟨answer, same, read⟩ :=
      (limitsValues_optional profile _ _ tag inside written state).read shallow rest stream
    cases answer with
    | none => cases same
    | some copy => exact ⟨copy, Option.some.inj same, value_outcome_of_ok read⟩
  refused front deep rest stream := value_outcome_of_error
    ((limitsValues_optional profile _ _ tag inside written state).refused front deep rest stream)

variable {value : Value} {tag : UInt8} {pieces : Pieces} {placed : PlacedTag}

/-- A value without a tag below the limit is read, when no other value has been begun. -/
theorem outcome_of_levels (written : Writes profile (some value) tag pieces)
    (outermost : state.depth = 0) {rest : Bytes}
    (stream : state.cursor.rest = (Pieces.single tag pieces).data ++ rest)
    (shallow : ∀ placed ∈ (Pieces.single tag pieces).tags 1 state.cursor.offset,
      placed.level ≤ nestingLimit) :
    ∃ copy, copy.SameAs value ∧ (Reading.value profile).outcome state =
      .ok (copy, ⟨rest, state.cursor.offset + (Pieces.single tag pieces).data.length⟩) := by
  have limited := limited_value written state
  rw [outermost] at limited
  exact limited.read ((Pieces.front?_eq_none_iff _).mpr shallow) rest stream

/-- The first tag below the limit is refused, whatever stands at it and behind it. -/
theorem outcome_of_placed (written : Writes profile (some value) tag pieces)
    (outermost : state.depth = 0) {more : Bytes}
    (found : ((Pieces.single tag pieces).tags 1 state.cursor.offset).find?
      (fun tag => nestingLimit < tag.level) = some placed)
    (stream : state.cursor.rest =
      (Pieces.single tag pieces).data.take (placed.offset - state.cursor.offset) ++ more) :
    (Reading.value profile).outcome state = .error (.nestedTooDeep placed.offset) := by
  have limited := limited_value written state
  rw [outermost] at limited
  obtain ⟨front, deep, rfl, taken⟩ := Pieces.front?_of_find? found
  simp only [Nat.add_sub_cancel_left, taken] at stream
  exact limited.refused front deep more stream

end Reading

open Reading

/--
The limit on nesting. Values are those written without references, with the outermost tag at level
one. The values of a session are read in a state between two calls.
-/
structure NestingLimit : Prop where
  /-- The tags are listed in the order of the stream. -/
  ordered : ∀ (pieces : Pieces) (level offset : Nat),
    (pieces.tags level offset).Pairwise fun tag later => tag.offset < later.offset
  /-- A stream is loaded if and only if no tag is below the limit. -/
  loads : ∀ {version : Version} {profile : Profile} {value : Value} {tag : UInt8} {inside : Pieces},
    Profile.ofVersion version = .ok profile → Writes profile (some value) tag inside →
      ((∃ copy, Value.ofBytes version (Pieces.single tag inside).data = .ok copy) ↔
        ∀ placed ∈ (Pieces.single tag inside).tags 1 0, placed.level ≤ nestingLimit)
  /-- What is loaded is the value that was written. -/
  copies : ∀ {version : Version} {profile : Profile} {value copy : Value} {tag : UInt8}
    {inside : Pieces}, Profile.ofVersion version = .ok profile →
      Writes profile (some value) tag inside →
        Value.ofBytes version (Pieces.single tag inside).data = .ok copy → copy.SameAs value
  /-- The first tag below the limit is one level below, and refused whatever stands there. -/
  refuses : ∀ {version : Version} {profile : Profile} {value : Value} {tag : UInt8}
    {inside : Pieces} {placed : PlacedTag}, Profile.ofVersion version = .ok profile →
      Writes profile (some value) tag inside →
        ((Pieces.single tag inside).tags 1 0).find? (fun tag => nestingLimit < tag.level) =
          some placed →
        placed.level = nestingLimit + 1 ∧
          ∀ more, Value.ofBytes version
            ((Pieces.single tag inside).data.take placed.offset ++ more) =
              .error (.nestedTooDeep placed.offset)
  /-- A value of a session is read if no tag of it is below the limit, -/
  reads : ∀ {profile : Profile} {data rest : Bytes} {state : ReaderState} {value : Value}
    {tag : UInt8} {inside : Pieces}, Call.Reaches profile data state →
      Writes profile (some value) tag inside →
        state.cursor.rest = (Pieces.single tag inside).data ++ rest →
        (∀ placed ∈ (Pieces.single tag inside).tags 1 state.cursor.offset,
          placed.level ≤ nestingLimit) →
        ∃ copy, copy.SameAs value ∧ (Reading.value profile).outcome state =
          .ok (copy, ⟨rest, state.cursor.offset + (Pieces.single tag inside).data.length⟩)
  /-- and otherwise refused at the first tag that is. -/
  refusesLater : ∀ {profile : Profile} {data more : Bytes} {state : ReaderState} {value : Value}
    {tag : UInt8} {inside : Pieces} {placed : PlacedTag}, Call.Reaches profile data state →
      Writes profile (some value) tag inside →
        ((Pieces.single tag inside).tags 1 state.cursor.offset).find?
          (fun tag => nestingLimit < tag.level) = some placed →
        state.cursor.rest =
          (Pieces.single tag inside).data.take (placed.offset - state.cursor.offset) ++ more →
        (Reading.value profile).outcome state = .error (.nestedTooDeep placed.offset)
  /-- The levels that are left are given by a counter, which is compared before each tag. -/
  counts : ∀ (profile : Profile) (state : ReaderState), counted profile state =
    if nestingLimit ≤ state.depth then .error (.nestedTooDeep state.cursor.offset) state
    else nested (tagged profile (counted profile)) state
  /-- The counter is after a value or an error what it was before. -/
  restores : ∀ (profile : Profile) (levels : Nat) (state : ReaderState),
    ((optional profile levels).endState state).depth = state.depth
  /-- The counter is zero between calls, so that each of them has all levels. -/
  renews : ∀ {profile : Profile} {data : Bytes} {state : ReaderState},
    Call.Reaches profile data state → state.depth = 0

section Loading

variable {version : Version} {profile : Profile} {value copy : Value} {tag : UInt8}
variable {inside : Pieces}

theorem Value.ofBytes_of_levels (supported : Profile.ofVersion version = .ok profile)
    (written : Writes profile (some value) tag inside)
    (shallow : ∀ placed ∈ (Pieces.single tag inside).tags 1 0, placed.level ≤ nestingLimit) :
    ∃ copy, copy.SameAs value ∧ ofBytes version (Pieces.single tag inside).data = .ok copy := by
  have stream : (ReaderState.start (Pieces.single tag inside).data).cursor.rest =
      (Pieces.single tag inside).data ++ [] := (List.append_nil _).symm
  obtain ⟨copy, same, read⟩ := outcome_of_levels written rfl stream shallow
  exact ⟨copy, same, ofBytes_of_outcome supported read⟩

theorem Value.ofBytes_of_placed {placed : PlacedTag}
    (supported : Profile.ofVersion version = .ok profile)
    (written : Writes profile (some value) tag inside)
    (found : ((Pieces.single tag inside).tags 1 0).find? (fun tag => nestingLimit < tag.level) =
      some placed) (more : Bytes) :
    ofBytes version ((Pieces.single tag inside).data.take placed.offset ++ more) =
      .error (.nestedTooDeep placed.offset) :=
  ofBytes_of_failed supported (outcome_of_placed written rfl found rfl)

theorem Value.levels_of_ofBytes (supported : Profile.ofVersion version = .ok profile)
    (written : Writes profile (some value) tag inside)
    (loaded : ofBytes version (Pieces.single tag inside).data = .ok copy) :
    ∀ placed ∈ (Pieces.single tag inside).tags 1 0, placed.level ≤ nestingLimit := by
  by_contra deep
  push Not at deep
  obtain ⟨low, member, deep⟩ := deep
  obtain ⟨placed, found⟩ : ∃ placed, ((Pieces.single tag inside).tags 1 0).find?
      (fun tag => nestingLimit < tag.level) = some placed :=
    Option.isSome_iff_exists.mp (List.find?_isSome.mpr ⟨low, member, decide_eq_true deep⟩)
  have refused := ofBytes_of_placed supported written found
    ((Pieces.single tag inside).data.drop placed.offset)
  rw [List.take_append_drop, loaded] at refused
  cases refused

end Loading

theorem nestingLimit_exact : NestingLimit where
  ordered := Pieces.pairwise_tags
  loads supported written := by
    constructor
    · rintro ⟨copy, loaded⟩
      exact Value.levels_of_ofBytes supported written loaded
    · intro shallow
      obtain ⟨copy, -, loaded⟩ := Value.ofBytes_of_levels supported written shallow
      exact ⟨copy, loaded⟩
  copies supported written loaded := by
    have shallow := Value.levels_of_ofBytes supported written loaded
    obtain ⟨other, same, loadedOther⟩ := Value.ofBytes_of_levels supported written shallow
    rw [loaded] at loadedOther
    cases loadedOther
    exact same
  refuses supported written found := by
    refine ⟨?_, Value.ofBytes_of_placed supported written found⟩
    obtain ⟨front, -, rfl, -⟩ := Pieces.front?_of_find? found
    rfl
  reads reached written stream shallow :=
    outcome_of_levels written reached.depth_eq stream shallow
  refusesLater reached written found stream :=
    outcome_of_placed written reached.depth_eq found stream
  counts := counted_eq
  restores profile levels := KeepsDepth.compositional.optional profile levels
  renews reached := reached.depth_eq

/-- An empty dictionary needs two levels, and one behind it has as many as the first. -/
theorem nestingLimit_exact_emptyDict :
    (∃ copy, Value.ofBytes ⟨3, 8⟩ (Pieces.inTuples 1998 .emptyDict).data = .ok copy) ∧
      (∀ more, Value.ofBytes ⟨3, 8⟩ ((Pieces.inTuples 1999 .emptyDict).data.take 3999 ++ more) =
        .error (.nestedTooDeep 3999)) ∧
      ∃ state, Call.Reaches Profile.version38 ((Pieces.inTuples 1998 .emptyDict).data ++
          (Pieces.inTuples 1998 .emptyDict).data) state ∧ 0 < state.cursor.offset ∧
        ∃ copy, (Reading.value Profile.version38).outcome state = .ok copy := by
  have supported : Profile.ofVersion ⟨3, 8⟩ = .ok Profile.version38 := rfl
  have dict := writes_emptyDict Profile.version38
  have shallow : ∀ offset, ∀ placed ∈ (Pieces.inTuples 1998 .emptyDict).tags 1 offset,
      placed.level ≤ nestingLimit := by
    intro offset placed member
    have none : ((Pieces.inTuples 1998 .emptyDict).tags 1 offset).find?
        (fun tag => nestingLimit < tag.level) = none :=
      Pieces.find?_tags_inTuples (show 1998 ≤ nestingLimit by decide) offset .emptyDict
    simpa using List.find?_eq_none.mp none placed member
  have deep : ((Pieces.inTuples 1999 .emptyDict).tags 1 0).find?
      (fun tag => nestingLimit < tag.level) = some ⟨2001, 3999⟩ :=
    Pieces.find?_tags_inTuples (show 1999 ≤ nestingLimit by decide) 0 .emptyDict
  obtain ⟨value, tag, inside, same, written⟩ := writes_inTuples dict 1998
  obtain ⟨_, _, _, sameDeep, writtenDeep⟩ := writes_inTuples dict 1999
  rw [Pieces.emptyDict] at shallow deep ⊢
  rw [same] at shallow ⊢
  rw [sameDeep] at deep ⊢
  refine ⟨(nestingLimit_exact.loads supported written).mpr (shallow 0),
    (nestingLimit_exact.refuses supported writtenDeep deep).2, ?_⟩
  generalize twice : (Pieces.single tag inside).data ++ (Pieces.single tag inside).data = data
  have begun : Call.Reaches Profile.version38 data (.start data) := .start
  obtain ⟨first, -, read⟩ := nestingLimit_exact.reads begun written twice.symm (shallow 0)
  obtain ⟨next, read, place⟩ := outcome_eq_ok_iff.mp read
  have reached : Call.Reaches Profile.version38 data next := by
    have called := begun.call .value
    rwa [Call.read, endState, read] at called
  have stream : next.cursor.rest = (Pieces.single tag inside).data ++ [] := by
    rw [place, List.append_nil]
  obtain ⟨second, -, again⟩ := nestingLimit_exact.reads reached written stream (shallow _)
  refine ⟨next, reached, ?_, _, again⟩
  rw [place, Pieces.data_single]
  exact Nat.succ_pos _

end CodeScope

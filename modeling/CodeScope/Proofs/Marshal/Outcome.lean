import CodeScope.Proofs.Marshal.Decoding

/-!
# Outcomes of readers

What comes of a part of a reader is its result with the place where it ends, or its error. The
outcome of a value with a body is that of its body, whatever is in the tables and whether its tag
asks for a slot or not.
-/

namespace CodeScope
namespace Reading

variable {α β : Type} {profile : Profile} {levels : Nat} {inside : Reading (Option Value)}
variable {part : Reading α} {next : α → Reading β} {state middle : ReaderState} {value : α}

/-- What comes of a part of a reader: its result and the place behind it, or its error. -/
def outcome (part : Reading α) (state : ReaderState) : Except Error (α × Cursor) :=
  match part state with
  | .ok value next => .ok (value, next.cursor)
  | .error error _ => .error error

theorem outcome_of_ok (read : part state = .ok value middle) :
    part.outcome state = .ok (value, middle.cursor) := by
  rw [outcome, read]

theorem outcome_of_error {error : Error} (failed : part state = .error error middle) :
    part.outcome state = .error error := by
  rw [outcome, failed]

theorem outcome_eq_ok_iff {cursor : Cursor} :
    part.outcome state = .ok (value, cursor) ↔
      ∃ next, part state = .ok value next ∧ next.cursor = cursor := by
  rw [outcome]
  cases part state with
  | ok result next => simp [and_assoc]
  | error error next => simp

theorem outcome_eq_error_iff {error : Error} :
    part.outcome state = .error error ↔ ∃ next, part state = .error error next := by
  rw [outcome]
  cases part state <;> simp

theorem outcome_bind_of_ok (read : part state = .ok value middle) :
    (part >>= next).outcome state = (next value).outcome middle := by
  rw [outcome, outcome, bind_of_ok read]

theorem outcome_bind_of_error {error : Error} (failed : part.outcome state = .error error) :
    (part >>= next).outcome state = .error error := by
  obtain ⟨last, failed⟩ := outcome_eq_error_iff.mp failed
  exact outcome_of_error (bind_of_error failed)

theorem outcome_map (convert : α → β) :
    (convert <$> part).outcome state =
      (part.outcome state).map fun result => (convert result.1, result.2) := by
  simp only [outcome, Functor.map, EStateM.map]
  cases part state <;> rfl

theorem outcome_nested :
    (nested part).outcome state = part.outcome { state with depth := state.depth + 1 } := by
  rw [outcome, outcome, nested_eq_endLevel]
  cases part { state with depth := state.depth + 1 } <;> rfl

section Bodies

variable {char : Char} {form : BodyForm} {flagged : Bool} {data : Bytes}

/-- The tag of a form opens a body behind it. -/
theorem opening_of_tagByte (named : Tag.ofChar? char = some (.body form))
    (stream : state.cursor.rest = Writer.tagByte flagged char :: data) :
    ∃ slot next, opening state =
        .ok (.body form ⟨UInt8.ofNat char.toNat, state.cursor.offset⟩ slot) next ∧
      next.cursor = ⟨data, state.cursor.offset + 1⟩ := by
  have started : offset state = .ok state.cursor.offset state := rfl
  have small := Writer.toNat_lt_of_ofChar? named
  have low : (Writer.tagByte flagged char).toNat % 128 = char.toNat := by
    rw [Writer.toNat_tagByte small]
    cases flagged <;> simp <;> omega
  rw [opening, bind_of_ok started, bind_of_ok (scan_u8_of_stream stream)]
  simp only [Writer.ofByte?_tagByte named, low, reserveFor]
  split
  · exact ⟨some state.slots.size, _, rfl, rfl⟩
  · exact ⟨none, _, rfl, rfl⟩

/-- What comes of a value with a body is what comes of the body. -/
theorem outcome_optional_of_body (profile : Profile) (levels : Nat)
    (named : Tag.ofChar? char = some (.body form))
    (stream : state.cursor.rest = Writer.tagByte flagged char :: data) :
    ∃ slot middle, middle.cursor = ⟨data, state.cursor.offset + 1⟩ ∧
      (optional profile (levels + 1)).outcome state =
        (((Script.body profile ⟨UInt8.ofNat char.toNat, state.cursor.offset⟩ form).run
          (optional profile levels) slot).outcome middle).map
            fun result => (some result.1, result.2) := by
  obtain ⟨slot, middle, opened, place⟩ :=
    @opening_of_tagByte { state with depth := state.depth + 1 } _ _ _ _ named stream
  refine ⟨slot, middle, place, ?_⟩
  rw [optional, outcome_nested, tagged, outcome_bind_of_ok opened]
  generalize body : (Script.body profile ⟨UInt8.ofNat char.toNat, state.cursor.offset⟩ form).run
    (optional profile levels) slot = script
  cases read : script middle with
  | error error last =>
      rw [outcome_of_error read]
      exact outcome_bind_of_error (outcome_of_error (body ▸ read))
  | ok value last =>
      rw [outcome_of_ok read]
      exact (outcome_bind_of_ok (body ▸ read)).trans (by cases slot <;> rfl)

/-- A value without a body is what its tag tells, and the empty tag tells nothing. -/
theorem outcome_optional_of_settled (profile : Profile) (levels : Nat) {answer : Option Value}
    (named : Tag.ofChar? char = some (answer.elim .null .constant))
    (stream : state.cursor.rest = Writer.tagByte flagged char :: data) :
    (optional profile (levels + 1)).outcome state =
      .ok (answer, ⟨data, state.cursor.offset + 1⟩) := by
  have opened : opening { state with depth := state.depth + 1 } = .ok (.settled answer)
      ⟨⟨data, state.cursor.offset + 1⟩, state.slots, state.interned, state.depth + 1⟩ := by
    have started : offset { state with depth := state.depth + 1 } =
        .ok state.cursor.offset { state with depth := state.depth + 1 } := rfl
    have tagged := @scan_u8_of_stream { state with depth := state.depth + 1 } _ _ stream
    rw [opening, bind_of_ok started, bind_of_ok tagged]
    simp only [Writer.ofByte?_tagByte named]
    cases answer <;> rfl
  rw [optional, outcome_nested, tagged, outcome_bind_of_ok opened]
  rfl

end Bodies

section Values

variable {result : Value} {cursor : Cursor} {error : Error}

/-- A reader of one value comes to what its tag comes to. -/
theorem value_outcome_of_ok
    (read : (optional profile (nestingLimit - state.depth)).outcome state =
      .ok (some result, cursor)) :
    (Reading.value profile).outcome state = .ok (result, cursor) := by
  obtain ⟨next, read, place⟩ := outcome_eq_ok_iff.mp read
  have asked : Script.offset.run (optional profile (nestingLimit - state.depth)) none state =
      .ok state.cursor.offset state := rfl
  refine outcome_eq_ok_iff.mpr ⟨next, ?_, place⟩
  rw [Reading.value, Script.required, Script.run_bind, bind_of_ok asked, Script.run_bind,
    Script.run_child, bind_of_ok read]
  rfl

theorem value_outcome_of_error
    (failed : (optional profile (nestingLimit - state.depth)).outcome state = .error error) :
    (Reading.value profile).outcome state = .error error := by
  obtain ⟨next, failed⟩ := outcome_eq_error_iff.mp failed
  have asked : Script.offset.run (optional profile (nestingLimit - state.depth)) none state =
      .ok state.cursor.offset state := rfl
  refine outcome_eq_error_iff.mpr ⟨next, ?_⟩
  rw [Reading.value, Script.required, Script.run_bind, bind_of_ok asked, Script.run_bind,
    Script.run_child, bind_of_error failed]

end Values
end Reading

namespace Script

variable {inside : Reading (Option Value)} {slot : Option Nat} {state : ReaderState}

theorem run_i32_of_stream {number : Int32} {data : Bytes}
    (stream : state.cursor.rest = Bytes.ofInt32 number ++ data) :
    i32.run inside slot state =
      .ok number { state with cursor := ⟨data, state.cursor.offset + 4⟩ } := by
  have taken := Reading.scan_littleEndian_of_stream stream
  rw [Bytes.length_ofInt32] at taken
  rw [run_i32, Reading.map_of_ok taken, Bytes.ofNat_ofInt32]

end Script

namespace Value

variable {profile : Profile} {version : Version} {data : Bytes}

/-- A stream is loaded if its value ends where it ends. -/
theorem ofBytes_of_outcome {value : Value} {offset : Nat}
    (supported : Profile.ofVersion version = .ok profile)
    (read : (Reading.value profile).outcome (.start data) = .ok (value, ⟨[], offset⟩)) :
    ofBytes version data = .ok value := by
  obtain ⟨next, read, place⟩ := Reading.outcome_eq_ok_iff.mp read
  have ended : next.cursor.rest = [] := by rw [place]
  have loaded : Reading.topLevel profile (.start data) = .ok value next := by
    rw [Reading.topLevel_of_value read, if_pos ended]
  exact ofBytes_of_ok supported loaded

theorem ofBytes_of_failed {error : Error} (supported : Profile.ofVersion version = .ok profile)
    (failed : (Reading.value profile).outcome (.start data) = .error error) :
    ofBytes version data = .error error := by
  obtain ⟨next, failed⟩ := Reading.outcome_eq_error_iff.mp failed
  exact ofBytes_of_error supported (Reading.bind_of_error failed)

end Value
end CodeScope

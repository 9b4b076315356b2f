import CodeScope.Marshal.Stream
import CodeScope.Proofs.Bytes.Scanning

/-!
# Running scripts

Answering the requests of two scripts in sequence is answering those of the first and then those of
the second. A step of a reader that succeeds passes its result on to the next step. A stream is
loaded when its one value is read and nothing is left.
-/

namespace CodeScope
namespace Reading

variable {α β : Type}

theorem bind_of_ok {part : Reading α} {after : α → Reading β} {state next : ReaderState} {value : α}
    (read : part state = .ok value next) : (part >>= after) state = after value next := by
  simp only [bind, EStateM.bind, read]

theorem bind_of_error {part : Reading α} {after : α → Reading β} {state next : ReaderState}
    {error : Error} (read : part state = .error error next) :
    (part >>= after) state = .error error next := by
  simp only [bind, EStateM.bind, read]

theorem bind_eq_ok {part : Reading α} {after : α → Reading β} {state last : ReaderState}
    {result : β}
    (read : (part >>= after) state = .ok result last) :
    ∃ value next, part state = .ok value next ∧ after value next = .ok result last := by
  cases inner : part state with
  | error error next =>
      rw [bind_of_error inner] at read
      cases read
  | ok value next =>
      rw [bind_of_ok inner] at read
      exact ⟨value, next, rfl, read⟩

/-- Parts that do the same from a state do the same from it in sequence with others. -/
theorem bind_congr_state {part other : Reading α} {state : ReaderState}
    (same : other state = part state) (after : α → Reading β) :
    (other >>= after) state = (part >>= after) state := by
  simp only [bind, EStateM.bind, same]

theorem map_of_ok {part : Reading α} {convert : α → β} {state next : ReaderState} {value : α}
    (read : part state = .ok value next) : (convert <$> part) state = .ok (convert value) next := by
  simp only [Functor.map, EStateM.map, read]

/-- An outcome after the level of nesting that it is reached in has ended. -/
def endLevel : EStateM.Result Error ReaderState α → EStateM.Result Error ReaderState α
  | .ok value next => .ok value { next with depth := next.depth - 1 }
  | .error error next => .error error { next with depth := next.depth - 1 }

theorem nested_eq_endLevel (part : Reading α) (state : ReaderState) :
    nested part state = endLevel (part { state with depth := state.depth + 1 }) := by
  rw [nested]
  cases part { state with depth := state.depth + 1 } <;> rfl

/-- What succeeds one level deeper has succeeded there. -/
theorem nested_eq_ok {part : Reading α} {state next : ReaderState} {value : α}
    (read : nested part state = .ok value next) :
    ∃ inner : ReaderState, part { state with depth := state.depth + 1 } = .ok value inner ∧
      next = { inner with depth := inner.depth - 1 } := by
  rw [nested_eq_endLevel] at read
  cases result : part { state with depth := state.depth + 1 } with
  | error error inner =>
      rw [result] at read
      cases read
  | ok answer inner =>
      rw [result] at read
      cases read
      exact ⟨inner, rfl, rfl⟩

theorem scan_map (convert : α → β) (part : Scan α) :
    scan (convert <$> part) = convert <$> scan part := by
  funext state
  simp only [scan, Functor.map, StateT.map, EStateM.map, Bind.bind, Except.bind]
  cases part state.cursor with
  | error error => rfl
  | ok result => rfl

theorem scan_littleEndian (width : Nat) :
    scan (Scan.littleEndian width) = Bytes.littleEndian <$> scan (Scan.bytes width) :=
  scan_map Bytes.littleEndian (Scan.bytes width)

section Stream

variable {state : ReaderState} {data rest : Bytes}

/-- Bytes at the front of a stream are read, and what is behind them is left. -/
theorem scan_bytes_of_stream (stream : state.cursor.rest = data ++ rest) :
    scan (Scan.bytes data.length) state =
      .ok data { state with cursor := ⟨rest, state.cursor.offset + data.length⟩ } := by
  have taken : Scan.bytes data.length state.cursor =
      .ok (data, ⟨rest, state.cursor.offset + data.length⟩) := by
    simp [Scan.bytes, Cursor.take, stream]
  simp only [scan, taken]

/-- Bytes of which some are missing are not read. -/
theorem scan_bytes_of_short {count : Nat} (short : state.cursor.rest.length < count) :
    scan (Scan.bytes count) state = .error (.truncated count state.cursor.offset) state := by
  simp only [scan, Scan.bytes_of_short short]

/-- Bytes that are all there are read from the front. -/
theorem scan_bytes_of_enough {count : Nat} (enough : count ≤ state.cursor.rest.length) :
    scan (Scan.bytes count) state =
      .ok (state.cursor.rest.take count)
        { state with cursor :=
          ⟨state.cursor.rest.drop count, state.cursor.offset + count⟩ } := by
  simp only [scan, Scan.bytes_of_enough enough]

/-- As many bytes are read as are wanted. -/
theorem length_of_scan_bytes {count : Nat} {next : ReaderState}
    (read : scan (Scan.bytes count) state = .ok data next) : data.length = count := by
  rcases Nat.lt_or_ge state.cursor.rest.length count with short | enough
  · rw [scan_bytes_of_short short] at read
    cases read
  · rw [scan_bytes_of_enough enough] at read
    cases read
    exact List.length_take_of_le enough

theorem scan_littleEndian_of_stream (stream : state.cursor.rest = data ++ rest) :
    scan (Scan.littleEndian data.length) state =
      .ok data.littleEndian
        { state with cursor := ⟨rest, state.cursor.offset + data.length⟩ } := by
  rw [scan_littleEndian, map_of_ok (scan_bytes_of_stream stream)]

theorem scan_u8_of_stream {byte : UInt8} (stream : state.cursor.rest = byte :: rest) :
    scan Scan.u8 state =
      .ok byte { state with cursor := ⟨rest, state.cursor.offset + 1⟩ } := by
  have front : state.cursor.rest = [byte] ++ rest := stream
  have read : scan (Scan.littleEndian 1) state =
      .ok (Bytes.littleEndian [byte])
        { state with cursor := ⟨rest, state.cursor.offset + 1⟩ } :=
    scan_littleEndian_of_stream front
  rw [Scan.u8, scan_map, map_of_ok read]
  simp [Bytes.littleEndian]

end Stream
end Reading

namespace Script

variable {α β : Type} {inside : Reading (Option Value)} {slot : Option Nat}

theorem run_bind (script : Script α) (after : α → Script β) :
    (script >>= after).run inside slot =
      script.run inside slot >>= fun value => (after value).run inside slot := by
  induction script with
  | done result => rfl
  | fail error => rfl
  | takeBytes count next induction =>
      simp only [run, bind_assoc, ← induction]
      rfl
  | askOffset next induction =>
      simp only [run, bind_assoc, ← induction]
      rfl
  | askRemaining next induction =>
      simp only [run, bind_assoc, ← induction]
      rfl
  | markFilling next induction =>
      simp only [run, bind_assoc, ← induction]
      rfl
  | recordText content next induction =>
      simp only [run, bind_assoc, ← induction]
      rfl
  | askChild next induction =>
      simp only [run, bind_assoc, ← induction]
      rfl

theorem run_map (convert : α → β) (script : Script α) :
    (convert <$> script).run inside slot = convert <$> script.run inside slot := by
  have mapped : convert <$> script = script >>= fun value => pure (convert value) := rfl
  rw [mapped, run_bind, map_eq_pure_bind]
  rfl

theorem run_bytes (count : Nat) :
    (bytes count).run inside slot = Reading.scan (Scan.bytes count) := by
  simp only [bytes, run]
  exact bind_pure _

theorem run_number (width : Nat) :
    (number width).run inside slot = Reading.scan (Scan.littleEndian width) := by
  have mapped : number width = Bytes.littleEndian <$> bytes width := rfl
  rw [mapped, run_map, run_bytes, Reading.scan_littleEndian]

theorem run_i32 : i32.run inside slot = Int32.ofNat <$> Reading.scan (Scan.littleEndian 4) := by
  have mapped : i32 = Int32.ofNat <$> number 4 := rfl
  rw [mapped, run_map, run_number]

/-- A long integer is joined from its digits, with the sign of their number. -/
theorem long_eq (site : TagSite) : long site = i32 >>= fun count =>
    (fun digits => if count.toInt < 0 then -(ofLongDigits digits : Int) else ofLongDigits digits)
      <$> times (longDigit site) count.toInt.natAbs := rfl

theorem run_child : child.run inside slot = inside := by
  simp only [child, run]
  exact bind_pure _

end Script

namespace Reading

variable {profile : Profile} {state next : ReaderState} {value : Value}

/-- After its one value a stream has to end. -/
theorem topLevel_of_value (read : Reading.value profile state = .ok value next) :
    topLevel profile state =
      if next.cursor.rest = [] then .ok value next
      else .error (.trailingData next.cursor.rest.length) next := by
  have counted : remaining next = .ok next.cursor.rest.length next := rfl
  rw [topLevel, bind_of_ok read, bind_of_ok counted]
  cases next.cursor.rest with
  | nil => rfl
  | cons byte rest => rfl

theorem topLevel_eq_ok (read : topLevel profile state = .ok value next) :
    Reading.value profile state = .ok value next ∧ next.cursor.rest = [] := by
  cases inner : Reading.value profile state with
  | error error middle =>
      rw [topLevel, bind_of_error inner] at read
      cases read
  | ok result middle =>
      rw [topLevel_of_value inner] at read
      split at read
      · next ended =>
          cases read
          exact ⟨rfl, ended⟩
      · cases read

end Reading

namespace Value

variable {profile : Profile} {version : Version} {data : Bytes} {next : ReaderState} {value : Value}

theorem ofBytes_of_ok (supported : Profile.ofVersion version = .ok profile)
    (read : Reading.topLevel profile (.start data) = .ok value next) :
    ofBytes version data = .ok value := by
  simp only [ofBytes, supported, bind, Except.bind, read]
  rfl

theorem ofBytes_of_error {error : Error} (supported : Profile.ofVersion version = .ok profile)
    (failed : Reading.topLevel profile (.start data) = .error error next) :
    ofBytes version data = .error error := by
  simp only [ofBytes, supported, bind, Except.bind, failed]
  rfl

/-- What is loaded has been read by the reader of a supported version. -/
theorem ofBytes_eq_ok (loaded : ofBytes version data = .ok value) :
    ∃ profile next, Profile.ofVersion version = .ok profile ∧
      Reading.topLevel profile (.start data) = .ok value next := by
  cases supported : Profile.ofVersion version with
  | error error =>
      simp only [ofBytes, supported, bind, Except.bind] at loaded
      cases loaded
  | ok profile =>
      cases read : Reading.topLevel profile (.start data) with
      | ok result next =>
          rw [ofBytes_of_ok supported read] at loaded
          cases loaded
          exact ⟨profile, next, rfl, read⟩
      | error error next =>
          rw [ofBytes_of_error supported read] at loaded
          cases loaded

/-- What cannot be loaded is of a version that is not supported, or the reader has failed. -/
theorem ofBytes_eq_error {error : Error} (failed : ofBytes version data = .error error) :
    error = .unsupportedVersion version ∨
      ∃ profile next, Profile.ofVersion version = .ok profile ∧
        Reading.topLevel profile (.start data) = .error error next := by
  cases supported : Profile.ofVersion version with
  | error other =>
      simp only [ofBytes, supported, bind, Except.bind] at failed
      cases failed
      rw [Profile.ofVersion] at supported
      split at supported
      · cases supported
      · cases supported
        exact .inl rfl
  | ok profile =>
      cases read : Reading.topLevel profile (.start data) with
      | ok result next =>
          rw [ofBytes_of_ok supported read] at failed
          cases failed
      | error other next =>
          rw [ofBytes_of_error supported read] at failed
          cases failed
          exact .inr ⟨profile, next, rfl, read⟩

end Value
end CodeScope

import CodeScope.Proofs.Marshal.Outcome
import CodeScope.Proofs.Text.Recovery

/-!
# Texts

A text is read from any payload, up to the end of the payload and no further. What it was read from
can be told from its characters: under the tags with a byte for each character always, and under
those with UTF-8 if no replacement character stands for a malformed sequence.
-/

namespace CodeScope
namespace TextForm

/-- The tags of a text, for one that is interned and for one that is not. -/
def tag : TextForm → Bool → Char
  | utf8, interned => if interned then 't' else 'u'
  | latin1, interned => if interned then 'A' else 'a'
  | shortLatin1, interned => if interned then 'Z' else 'z'

/-- Number of bytes of the length in front of a payload. -/
def lengthWidth : TextForm → Nat
  | utf8 | latin1 => 4
  | shortLatin1 => 1

/-- The greatest length of a payload. -/
def maxLength : TextForm → Nat
  | utf8 | latin1 => 2 ^ 31 - 1
  | shortLatin1 => 255

/-- The text that a payload is decoded to. -/
def decode : TextForm → Bytes → String
  | utf8, payload => String.ofList (Utf8.decode payload)
  | latin1, payload | shortLatin1, payload => String.ofList (Latin1.decode payload)

theorem ofChar?_tag (form : TextForm) (interned : Bool) :
    Tag.ofChar? (form.tag interned) = some (.body (.text form interned)) := by
  cases form <;> cases interned <;> rfl

/-- A payload with its length in front of it. -/
def sized (form : TextForm) (payload : Bytes) : Bytes :=
  Bytes.digits form.lengthWidth payload.length ++ payload

theorem toList_decode_utf8 (payload : Bytes) :
    (utf8.decode payload).toList = Utf8.decode payload :=
  String.toList_ofList

theorem toList_decode_of_single {form : TextForm} (single : form ≠ .utf8) (payload : Bytes) :
    (form.decode payload).toList = Latin1.decode payload := by
  cases form with
  | utf8 => exact absurd rfl single
  | latin1 | shortLatin1 => exact String.toList_ofList

/-- Where each character has a byte, the bytes are the code points of the characters. -/
theorem map_toNat_decode {form : TextForm} (single : form ≠ .utf8) (payload : Bytes) :
    (form.decode payload).toList.map Char.toNat = payload.map UInt8.toNat := by
  rw [toList_decode_of_single single, Latin1.map_toNat_decode]

theorem length_decode {form : TextForm} (single : form ≠ .utf8) (payload : Bytes) :
    (form.decode payload).length = payload.length := by
  have same := congrArg List.length (map_toNat_decode single payload)
  rwa [List.length_map, List.length_map, String.length_toList] at same

theorem decode_injective {form : TextForm} (single : form ≠ .utf8) :
    Function.Injective form.decode := by
  intro payload other same
  apply Latin1.decode_injective
  rw [← toList_decode_of_single single, same, toList_decode_of_single single]

end TextForm

namespace Script

variable {inside : Reading (Option Value)} {slot : Option Nat} {state : ReaderState}
  {site : TagSite} {payload rest : Bytes}

theorem run_number_of_stream {width number : Nat} (small : number < 256 ^ width)
    (stream : state.cursor.rest = Bytes.digits width number ++ rest) :
    (Script.number width).run inside slot state =
      .ok number { state with cursor := ⟨rest, state.cursor.offset + width⟩ } := by
  have taken := Reading.scan_littleEndian_of_stream stream
  rw [Bytes.length_digits, Bytes.littleEndian_digits_of_lt small] at taken
  rw [run_number, taken]

theorem run_bytes_of_stream (stream : state.cursor.rest = payload ++ rest) :
    (Script.bytes payload.length).run inside slot state =
      .ok payload { state with cursor := ⟨rest, state.cursor.offset + payload.length⟩ } := by
  rw [run_bytes, Reading.scan_bytes_of_stream stream]

/-- A length below 2³¹ is read as it is, though it is read as a signed number. -/
theorem run_length_of_stream {size : Nat} (small : size < 2 ^ 31)
    (stream : state.cursor.rest = Bytes.digits 4 size ++ rest) :
    (Script.length site).run inside slot state =
      .ok size { state with cursor := ⟨rest, state.cursor.offset + 4⟩ } := by
  have signed : (Int32.ofNat size).toInt = size := Int32.toInt_ofNat_of_lt small
  have word : (Int32.ofNat size).toUInt32.toNat = size := by
    rw [Int32.toUInt32_ofNat', UInt32.toNat_ofNat_of_lt' (Nat.lt_trans small (by decide))]
  have count : state.cursor.rest = Bytes.ofInt32 (Int32.ofNat size) ++ rest := by
    rw [stream, Bytes.ofInt32, word]
  rw [Script.length, run_bind, Reading.bind_of_ok (run_i32_of_stream count)]
  simp only [signed]
  rw [if_neg (by omega)]
  rfl

theorem run_byteString_of_stream (small : payload.length < 2 ^ 31)
    (stream : state.cursor.rest = Bytes.digits 4 payload.length ++ (payload ++ rest)) :
    (byteString site).run inside slot state =
      .ok payload { state with cursor := ⟨rest, state.cursor.offset + 4 + payload.length⟩ } := by
  rw [byteString, run_bind, Reading.bind_of_ok (run_length_of_stream small stream)]
  exact run_bytes_of_stream rfl

/-- A text is read from its payload, whatever the payload is. -/
theorem run_text_of_stream (form : TextForm) (size : payload.length ≤ form.maxLength)
    (stream : state.cursor.rest = form.sized payload ++ rest) :
    (Script.text site form).run inside slot state =
      .ok (form.decode payload) { state with cursor :=
        ⟨rest, state.cursor.offset + form.lengthWidth + payload.length⟩ } := by
  rw [TextForm.sized, List.append_assoc] at stream
  cases form with
  | utf8 =>
      have mapped : Script.text site .utf8 = TextForm.utf8.decode <$> byteString site := rfl
      have small : payload.length < 2 ^ 31 := Nat.lt_of_le_pred (by decide) size
      rw [mapped, run_map]
      exact Reading.map_of_ok (run_byteString_of_stream small stream)
  | latin1 =>
      have mapped : Script.text site .latin1 = TextForm.latin1.decode <$> byteString site := rfl
      have small : payload.length < 2 ^ 31 := Nat.lt_of_le_pred (by decide) size
      rw [mapped, run_map]
      exact Reading.map_of_ok (run_byteString_of_stream small stream)
  | shortLatin1 =>
      have small : payload.length < 256 ^ 1 := Nat.lt_succ_of_le size
      rw [Script.text, run_bind, Reading.bind_of_ok (run_number_of_stream small stream), run_bind,
        Reading.bind_of_ok (run_bytes_of_stream rfl)]
      rfl

end Script

namespace Reading

variable {state : ReaderState} {flagged : Bool} {payload rest : Bytes}

/-- A text is read behind any of its tags, to the end of its payload. -/
theorem outcome_optional_of_text (profile : Profile) (levels : Nat) (form : TextForm)
    (interned : Bool) (size : payload.length ≤ form.maxLength)
    (stream : state.cursor.rest =
      Writer.tagByte flagged (form.tag interned) :: (form.sized payload ++ rest)) :
    (optional profile (levels + 1)).outcome state =
      .ok (some (.text (form.decode payload) interned),
        ⟨rest, state.cursor.offset + 1 + form.lengthWidth + payload.length⟩) := by
  obtain ⟨slot, middle, place, same⟩ :=
    outcome_optional_of_body profile levels (form.ofChar?_tag interned) stream
  have inside : middle.cursor.rest = form.sized payload ++ rest := by rw [place]
  rw [same, Script.body, Script.run_bind,
    outcome_bind_of_ok (Script.run_text_of_stream form size inside), place]
  cases interned <;> rfl

end Reading

/-- Texts are decoded from all payloads, and nothing of a payload is lost unnoticed. -/
structure TextDecoding : Prop where
  /-- A text is read behind any of its tags, to the end of its payload. -/
  read : ∀ (profile : Profile) (levels : Nat) {state : ReaderState} {flagged : Bool}
    (form : TextForm) (interned : Bool) {payload rest : Bytes},
    payload.length ≤ form.maxLength →
    state.cursor.rest = Writer.tagByte flagged (form.tag interned) :: (form.sized payload ++ rest) →
      (Reading.optional profile (levels + 1)).outcome state =
        .ok (some (.text (form.decode payload) interned),
          ⟨rest, state.cursor.offset + 1 + form.lengthWidth + payload.length⟩)
  /-- A text and nothing else is loaded by every supported version. -/
  loaded : ∀ {profile : Profile} {version : Version} (flagged : Bool) (form : TextForm)
    (interned : Bool) {payload : Bytes}, Profile.ofVersion version = .ok profile →
    payload.length ≤ form.maxLength →
      Value.ofBytes version
        (Writer.tagByte flagged (form.tag interned) :: form.sized payload) =
          .ok (.text (form.decode payload) interned)
  /-- Where each character has a byte, the bytes are the code points of the characters. -/
  codePoints : ∀ {form : TextForm}, form ≠ .utf8 → ∀ payload : Bytes,
    (form.decode payload).length = payload.length ∧
      (form.decode payload).toList.map Char.toNat = payload.map UInt8.toNat
  /-- Where each character has a byte, different payloads are different texts. -/
  injective : ∀ {form : TextForm}, form ≠ .utf8 → Function.Injective form.decode
  /-- The bytes of a text in UTF-8 are decoded to the text. -/
  encoded : ∀ content : String, TextForm.utf8.decode (Bytes.utf8 content) = content
  /-- A text without replacement characters was decoded from its own bytes in UTF-8. -/
  kept : ∀ payload : Bytes, '\uFFFD' ∉ (TextForm.utf8.decode payload).toList →
    Bytes.utf8 (TextForm.utf8.decode payload) = payload
  /-- Strict decoding accepts the bytes of texts and nothing else. -/
  strict : ∀ {payload : Bytes} {content : List Char},
    Utf8.decode? payload = some content ↔ payload = Bytes.utf8 (String.ofList content)
  /-- What strict decoding accepts is decoded to the same text where nothing is refused. -/
  agreed : ∀ {payload : Bytes} {content : List Char},
    Utf8.decode? payload = some content → Utf8.decode payload = content

theorem textDecoding : TextDecoding where
  read profile levels _ _ form interned _ _ size stream :=
    Reading.outcome_optional_of_text profile levels form interned size stream
  loaded {profile version} flagged form interned {payload} supported size := by
    have stream : (ReaderState.start
        (Writer.tagByte flagged (form.tag interned) :: form.sized payload)).cursor.rest =
          Writer.tagByte flagged (form.tag interned) :: (form.sized payload ++ []) := by
      rw [List.append_nil]
      rfl
    have read := Reading.outcome_optional_of_text profile 1999 form interned size stream
    exact Value.ofBytes_of_outcome supported (Reading.value_outcome_of_ok read)
  codePoints single payload :=
    ⟨TextForm.length_decode single payload, TextForm.map_toNat_decode single payload⟩
  injective := TextForm.decode_injective
  encoded := Bytes.decode_utf8
  kept payload whole := by
    rw [TextForm.toList_decode_utf8] at whole
    rw [Bytes.utf8, TextForm.toList_decode_utf8, Utf8.encode_decode whole]
  strict {payload content} := by
    rw [Utf8.decode?_eq_some_iff, Bytes.utf8, String.toList_ofList]
  agreed accepted := by
    rw [Utf8.decode?_eq_some_iff.mp accepted, Utf8.decode_encode]

/-- A sequence that is cut off by another character, in a slot. -/
theorem textDecoding_cutSequence :
    Value.ofBytes ⟨3, 8⟩ [0xF5, 4, 0, 0, 0, 0x61, 0xE2, 0x82, 0x28] =
      .ok (.text "a\uFFFD(" false) := by
  have supported : Profile.ofVersion ⟨3, 8⟩ = .ok Profile.version38 := rfl
  have fits : ([0x61, 0xE2, 0x82, 0x28] : Bytes).length ≤ TextForm.maxLength .utf8 := by decide
  exact textDecoding.loaded true .utf8 false supported fits

end CodeScope

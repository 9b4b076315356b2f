import CodeScope.Proofs.Text.Decoding

/-!
# Recovery of encoded text

The bytes of a text can be recovered from its characters. In Latin-1 every byte is the code point of
its character. In UTF-8 this is so if no sequence was malformed, that is if the text holds no
replacement character.
-/

namespace CodeScope

theorem toNat_ofNat_of_valid {number : Nat} (valid : number.isValidChar) :
    (Char.ofNat number).toNat = number := by
  rw [Char.ofNat, dif_pos valid]
  rfl

namespace Latin1

/-- The code points of the characters are the bytes. -/
theorem map_toNat_decode (bytes : List UInt8) :
    (decode bytes).map Char.toNat = bytes.map UInt8.toNat := by
  rw [decode, List.map_map]
  refine List.map_congr_left fun byte _ => ?_
  exact toNat_ofNat_of_valid (.inl (Nat.lt_trans byte.toNat_lt (by decide)))

theorem decode_injective {left right : List UInt8} (same : decode left = decode right) :
    left = right := by
  have codes : left.map UInt8.toNat = right.map UInt8.toNat := by
    rw [← map_toNat_decode, same, map_toNat_decode]
  exact (List.map_inj_right fun _ _ => UInt8.toNat_inj.mp).mp codes

end Latin1

namespace Utf8

private theorem bounds_of_admits {sequence : Sequence} {byte : UInt8}
    (admits : sequence.admits byte = true) :
    sequence.low.toNat ≤ byte.toNat ∧ byte.toNat ≤ sequence.high.toNat := by
  simpa [Sequence.admits, UInt8.le_iff_toNat_le] using admits

/-- Bytes that complete an open sequence, with the number that the whole sequence writes. -/
inductive Completes : Sequence → List UInt8 → Nat → Prop
  | last {low high : UInt8} {code : Nat} {byte : UInt8}
      (least : low.toNat ≤ byte.toNat) (greatest : byte.toNat ≤ high.toNat) :
      Completes ⟨0, low, high, code⟩ [byte] (64 * code + byte.toNat % 64)
  | further {missing : Nat} {low high : UInt8} {code number : Nat} {byte : UInt8}
      {rest : List UInt8} (least : low.toNat ≤ byte.toNat) (greatest : byte.toNat ≤ high.toNat)
      (others : Completes ⟨missing, 0x80, 0xBF, 64 * code + byte.toNat % 64⟩ rest number) :
      Completes ⟨missing + 1, low, high, code⟩ (byte :: rest) number

/-- A sequence that is not malformed is completed by the bytes behind it. -/
theorem exists_completes {sequence : Sequence} {bytes : List UInt8}
    (whole : none ∉ pieces (some sequence) bytes) :
    ∃ tail number rest, bytes = tail ++ rest ∧ Completes sequence tail number := by
  induction bytes generalizing sequence with
  | nil => simp [pieces] at whole
  | cons byte bytes induction =>
      obtain ⟨missing, low, high, code⟩ := sequence
      by_cases admits : Sequence.admits ⟨missing, low, high, code⟩ byte = true
      · obtain ⟨least, greatest⟩ := bounds_of_admits admits
        cases missing with
        | zero => exact ⟨[byte], _, bytes, rfl, .last least greatest⟩
        | succ missing =>
            have others : none ∉
                pieces (some ⟨missing, 0x80, 0xBF, 64 * code + byte.toNat % 64⟩) bytes := by
              simpa [pieces, next, admits, Sequence.extend, Step.settle] using whole
            obtain ⟨tail, number, rest, rfl, completes⟩ := induction others
            exact ⟨byte :: tail, number, rest, rfl, .further least greatest completes⟩
      · simp [pieces, next, admits] at whole

/-- What a first byte opens: its own bits, and the bounds of the byte after it. -/
inductive Opens (byte : UInt8) : Sequence → Prop
  | two {code : Nat} (first : byte.toNat = 0xC0 + code) (long : 2 ≤ code) (short : code < 32) :
      Opens byte ⟨0, 0x80, 0xBF, code⟩
  | three {least greatest : UInt8} {code : Nat} (first : byte.toNat = 0xE0 + code)
      (short : code < 16) (least_le : 0x80 ≤ least.toNat) (le_greatest : greatest.toNat ≤ 0xBF)
      (long : code = 0 → 0xA0 ≤ least.toNat) (scalar : code = 13 → greatest.toNat ≤ 0x9F) :
      Opens byte ⟨1, least, greatest, code⟩
  | four {least greatest : UInt8} {code : Nat} (first : byte.toNat = 0xF0 + code)
      (short : code ≤ 4) (least_le : 0x80 ≤ least.toNat) (le_greatest : greatest.toNat ≤ 0xBF)
      (long : code = 0 → 0x90 ≤ least.toNat) (last : code = 4 → greatest.toNat ≤ 0x8F) :
      Opens byte ⟨2, least, greatest, code⟩

/-- What a byte starts: a whole character, a sequence, or nothing. -/
inductive Starts (byte : UInt8) : Step → Prop
  | char (small : byte.toNat < 0x80) : Starts byte (.char (Char.ofNat byte.toNat))
  | opens {sequence : Sequence} (opens : Opens byte sequence) : Starts byte (.opens sequence)
  | stray : Starts byte .stray

theorem starts_lead (byte : UInt8) : Starts byte (lead byte) := by
  simp only [lead]
  split
  · exact .char (by omega)
  split
  · exact .stray
  split
  · exact .opens (.two (by omega) (by omega) (by omega))
  split
  · exact .opens (.three (by omega) (by omega) (by decide) (by decide) (fun _ => by decide)
      (by omega))
  split
  · exact .opens (.three (by omega) (by omega) (by decide) (by decide) (by omega)
      (fun _ => by decide))
  split
  · exact .opens (.three (by omega) (by omega) (by decide) (by decide) (by omega) (by omega))
  split
  · exact .opens (.four (by omega) (by omega) (by decide) (by decide) (fun _ => by decide)
      (by omega))
  split
  · exact .opens (.four (by omega) (by omega) (by decide) (by decide) (by omega) (by omega))
  split
  · exact .opens (.four (by omega) (by omega) (by decide) (by decide) (by omega)
      (fun _ => by decide))
  · exact .stray

private theorem encode_one {byte : UInt8} (small : byte.toNat < 0x80) :
    String.utf8EncodeChar (Char.ofNat byte.toNat) = [byte] := by
  have same : (Char.ofNat byte.toNat).val.toNat = byte.toNat :=
    toNat_ofNat_of_valid (.inl (by omega))
  simp only [String.utf8EncodeChar, same]
  rw [if_pos (by omega), UInt8.ofNat_toNat]

private theorem encode_two {number : Nat} (low : 0x80 ≤ number) (high : number < 0x800) :
    String.utf8EncodeChar (Char.ofNat number) =
      [UInt8.ofNat (number / 64 % 32 + 0xC0), UInt8.ofNat (number % 64 + 0x80)] := by
  have same : (Char.ofNat number).val.toNat = number := toNat_ofNat_of_valid (.inl (by omega))
  simp only [String.utf8EncodeChar, same]
  rw [if_neg (by omega), if_pos (by omega)]

private theorem encode_three {number : Nat} (low : 0x800 ≤ number) (high : number < 0x10000)
    (scalar : number.isValidChar) :
    String.utf8EncodeChar (Char.ofNat number) =
      [UInt8.ofNat (number / 4096 % 16 + 0xE0), UInt8.ofNat (number / 64 % 64 + 0x80),
        UInt8.ofNat (number % 64 + 0x80)] := by
  have same : (Char.ofNat number).val.toNat = number := toNat_ofNat_of_valid scalar
  simp only [String.utf8EncodeChar, same]
  rw [if_neg (by omega), if_neg (by omega), if_pos (by omega)]

private theorem encode_four {number : Nat} (low : 0x10000 ≤ number) (high : number < 0x110000) :
    String.utf8EncodeChar (Char.ofNat number) =
      [UInt8.ofNat (number / 262144 % 8 + 0xF0), UInt8.ofNat (number / 4096 % 64 + 0x80),
        UInt8.ofNat (number / 64 % 64 + 0x80), UInt8.ofNat (number % 64 + 0x80)] := by
  have same : (Char.ofNat number).val.toNat = number :=
    toNat_ofNat_of_valid (.inr ⟨by omega, high⟩)
  simp only [String.utf8EncodeChar, same]
  rw [if_neg (by omega), if_neg (by omega), if_neg (by omega)]

private theorem cons_eq {number : Nat} {byte : UInt8} {written bytes : List UInt8}
    (first : number = byte.toNat) (others : written = bytes) :
    UInt8.ofNat number :: written = byte :: bytes := by
  rw [first, UInt8.ofNat_toNat, others]

/-- A sequence that is complete is the encoding of its character. -/
theorem encode_of_completes {byte : UInt8} {sequence : Sequence} {tail : List UInt8} {number : Nat}
    (opens : Opens byte sequence) (completes : Completes sequence tail number) :
    String.utf8EncodeChar (Char.ofNat number) = byte :: tail := by
  have low : (0x80 : UInt8).toNat = 0x80 := rfl
  have high : (0xBF : UInt8).toNat = 0xBF := rfl
  cases opens with
  | two first long short =>
      cases completes with
      | last least greatest =>
          rw [encode_two (by omega) (by omega)]
          exact cons_eq (by omega) (cons_eq (by omega) rfl)
  | @three _ _ code first short least_le le_greatest long scalar =>
      cases completes with
      | @further _ _ _ _ _ second _ least greatest others =>
          cases others with
          | @last _ _ _ third least' greatest' =>
              have valid : Nat.isValidChar
                  (64 * (64 * code + second.toNat % 64) + third.toNat % 64) := by
                unfold Nat.isValidChar
                omega
              rw [encode_three (by omega) (by omega) valid]
              exact cons_eq (by omega) (cons_eq (by omega) (cons_eq (by omega) rfl))
  | four first short least_le le_greatest long last =>
      cases completes with
      | further least greatest others =>
          cases others with
          | further least' greatest' others =>
              cases others with
              | last least'' greatest'' =>
                  rw [encode_four (by omega) (by omega)]
                  exact cons_eq (by omega)
                    (cons_eq (by omega) (cons_eq (by omega) (cons_eq (by omega) rfl)))

/-- Bytes with no malformed sequence begin with the encoding of a character. -/
theorem exists_encoded {byte : UInt8} {bytes : List UInt8}
    (whole : none ∉ pieces none (byte :: bytes)) :
    ∃ char rest, byte :: bytes = String.utf8EncodeChar char ++ rest := by
  have starts := starts_lead byte
  cases leads : lead byte with
  | char char =>
      rw [leads] at starts
      cases starts with
      | char small => exact ⟨_, bytes, by rw [encode_one small, List.singleton_append]⟩
  | opens sequence =>
      rw [leads] at starts
      cases starts with
      | opens opens =>
          have others : none ∉ pieces (some sequence) bytes := by
            simpa [pieces, next, leads, Step.settle] using whole
          obtain ⟨tail, number, rest, rfl, completes⟩ := exists_completes others
          refine ⟨Char.ofNat number, rest, ?_⟩
          rw [encode_of_completes opens completes, List.cons_append]
  | stray => simp [pieces, next, leads, Step.settle] at whole

/-- Bytes whose pieces are characters are the encoding of these. -/
theorem eq_encode_of_pieces {bytes : List UInt8} {content : List Char}
    (whole : pieces none bytes = content.map some) :
    bytes = content.flatMap String.utf8EncodeChar := by
  induction content generalizing bytes with
  | nil =>
      cases bytes with
      | nil => rfl
      | cons byte bytes =>
          have nothing : none ∉ pieces none (byte :: bytes) := by simp [whole]
          obtain ⟨char, rest, split⟩ := exists_encoded nothing
          rw [split, pieces_encoded] at whole
          cases whole
  | cons char content induction =>
      cases bytes with
      | nil => cases whole
      | cons byte bytes =>
          have sound : none ∉ pieces none (byte :: bytes) := by simp [whole]
          obtain ⟨first, rest, split⟩ := exists_encoded sound
          rw [split, pieces_encoded, List.map_cons, List.cons.injEq, Option.some.injEq] at whole
          rw [split, whole.1, List.flatMap_cons, ← induction whole.2]

theorem mapM_id_eq_some_iff {options : List (Option Char)} {values : List Char} :
    options.mapM id = some values ↔ options = values.map some := by
  induction options generalizing values with
  | nil => cases values <;> simp
  | cons option options induction =>
      rw [List.mapM_cons, Option.bind_eq_bind, Option.bind_eq_some_iff]
      simp only [Option.bind_eq_bind, Option.bind_eq_some_iff, induction, id_eq]
      cases values with
      | nil => simp
      | cons value values => simp [eq_comm]

/-- Strict decoding accepts exactly the bytes of texts. -/
theorem decode?_eq_some_iff {bytes : List UInt8} {content : List Char} :
    decode? bytes = some content ↔ bytes = content.flatMap String.utf8EncodeChar := by
  rw [decode?, mapM_id_eq_some_iff]
  constructor
  · exact eq_encode_of_pieces
  · rintro rfl
    exact pieces_encode content

/-- Decoding has lost nothing if there is no replacement character in its result. -/
theorem encode_decode {bytes : List UInt8} (kept : '\uFFFD' ∉ decode bytes) :
    (decode bytes).flatMap String.utf8EncodeChar = bytes := by
  have whole : pieces none bytes = (decode bytes).map some := by
    rw [decode, List.map_map]
    refine (List.map_id' _).symm.trans (List.map_congr_left fun piece member => ?_)
    cases piece with
    | none => exact absurd (List.mem_map.mpr ⟨none, member, rfl⟩) kept
    | some char => rfl
  exact (eq_encode_of_pieces whole).symm

end Utf8
end CodeScope

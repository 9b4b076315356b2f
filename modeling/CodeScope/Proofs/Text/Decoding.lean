import CodeScope.Text.Latin1
import CodeScope.Text.Utf8

/-!
# Decoding of encoded text

Decoding gives back the characters whose encoding it is given. A character is encoded in one to
four bytes; the bounds that a first byte sets on the second one admit exactly what an encoder writes
there. In Latin-1 a character is one byte, if it is one of the first 256.
-/

namespace CodeScope
namespace Utf8

private theorem pieces_of_char {byte : UInt8} {char : Char} (leads : lead byte = .char char)
    (rest : List UInt8) :
    pieces none (byte :: rest) = some char :: pieces none rest := by
  simp [pieces, next, leads, Step.settle]

private theorem pieces_of_opens {byte : UInt8} {sequence : Sequence}
    (leads : lead byte = .opens sequence) (rest : List UInt8) :
    pieces none (byte :: rest) = pieces (some sequence) rest := by
  simp [pieces, next, leads, Step.settle]

private theorem pieces_of_last {sequence : Sequence} {byte : UInt8}
    (admits : sequence.admits byte = true) (complete : sequence.missing = 0) (rest : List UInt8) :
    pieces (some sequence) (byte :: rest) =
      some (Char.ofNat (64 * sequence.code + byte.toNat % 64)) :: pieces none rest := by
  simp [pieces, next, admits, Sequence.extend, complete, Step.settle]

private theorem pieces_of_further {sequence : Sequence} {byte : UInt8} {missing : Nat}
    (admits : sequence.admits byte = true) (incomplete : sequence.missing = missing + 1)
    (rest : List UInt8) :
    pieces (some sequence) (byte :: rest) =
      pieces (some ⟨missing, 0x80, 0xBF, 64 * sequence.code + byte.toNat % 64⟩) rest := by
  simp [pieces, next, admits, Sequence.extend, incomplete, Step.settle]

private theorem admits_of_bounds {sequence : Sequence} {byte : UInt8}
    (low : sequence.low.toNat ≤ byte.toNat) (high : byte.toNat ≤ sequence.high.toNat) :
    sequence.admits byte = true := by
  simp only [Sequence.admits, Bool.and_eq_true, decide_eq_true_eq]
  exact ⟨UInt8.le_iff_toNat_le.mpr low, UInt8.le_iff_toNat_le.mpr high⟩

/-- A byte that goes on a sequence, with the six bits of its group. -/
private theorem continuation_toNat (group : Nat) :
    (UInt8.ofNat (group % 64 + 0x80)).toNat = group % 64 + 0x80 := by
  rw [UInt8.toNat_ofNat']
  omega

/-- The byte that starts a sequence of two opens it to every byte that can go on a sequence. -/
private theorem lead_two {number : Nat} (low : 0x80 ≤ number) (high : number < 0x800) :
    lead (UInt8.ofNat (number / 64 % 32 + 0xC0)) = .opens ⟨0, 0x80, 0xBF, number / 64⟩ := by
  have first : (UInt8.ofNat (number / 64 % 32 + 0xC0)).toNat = number / 64 + 0xC0 := by
    rw [UInt8.toNat_ofNat']
    omega
  simp only [lead, first]
  rw [if_neg (by omega), if_neg (by omega), if_pos (by omega)]
  have code : (number / 64 + 0xC0) % 32 = number / 64 := by omega
  rw [code]

/-- The byte that starts a sequence of three opens it to the second byte of its character. -/
private theorem lead_three {number : Nat} (low : 0x800 ≤ number) (high : number < 0x10000)
    (scalar : number < 0xD800 ∨ 0xDFFF < number) :
    ∃ least greatest : UInt8,
      lead (UInt8.ofNat (number / 4096 % 16 + 0xE0)) =
        .opens ⟨1, least, greatest, number / 4096⟩ ∧
      least.toNat ≤ number / 64 % 64 + 0x80 ∧ number / 64 % 64 + 0x80 ≤ greatest.toNat := by
  have first : (UInt8.ofNat (number / 4096 % 16 + 0xE0)).toNat = number / 4096 + 0xE0 := by
    rw [UInt8.toNat_ofNat']
    omega
  simp only [lead, first]
  rw [if_neg (by omega), if_neg (by omega), if_neg (by omega)]
  by_cases shortest : number / 4096 = 0
  · refine ⟨0xA0, 0xBF, ?_, ?_, ?_⟩
    · rw [if_pos (by omega), shortest]
    · show 0xA0 ≤ number / 64 % 64 + 0x80
      omega
    · show number / 64 % 64 + 0x80 ≤ 0xBF
      omega
  · by_cases surrogates : number / 4096 = 13
    · refine ⟨0x80, 0x9F, ?_, ?_, ?_⟩
      · rw [if_neg (by omega), if_pos (by omega), surrogates]
      · exact Nat.le_add_left _ _
      · show number / 64 % 64 + 0x80 ≤ 0x9F
        omega
    · refine ⟨0x80, 0xBF, ?_, ?_, ?_⟩
      · have code : (number / 4096 + 0xE0) % 16 = number / 4096 := by omega
        rw [if_neg (by omega), if_neg (by omega), if_pos (by omega), code]
      · exact Nat.le_add_left _ _
      · show number / 64 % 64 + 0x80 ≤ 0xBF
        omega

/-- The byte that starts a sequence of four opens it to the second byte of its character. -/
private theorem lead_four {number : Nat} (low : 0x10000 ≤ number) (high : number < 0x110000) :
    ∃ least greatest : UInt8,
      lead (UInt8.ofNat (number / 262144 % 8 + 0xF0)) =
        .opens ⟨2, least, greatest, number / 262144⟩ ∧
      least.toNat ≤ number / 4096 % 64 + 0x80 ∧ number / 4096 % 64 + 0x80 ≤ greatest.toNat := by
  have first : (UInt8.ofNat (number / 262144 % 8 + 0xF0)).toNat = number / 262144 + 0xF0 := by
    rw [UInt8.toNat_ofNat']
    omega
  simp only [lead, first]
  rw [if_neg (by omega), if_neg (by omega), if_neg (by omega), if_neg (by omega),
    if_neg (by omega), if_neg (by omega)]
  by_cases shortest : number / 262144 = 0
  · refine ⟨0x90, 0xBF, ?_, ?_, ?_⟩
    · rw [if_pos (by omega), shortest]
    · show 0x90 ≤ number / 4096 % 64 + 0x80
      omega
    · show number / 4096 % 64 + 0x80 ≤ 0xBF
      omega
  · by_cases greatest : number / 262144 = 4
    · refine ⟨0x80, 0x8F, ?_, ?_, ?_⟩
      · rw [if_neg (by omega), if_neg (by omega), if_pos (by omega), greatest]
      · exact Nat.le_add_left _ _
      · show number / 4096 % 64 + 0x80 ≤ 0x8F
        omega
    · refine ⟨0x80, 0xBF, ?_, ?_, ?_⟩
      · have code : (number / 262144 + 0xF0) % 8 = number / 262144 := by omega
        rw [if_neg (by omega), if_pos (by omega), code]
      · exact Nat.le_add_left _ _
      · show number / 4096 % 64 + 0x80 ≤ 0xBF
        omega

/-- A byte that goes on a sequence belongs to the bounds of a sequence without any. -/
private theorem admits_continuation (missing code group : Nat) :
    Sequence.admits ⟨missing, 0x80, 0xBF, code⟩ (UInt8.ofNat (group % 64 + 0x80)) = true := by
  apply admits_of_bounds
  · rw [continuation_toNat]
    exact Nat.le_add_left _ _
  · rw [continuation_toNat]
    show group % 64 + 0x80 ≤ 0xBF
    omega

/-- The encoding of a character, whatever follows it, is one piece. -/
theorem pieces_encoded (char : Char) (rest : List UInt8) :
    pieces none (String.utf8EncodeChar char ++ rest) = some char :: pieces none rest := by
  have valid : char.toNat < 0xD800 ∨ 0xDFFF < char.toNat ∧ char.toNat < 0x110000 := char.valid
  have back : Char.ofNat char.toNat = char := Char.ofNat_toNat char
  have number : char.val.toNat = char.toNat := rfl
  simp only [String.utf8EncodeChar, number]
  generalize char.toNat = number at valid back
  split
  · next one =>
      have leads : lead (UInt8.ofNat number) = .char char := by
        have byte : (UInt8.ofNat number).toNat = number := by
          rw [UInt8.toNat_ofNat']
          omega
        simp only [lead, byte]
        rw [if_pos (by omega), back]
      exact pieces_of_char leads rest
  split
  · have leads := lead_two (show 0x80 ≤ number by omega) (by omega)
    have code : 64 * (number / 64) + (number % 64 + 0x80) % 64 = number := by omega
    simp only [List.cons_append, List.nil_append]
    rw [pieces_of_opens leads, pieces_of_last (admits_continuation _ _ _) rfl, continuation_toNat,
      code, back]
  split
  · obtain ⟨least, greatest, leads, low, high⟩ :=
      lead_three (show 0x800 ≤ number by omega) (by omega) (by omega)
    rw [← continuation_toNat] at low high
    have code : 64 * (64 * (number / 4096) + (number / 64 % 64 + 0x80) % 64) +
        (number % 64 + 0x80) % 64 = number := by omega
    simp only [List.cons_append, List.nil_append]
    rw [pieces_of_opens leads, pieces_of_further (admits_of_bounds low high) rfl,
      pieces_of_last (admits_continuation _ _ _) rfl]
    simp only [continuation_toNat]
    rw [code, back]
  · obtain ⟨least, greatest, leads, low, high⟩ :=
      lead_four (show 0x10000 ≤ number by omega) (by omega)
    rw [← continuation_toNat] at low high
    have code : 64 * (64 * (64 * (number / 262144) + (number / 4096 % 64 + 0x80) % 64) +
        (number / 64 % 64 + 0x80) % 64) + (number % 64 + 0x80) % 64 = number := by omega
    simp only [List.cons_append, List.nil_append]
    rw [pieces_of_opens leads, pieces_of_further (admits_of_bounds low high) rfl,
      pieces_of_further (admits_continuation _ _ _) rfl,
      pieces_of_last (admits_continuation _ _ _) rfl]
    simp only [continuation_toNat]
    rw [code, back]

/-- The pieces of an encoded text are its characters. -/
theorem pieces_encode (content : List Char) :
    pieces none (content.flatMap String.utf8EncodeChar) = content.map some := by
  induction content with
  | nil => rfl
  | cons char rest induction =>
      rw [List.flatMap_cons, pieces_encoded, induction, List.map_cons]

/-- Decoding undoes encoding. -/
theorem decode_encode (content : List Char) :
    decode (content.flatMap String.utf8EncodeChar) = content := by
  rw [decode, pieces_encode, List.map_map]
  exact List.map_id content

end Utf8

namespace Latin1

/-- Decoding undoes encoding, if every character has a byte. -/
theorem decode_encode {content : List Char} (bytes : ∀ char ∈ content, char.toNat < 256) :
    decode (content.map fun char => UInt8.ofNat char.toNat) = content := by
  rw [decode, List.map_map]
  calc
    content.map ((fun byte => Char.ofNat byte.toNat) ∘ fun char => UInt8.ofNat char.toNat) =
        content.map id := by
      apply List.map_congr_left
      intro char member
      have small := bytes char member
      have byte : (UInt8.ofNat char.toNat).toNat = char.toNat := by
        rw [UInt8.toNat_ofNat']
        omega
      rw [Function.comp_apply, byte, Char.ofNat_toNat, id]
    _ = content := List.map_id content

end Latin1
end CodeScope

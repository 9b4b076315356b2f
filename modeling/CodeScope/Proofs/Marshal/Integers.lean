import CodeScope.Proofs.Marshal.Outcome
import CodeScope.Value.Repr
import Mathlib.Algebra.BigOperators.Group.Finset.Basic
import Mathlib.Algebra.BigOperators.Ring.Finset

/-!
# Integers

An integer of any size is read exactly: it is the sum of its digits with their powers of the base,
with the sign of their number, or the first faulty digit refuses it. An integer that several tags
can hold is the same number with the same text whichever of them it is written with.
-/

namespace CodeScope

open Finset

namespace Bytes

/-- The number that the two bytes of a digit write. The digits are counted from the front. -/
def longDigit (data : Bytes) (index : Nat) : Nat :=
  littleEndian ((data.drop (2 * index)).take 2)

/-- The first of so many digits that is missing or has bit 15. -/
def firstFault? (data : Bytes) (count : Nat) : Option Nat :=
  (List.range count).find? fun index =>
    data.length < 2 * index + 2 || 2 ^ 15 ≤ data.longDigit index

/-- The sum of so many digits with their powers of the base, with the sign of their number. -/
def longNumber (data : Bytes) (count : Int32) : Int :=
  count.toInt.sign *
    (∑ index ∈ range count.toInt.natAbs, data.longDigit index * 2 ^ (15 * index) : Nat)

theorem longDigit_succ (data : Bytes) (index : Nat) :
    data.longDigit (index + 1) = longDigit (data.drop 2) index := by
  rw [longDigit, longDigit, List.drop_drop, Nat.mul_succ, Nat.add_comm]

theorem map_longDigit_succ (data : Bytes) (count : Nat) :
    (List.range (count + 1)).map data.longDigit =
      data.longDigit 0 :: (List.range count).map (longDigit (data.drop 2)) := by
  rw [List.range_succ_eq_map, List.map_cons, List.map_map]
  congr 1
  exact List.map_congr_left fun index _ => longDigit_succ data index

theorem firstFault?_succ (data : Bytes) (count : Nat) :
    data.firstFault? (count + 1) =
      if data.length < 2 ∨ 2 ^ 15 ≤ data.longDigit 0 then some 0
      else (firstFault? (data.drop 2) count).map (· + 1) := by
  have shifted : ((fun index => decide (data.length < 2 * index + 2) ||
      decide (2 ^ 15 ≤ data.longDigit index)) ∘ Nat.succ) = fun index =>
        decide ((data.drop 2).length < 2 * index + 2) ||
          decide (2 ^ 15 ≤ longDigit (data.drop 2) index) := by
    funext index
    have length : data.length < 2 * index.succ + 2 ↔ (data.drop 2).length < 2 * index + 2 := by
      rw [List.length_drop]
      omega
    simp only [Function.comp, length, Nat.succ_eq_add_one, longDigit_succ]
  rw [firstFault?, List.range_succ_eq_map, List.find?_cons, List.find?_map, shifted]
  split <;> simp_all [firstFault?]

theorem firstFault?_eq_none_iff {data : Bytes} {count : Nat} :
    data.firstFault? count = none ↔
      ∀ index < count, 2 * index + 2 ≤ data.length ∧ data.longDigit index < 2 ^ 15 := by
  simp [firstFault?]

/-- The digits with their powers add up to the number that they write. -/
theorem ofDigits_longDigit (data : Bytes) (count : Nat) :
    Nat.ofDigits (2 ^ 15) ((List.range count).map data.longDigit) =
      ∑ index ∈ range count, data.longDigit index * 2 ^ (15 * index) := by
  induction count generalizing data with
  | zero => rfl
  | succ count induction =>
      have shifted : ∀ index ∈ range count,
          2 ^ 15 * (longDigit (data.drop 2) index * 2 ^ (15 * index)) =
            data.longDigit (index + 1) * 2 ^ (15 * (index + 1)) := by
        intro index _
        rw [longDigit_succ, Nat.mul_succ, Nat.pow_add, Nat.mul_comm, Nat.mul_assoc]
      calc
        Nat.ofDigits (2 ^ 15) ((List.range (count + 1)).map data.longDigit) =
            data.longDigit 0 + 2 ^ 15 * ∑ index ∈ range count,
              longDigit (data.drop 2) index * 2 ^ (15 * index) := by
          rw [map_longDigit_succ, Nat.ofDigits_cons, induction]
        _ = data.longDigit 0 + ∑ index ∈ range count,
              data.longDigit (index + 1) * 2 ^ (15 * (index + 1)) := by
          rw [mul_sum, sum_congr rfl shifted]
        _ = ∑ index ∈ range (count + 1), data.longDigit index * 2 ^ (15 * index) := by
          rw [sum_range_succ', Nat.mul_zero, Nat.pow_zero, Nat.mul_one]
          exact Nat.add_comm _ _

theorem longNumber_eq (data : Bytes) (count : Int32) :
    data.longNumber count = count.toInt.sign *
      (Nat.ofDigits (2 ^ 15) ((List.range count.toInt.natAbs).map data.longDigit) : Nat) := by
  rw [longNumber, ofDigits_longDigit]

/-- The digits of numbers that are written one after the other are these numbers. -/
theorem map_longDigit_flatMap {digits : List Nat} (bounded : ∀ digit ∈ digits, digit < 2 ^ 15)
    (rest : Bytes) :
    (List.range digits.length).map (longDigit (digits.flatMap (Bytes.digits 2) ++ rest)) =
      digits := by
  induction digits with
  | nil => rfl
  | cons digit others induction =>
      rw [List.forall_mem_cons] at bounded
      have size : (Bytes.digits 2 digit).length = 2 := length_digits 2 digit
      have small : digit < 256 ^ 2 := Nat.lt_trans bounded.1 (by decide)
      rw [List.length_cons, map_longDigit_succ, List.flatMap_cons, List.append_assoc,
        List.drop_left' size, induction bounded.2, longDigit, Nat.mul_zero, List.drop_zero,
        List.take_left' size, littleEndian_digits_of_lt small]

theorem length_flatMap_digits (width : Nat) (numbers : List Nat) :
    (numbers.flatMap (digits width)).length = width * numbers.length := by
  induction numbers with
  | nil => rfl
  | cons number rest induction =>
      rw [List.flatMap_cons, List.length_append, length_digits, induction, List.length_cons,
        Nat.mul_succ, Nat.add_comm]

end Bytes

namespace Script

variable {inside : Reading (Option Value)} {slot : Option Nat} {state : ReaderState}
  {site : TagSite}

/-- The error of a faulty digit from a place on: its bytes are missing, or it has bit 15. -/
def digitFault (site : TagSite) (cursor : Cursor) (index : Nat) : Error :=
  if cursor.rest.length < 2 * index + 2 then .truncated 2 (cursor.offset + 2 * index)
  else site.malformed

/-- What comes of so many digits from a place on, by the first of them that is faulty. -/
def digitsOutcome (site : TagSite) (count : Nat) (cursor : Cursor) :
    Except Error (List Nat × Cursor) :=
  match cursor.rest.firstFault? count with
  | none =>
      .ok ((List.range count).map cursor.rest.longDigit,
        ⟨cursor.rest.drop (2 * count), cursor.offset + 2 * count⟩)
  | some index => .error (digitFault site cursor index)

theorem digitFault_succ (site : TagSite) (cursor : Cursor) (index : Nat) :
    digitFault site cursor (index + 1) =
      digitFault site ⟨cursor.rest.drop 2, cursor.offset + 2⟩ index := by
  have length : cursor.rest.length < 2 * (index + 1) + 2 ↔
      (cursor.rest.drop 2).length < 2 * index + 2 := by
    rw [List.length_drop]
    omega
  have place : cursor.offset + 2 * (index + 1) = cursor.offset + 2 + 2 * index := by omega
  simp only [digitFault, length, place]

/-- Several digits come to what the first of them comes to, and then to what the others do. -/
theorem digitsOutcome_succ (count : Nat) (cursor : Cursor) :
    digitsOutcome site (count + 1) cursor =
      if cursor.rest.length < 2 ∨ 2 ^ 15 ≤ cursor.rest.longDigit 0 then
        .error (digitFault site cursor 0)
      else (digitsOutcome site count ⟨cursor.rest.drop 2, cursor.offset + 2⟩).map
        fun result => (cursor.rest.longDigit 0 :: result.1, result.2) := by
  rw [digitsOutcome, Bytes.firstFault?_succ]
  by_cases faulty : cursor.rest.length < 2 ∨ 2 ^ 15 ≤ cursor.rest.longDigit 0
  · rw [if_pos faulty, if_pos faulty]
  · rw [if_neg faulty, if_neg faulty, digitsOutcome]
    cases Bytes.firstFault? (cursor.rest.drop 2) count with
    | none =>
        simp only [Option.map_none, Except.map, Bytes.map_longDigit_succ, List.drop_drop,
          Nat.mul_succ, Nat.add_comm, Nat.add_assoc]
    | some index => simp only [Option.map_some, digitFault_succ, Except.map]

/-- A digit is read if its two bytes are there and bit 15 is clear. -/
theorem outcome_longDigit (state : ReaderState) :
    ((longDigit site).run inside slot).outcome state =
      if state.cursor.rest.length < 2 ∨ 2 ^ 15 ≤ state.cursor.rest.longDigit 0 then
        .error (digitFault site state.cursor 0)
      else .ok (state.cursor.rest.longDigit 0,
        ⟨state.cursor.rest.drop 2, state.cursor.offset + 2⟩) := by
  rw [longDigit, run_bind, run_number, Reading.scan_littleEndian]
  rcases Nat.lt_or_ge state.cursor.rest.length 2 with short | enough
  · have missing := Reading.scan_bytes_of_short short
    rw [if_pos (.inl short), digitFault, if_pos short]
    exact Reading.outcome_of_error (Reading.bind_of_error (Reading.bind_of_error missing))
  · have taken := Reading.scan_bytes_of_enough enough
    rw [Reading.outcome_bind_of_ok (Reading.map_of_ok taken)]
    by_cases small : state.cursor.rest.longDigit 0 < 2 ^ 15
    · have fits : Bytes.littleEndian (state.cursor.rest.take 2) < longBase := small
      rw [if_pos fits, if_neg (not_or.mpr ⟨Nat.not_lt.mpr enough, Nat.not_le.mpr small⟩)]
      rfl
    · have exceeds : ¬Bytes.littleEndian (state.cursor.rest.take 2) < longBase := small
      rw [if_neg exceeds, if_pos (.inr (Nat.not_lt.mp small)), digitFault,
        if_neg (Nat.not_lt.mpr enough)]
      rfl

/-- Digits are read one after the other, up to the first one that is faulty. -/
theorem outcome_timesAfter_longDigit (count : Nat) (read : List Nat) (state : ReaderState) :
    ((timesAfter (longDigit site) count read).run inside slot).outcome state =
      (digitsOutcome site count state.cursor).map
        fun result => (read.reverse ++ result.1, result.2) := by
  induction count generalizing read state with
  | zero =>
      have nothing : digitsOutcome site 0 state.cursor = .ok ([], state.cursor) := rfl
      rw [nothing, Except.map, List.append_nil]
      rfl
  | succ count induction =>
      have digit := @outcome_longDigit inside slot site state
      rw [timesAfter, run_bind, digitsOutcome_succ]
      split at digit
      · next faulty =>
          rw [if_pos faulty, Reading.outcome_bind_of_error digit]
          rfl
      · next sound =>
          obtain ⟨next, taken, place⟩ := Reading.outcome_eq_ok_iff.mp digit
          rw [if_neg sound, Reading.outcome_bind_of_ok taken, induction, place]
          cases digitsOutcome site count _ <;> simp [Except.map]

/-- The digits that a count tells are joined to their sum, and it has the sign of the count. -/
theorem signed_longDigits {count : Int32} {data : Bytes}
    (sound : data.firstFault? count.toInt.natAbs = none) :
    (if count.toInt < 0 then
        -(ofLongDigits ((List.range count.toInt.natAbs).map data.longDigit) : Int)
      else ofLongDigits ((List.range count.toInt.natAbs).map data.longDigit)) =
      data.longNumber count := by
  have bounded : ∀ digit ∈ (List.range count.toInt.natAbs).map data.longDigit,
      digit < 2 ^ 15 := by
    rw [List.forall_mem_map]
    exact fun index inside =>
      (Bytes.firstFault?_eq_none_iff.mp sound index (List.mem_range.mp inside)).2
  rw [signed_ofLongDigits bounded (by simp), Bytes.longNumber_eq]

/-- A long integer is the sum of its digits, or fails with the first of them that is faulty. -/
theorem outcome_long {count : Int32} {data : Bytes}
    (stream : state.cursor.rest = Bytes.ofInt32 count ++ data) :
    ((long site).run inside slot).outcome state =
      (digitsOutcome site count.toInt.natAbs ⟨data, state.cursor.offset + 4⟩).map
        fun result => (data.longNumber count, result.2) := by
  rw [long_eq, run_bind, Reading.outcome_bind_of_ok (run_i32_of_stream stream), run_map,
    Reading.outcome_map, times, outcome_timesAfter_longDigit, digitsOutcome]
  cases faults : data.firstFault? count.toInt.natAbs with
  | none => simp only [Except.map, List.reverse_nil, List.nil_append, signed_longDigits faults]
  | some index => rfl

end Script

namespace Reading

variable {profile : Profile} {state : ReaderState} {flagged : Bool}

/--
What comes of the tag of a long integer at an offset, with a count and some bytes behind it: the
number that the digits write, or the error of the first faulty one.
-/
def longOutcome (offset : Nat) (count : Int32) (data : Bytes) :
    Except Error (Option Value × Cursor) :=
  (Script.digitsOutcome ⟨0x6C, offset⟩ count.toInt.natAbs ⟨data, offset + 5⟩).map
    fun result => (some (.long (data.longNumber count)), result.2)

theorem outcome_optional_of_long (profile : Profile) (levels : Nat) {count : Int32} {data : Bytes}
    (stream : state.cursor.rest = Writer.tagByte flagged 'l' :: (Bytes.ofInt32 count ++ data)) :
    (optional profile (levels + 1)).outcome state =
      longOutcome state.cursor.offset count data := by
  have named : Tag.ofChar? 'l' = some (.body .long) := rfl
  obtain ⟨slot, middle, place, same⟩ := outcome_optional_of_body profile levels named stream
  have inside : middle.cursor.rest = Bytes.ofInt32 count ++ data := by rw [place]
  rw [same, Script.body, Script.run_map, outcome_map, Script.outcome_long inside, place,
    longOutcome]
  show Except.map _ (Except.map _ (Except.map _ (Script.digitsOutcome ⟨0x6C, state.cursor.offset⟩
    count.toInt.natAbs ⟨data, state.cursor.offset + 5⟩))) = _
  cases Script.digitsOutcome ⟨0x6C, state.cursor.offset⟩ _ _ <;> rfl

theorem outcome_optional_of_int32 (profile : Profile) (levels : Nat) {number : Int32}
    {data : Bytes}
    (stream : state.cursor.rest = Writer.tagByte flagged 'i' :: (Bytes.ofInt32 number ++ data)) :
    (optional profile (levels + 1)).outcome state =
      .ok (some (.int32 number), ⟨data, state.cursor.offset + 5⟩) := by
  have named : Tag.ofChar? 'i' = some (.body .int32) := rfl
  obtain ⟨slot, middle, place, same⟩ := outcome_optional_of_body profile levels named stream
  have inside : middle.cursor.rest = Bytes.ofInt32 number ++ data := by rw [place]
  rw [same, Script.body, Script.run_map,
    outcome_of_ok (map_of_ok (Script.run_i32_of_stream inside)), place]
  rfl

theorem outcome_optional_of_int64 (profile : Profile) (levels : Nat) {number : Int64}
    {data : Bytes}
    (stream : state.cursor.rest = Writer.tagByte flagged 'I' :: (Bytes.ofInt64 number ++ data)) :
    (optional profile (levels + 1)).outcome state =
      .ok (some (.int64 number), ⟨data, state.cursor.offset + 9⟩) := by
  have named : Tag.ofChar? 'I' = some (.body .int64) := rfl
  obtain ⟨slot, middle, place, same⟩ := outcome_optional_of_body profile levels named stream
  have inside : middle.cursor.rest = Bytes.ofInt64 number ++ data := by rw [place]
  have taken := scan_littleEndian_of_stream inside
  have mapped : Script.body profile ⟨UInt8.ofNat 'I'.toNat, state.cursor.offset⟩ .int64 =
      (fun word => .int64 (Int64.ofNat word)) <$> Script.number 8 := rfl
  rw [Bytes.length_ofInt64] at taken
  rw [same, mapped, Script.run_map, Script.run_number, outcome_of_ok (map_of_ok taken), place,
    Bytes.ofNat_ofInt64]
  rfl

end Reading

namespace Writer

/--
The ways of writing an integer: in four bytes, in eight bytes, or by digits. The number of digits
tells the sign, and the highest digits may be zero.
-/
inductive WritesInteger (number : Int) : Value → Bytes → Prop
  | int32 (flagged : Bool) {word : Int32} (same : word.toInt = number) :
      WritesInteger number (.int32 word) (tagByte flagged 'i' :: Bytes.ofInt32 word)
  | int64 (flagged : Bool) {word : Int64} (same : word.toInt = number) :
      WritesInteger number (.int64 word) (tagByte flagged 'I' :: Bytes.ofInt64 word)
  | long (flagged : Bool) {count : Int32} {digits : List Nat}
      (size : digits.length = count.toInt.natAbs) (bounded : ∀ digit ∈ digits, digit < 2 ^ 15)
      (same : count.toInt.sign * (Nat.ofDigits (2 ^ 15) digits : Nat) = number) :
      WritesInteger number (.long number)
        (tagByte flagged 'l' :: (Bytes.ofInt32 count ++ digits.flatMap (Bytes.digits 2)))

/-- Digits that are written are read as the number that they add up to. -/
theorem longOutcome_of_digits {count : Int32} {digits : List Nat}
    (size : digits.length = count.toInt.natAbs) (bounded : ∀ digit ∈ digits, digit < 2 ^ 15)
    (offset : Nat) (rest : Bytes) :
    Reading.longOutcome offset count (digits.flatMap (Bytes.digits 2) ++ rest) =
      .ok (some (.long (count.toInt.sign * (Nat.ofDigits (2 ^ 15) digits : Nat))),
        ⟨rest, offset + 5 + 2 * digits.length⟩) := by
  have length := Bytes.length_flatMap_digits 2 digits
  have same := Bytes.map_longDigit_flatMap bounded rest
  have sound :
      Bytes.firstFault? (digits.flatMap (Bytes.digits 2) ++ rest) digits.length = none := by
    rw [Bytes.firstFault?_eq_none_iff]
    intro index inside
    refine ⟨?_, bounded _ ?_⟩
    · rw [List.length_append, length]
      omega
    · have member : Bytes.longDigit (digits.flatMap (Bytes.digits 2) ++ rest) index ∈
          (List.range digits.length).map
            (Bytes.longDigit (digits.flatMap (Bytes.digits 2) ++ rest)) :=
        List.mem_map_of_mem (List.mem_range.mpr inside)
      rwa [same] at member
  rw [Reading.longOutcome, Bytes.longNumber_eq, ← size, same, Script.digitsOutcome]
  simp only [sound, Except.map, List.drop_left' length]

variable {number : Int} {value : Value} {data rest : Bytes} {state : ReaderState}

theorem WritesInteger.outcome_optional (written : WritesInteger number value data)
    (profile : Profile) (levels : Nat) (stream : state.cursor.rest = data ++ rest) :
    (Reading.optional profile (levels + 1)).outcome state =
      .ok (some value, ⟨rest, state.cursor.offset + data.length⟩) := by
  cases written with
  | int32 flagged same =>
      rw [List.length_cons, Bytes.length_ofInt32]
      exact Reading.outcome_optional_of_int32 profile levels stream
  | int64 flagged same =>
      rw [List.length_cons, Bytes.length_ofInt64]
      exact Reading.outcome_optional_of_int64 profile levels stream
  | long flagged size bounded same =>
      rw [List.cons_append, List.append_assoc] at stream
      rw [Reading.outcome_optional_of_long profile levels stream,
        longOutcome_of_digits size bounded, same, List.length_cons, List.length_append,
        Bytes.length_ofInt32, Bytes.length_flatMap_digits]
      congr 3
      omega

theorem WritesInteger.int?_eq (written : WritesInteger number value data) :
    value.int? = some number := by
  cases written with
  | int32 flagged same => exact congrArg some same
  | int64 flagged same => exact congrArg some same
  | long => rfl

theorem WritesInteger.repr_eq (written : WritesInteger number value data) :
    value.repr = toString number := by
  cases written with
  | int32 flagged same => rw [Value.repr, same]
  | int64 flagged same => rw [Value.repr, same]
  | long => rw [Value.repr]

theorem WritesInteger.int64?_eq (written : WritesInteger number value data) :
    value.int64? = if -2 ^ 63 ≤ number ∧ number < 2 ^ 63 then some number else none := by
  rw [Value.int64?, written.int?_eq, Option.filter_some]
  simp only [Bool.and_eq_true, decide_eq_true_eq]
  rfl

/-- Zeros on top of the digits change nothing, and neither does the sign of digits that are zero. -/
theorem writesInteger_padded (flagged : Bool) {count normal : Int32} {digits : List Nat}
    {zeros : Nat} (padded : digits.length + zeros = count.toInt.natAbs)
    (bounded : ∀ digit ∈ digits, digit < 2 ^ 15)
    (sign : count.toInt.sign = normal.toInt.sign ∨ Nat.ofDigits (2 ^ 15) digits = 0)
    (same : normal.toInt.sign * (Nat.ofDigits (2 ^ 15) digits : Nat) = number) :
    WritesInteger number (.long number) (tagByte flagged 'l' ::
      (Bytes.ofInt32 count ++ (digits ++ List.replicate zeros 0).flatMap (Bytes.digits 2))) := by
  have value : Nat.ofDigits (2 ^ 15) (digits ++ List.replicate zeros 0) =
      Nat.ofDigits (2 ^ 15) digits := by
    rw [Nat.ofDigits_append, Nat.ofDigits_replicate_zero, Nat.mul_zero, Nat.add_zero]
  refine .long flagged ?_ ?_ ?_
  · rw [List.length_append, List.length_replicate, padded]
  · intro digit member
    rcases List.mem_append.mp member with inside | isZero
    · exact bounded digit inside
    · rw [List.eq_of_mem_replicate isZero]
      decide
  · rw [value, ← same]
    rcases sign with equal | zero
    · rw [equal]
    · rw [zero, Int.natCast_zero, Int.mul_zero, Int.mul_zero]

end Writer

/-- Integers are decoded exactly, whatever their size and their encoding. -/
structure IntegerDecoding : Prop where
  /-- Digits add up to the number, or the first faulty one of them is told. -/
  long : ∀ (profile : Profile) (levels : Nat) {state : ReaderState} {flagged : Bool}
    {count : Int32} {data : Bytes},
    state.cursor.rest = Writer.tagByte flagged 'l' :: (Bytes.ofInt32 count ++ data) →
      (Reading.optional profile (levels + 1)).outcome state =
        Reading.longOutcome state.cursor.offset count data
  /-- Every encoding of a number is read as that number. -/
  written : ∀ (profile : Profile) (levels : Nat) {state : ReaderState} {number : Int}
    {value : Value} {data rest : Bytes}, Writer.WritesInteger number value data →
    state.cursor.rest = data ++ rest →
      (Reading.optional profile (levels + 1)).outcome state =
        .ok (some value, ⟨rest, state.cursor.offset + data.length⟩)
  /-- A number and nothing else is loaded by every supported version. -/
  loaded : ∀ {profile : Profile} {version : Version} {number : Int} {value : Value} {data : Bytes},
    Profile.ofVersion version = .ok profile → Writer.WritesInteger number value data →
      Value.ofBytes version data = .ok value
  /-- All encodings of a number have its text, and its view in eight bytes if it fits. -/
  agreed : ∀ {number : Int} {value : Value} {data : Bytes},
    Writer.WritesInteger number value data →
      value.repr = toString number ∧
      value.int64? = if -2 ^ 63 ≤ number ∧ number < 2 ^ 63 then some number else none
  /-- Zeros on top of the digits change nothing, and neither does the sign of zeros. -/
  padded : ∀ (flagged : Bool) {number : Int} {count normal : Int32} {digits : List Nat}
    {zeros : Nat}, digits.length = normal.toInt.natAbs →
    digits.length + zeros = count.toInt.natAbs → (∀ digit ∈ digits, digit < 2 ^ 15) →
    (count.toInt.sign = normal.toInt.sign ∨ Nat.ofDigits (2 ^ 15) digits = 0) →
    normal.toInt.sign * (Nat.ofDigits (2 ^ 15) digits : Nat) = number →
      Writer.WritesInteger number (.long number) (Writer.tagByte flagged 'l' ::
        (Bytes.ofInt32 normal ++ digits.flatMap (Bytes.digits 2))) ∧
      Writer.WritesInteger number (.long number) (Writer.tagByte flagged 'l' ::
        (Bytes.ofInt32 count ++ (digits ++ List.replicate zeros 0).flatMap (Bytes.digits 2)))

theorem integerDecoding : IntegerDecoding where
  long profile levels _ _ _ _ stream := Reading.outcome_optional_of_long profile levels stream
  written profile levels _ _ _ _ _ written stream :=
    written.outcome_optional profile levels stream
  loaded {profile version number value data} supported written := by
    have stream : (ReaderState.start data).cursor.rest = data ++ [] := (List.append_nil data).symm
    have read := written.outcome_optional profile 1999 stream
    exact Value.ofBytes_of_outcome supported (Reading.value_outcome_of_ok read)
  agreed written := ⟨written.repr_eq, written.int64?_eq⟩
  padded flagged _ _ _ _ _ size padded bounded sign same :=
    ⟨.long flagged size bounded same,
      Writer.writesInteger_padded flagged padded bounded sign same⟩

/-- Minus one with a zero on top of its digit. -/
theorem integerDecoding_minusOne :
    Writer.WritesInteger (-1) (.long (-1)) [0xEC, 0xFE, 0xFF, 0xFF, 0xFF, 1, 0, 0, 0] ∧
      Value.ofBytes ⟨3, 8⟩ [0xEC, 0xFE, 0xFF, 0xFF, 0xFF, 1, 0, 0, 0] = .ok (.long (-1)) := by
  have written : Writer.WritesInteger (-1) (.long (-1))
      [0xEC, 0xFE, 0xFF, 0xFF, 0xFF, 1, 0, 0, 0] :=
    @Writer.WritesInteger.long (-1) true (-2) [1, 0] rfl (by decide) rfl
  have supported : Profile.ofVersion ⟨3, 8⟩ = .ok Profile.version38 := rfl
  exact ⟨written, integerDecoding.loaded supported written⟩

end CodeScope

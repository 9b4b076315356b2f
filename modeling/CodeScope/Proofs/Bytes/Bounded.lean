import CodeScope.Bytes.Varint
import CodeScope.Proofs.Bytes.Groups

/-!
# Numbers that start with their most significant group

Such a number is read exactly: it is refused if and only if its groups make up 2³² or more, and it
is cut off if and only if they make up less and no byte ends them. Whatever bits 7 of its bytes are,
and however many groups of zeros stand in front, a number is read back.
-/

namespace CodeScope
namespace VarintRun

/-- The number that some groups make up behind those of another one. -/
def mostFirstAfter (number : Nat) (groups : List Nat) : Nat :=
  groups.foldl (fun number group => 64 * number + group) number

/-- The number whose first group is the most significant. -/
def mostFirst (groups : List Nat) : Nat := mostFirstAfter 0 groups

theorem le_mostFirstAfter (number : Nat) (groups : List Nat) :
    number ≤ mostFirstAfter number groups := by
  induction groups generalizing number with
  | nil => exact Nat.le_refl number
  | cons group rest induction =>
      calc
        number ≤ 64 * number + group := by omega
        _ ≤ mostFirstAfter (64 * number + group) rest := induction _

theorem mostFirst_concat (groups : List Nat) (group : Nat) :
    mostFirst (groups ++ [group]) = 64 * mostFirst groups + group := by
  simp [mostFirst, mostFirstAfter]

theorem ofBytes_of_last {byte : UInt8} (last : byte.toNat % 128 < 64) (rest : Bytes) :
    ofBytes (byte :: rest) = ⟨[byte.toNat % 64], true, rest⟩ := by
  rw [ofBytes, if_pos last]

theorem ofBytes_of_further {byte : UInt8} (further : ¬byte.toNat % 128 < 64) (rest : Bytes) :
    ofBytes (byte :: rest) =
      ⟨byte.toNat % 64 :: (ofBytes rest).groups, (ofBytes rest).closed, (ofBytes rest).rest⟩ := by
  rw [ofBytes, if_neg further]

theorem exists_groups_ofBytes (byte : UInt8) (rest : Bytes) :
    ∃ others, (ofBytes (byte :: rest)).groups = byte.toNat % 64 :: others := by
  by_cases last : byte.toNat % 128 < 64
  · exact ⟨[], by rw [ofBytes_of_last last]⟩
  · exact ⟨(ofBytes rest).groups, by rw [ofBytes_of_further last]⟩

end VarintRun

namespace Scan

/-- Another group is put into the six bits that are free behind the groups so far. -/
theorem toNat_longer {number : UInt32} (room : 64 * number.toNat < 2 ^ 32) (group : Nat)
    (small : group < 64) :
    (64 * number ||| UInt32.ofNat group).toNat = 64 * number.toNat + group := by
  have shifted : (64 * number).toNat = 2 ^ 6 * number.toNat := by
    rw [UInt32.toNat_mul]
    exact Nat.mod_eq_of_lt room
  have word : (UInt32.ofNat group).toNat = group :=
    UInt32.toNat_ofNat_of_lt' (Nat.lt_trans small (by decide))
  rw [UInt32.toNat_or, shifted, word, ← Nat.two_pow_add_eq_or_of_lt small]

section Steps

variable {number : UInt32} {byte : UInt8} (rest : Bytes) (offset : Nat)

theorem boundedVarintAfter_of_full (full : 2 ^ 32 ≤ 64 * number.toNat) :
    boundedVarintAfter number (byte :: rest) offset =
      .error (.malformedCode .handler .tooLarge) :=
  if_pos full

theorem boundedVarintAfter_of_last (room : 64 * number.toNat < 2 ^ 32)
    (last : byte.toNat % 128 < 64) :
    boundedVarintAfter number (byte :: rest) offset =
      .ok (64 * number ||| UInt32.ofNat (byte.toNat % 64), ⟨rest, offset + 1⟩) :=
  (if_neg (Nat.not_le_of_lt room)).trans (if_pos last)

theorem boundedVarintAfter_of_further (room : 64 * number.toNat < 2 ^ 32)
    (further : ¬byte.toNat % 128 < 64) :
    boundedVarintAfter number (byte :: rest) offset =
      boundedVarintAfter (64 * number ||| UInt32.ofNat (byte.toNat % 64)) rest (offset + 1) :=
  (if_neg (Nat.not_le_of_lt room)).trans (if_neg further)

end Steps

/-- What comes of the bytes behind some groups is decided by the run of groups in them. -/
theorem boundedVarintAfter_eq (number : UInt32) (data : Bytes) (offset : Nat) :
    boundedVarintAfter number data offset =
      if 2 ^ 32 ≤ VarintRun.mostFirstAfter number.toNat (VarintRun.ofBytes data).groups then
        .error (.malformedCode .handler .tooLarge)
      else if (VarintRun.ofBytes data).closed then
        .ok (UInt32.ofNat
            (VarintRun.mostFirstAfter number.toNat (VarintRun.ofBytes data).groups),
          ⟨(VarintRun.ofBytes data).rest, offset + (VarintRun.ofBytes data).groups.length⟩)
      else
        .error (.truncated 1 (offset + (VarintRun.ofBytes data).groups.length)) := by
  induction data generalizing number offset with
  | nil =>
      have small : ¬2 ^ 32 ≤ VarintRun.mostFirstAfter number.toNat [] :=
        Nat.not_le_of_lt number.toNat_lt
      rw [VarintRun.ofBytes, if_neg small]
      rfl
  | cons byte rest induction =>
      -- Groups that leave no room for another one cannot be brought back below the bound.
      by_cases full : 2 ^ 32 ≤ 64 * number.toNat
      · obtain ⟨others, groups⟩ := VarintRun.exists_groups_ofBytes byte rest
        have large : 2 ^ 32 ≤ VarintRun.mostFirstAfter number.toNat
            (VarintRun.ofBytes (byte :: rest)).groups := by
          rw [groups]
          calc
            2 ^ 32 ≤ 64 * number.toNat + byte.toNat % 64 := by omega
            _ ≤ _ := VarintRun.le_mostFirstAfter _ others
        rw [boundedVarintAfter_of_full rest offset full, if_pos large]
      · have room : 64 * number.toNat < 2 ^ 32 := Nat.lt_of_not_le full
        have longer := toNat_longer room _ (Nat.mod_lt byte.toNat (by decide : 0 < 64))
        by_cases last : byte.toNat % 128 < 64
        · have small : ¬2 ^ 32 ≤ VarintRun.mostFirstAfter number.toNat [byte.toNat % 64] := by
            show ¬2 ^ 32 ≤ 64 * number.toNat + byte.toNat % 64
            omega
          rw [boundedVarintAfter_of_last rest offset room last, VarintRun.ofBytes_of_last last,
            if_neg small, if_pos rfl]
          have word : UInt32.ofNat (VarintRun.mostFirstAfter number.toNat [byte.toNat % 64]) =
              64 * number ||| UInt32.ofNat (byte.toNat % 64) := by
            rw [← UInt32.toNat_inj, longer]
            exact UInt32.toNat_ofNat_of_lt' (Nat.lt_of_not_le small)
          rw [word]
          rfl
        · have length : offset + (byte.toNat % 64 :: (VarintRun.ofBytes rest).groups).length =
              offset + 1 + (VarintRun.ofBytes rest).groups.length := by
            rw [List.length_cons]
            omega
          rw [boundedVarintAfter_of_further rest offset room last, induction, longer,
            VarintRun.ofBytes_of_further last, length]
          rfl

section Outcomes

variable {cursor : Cursor}

/-- What can come of the number at a place, given the groups from there on. -/
inductive ReadsBounded (cursor : Cursor) : Except Error (UInt32 × Cursor) → Prop
  | tooLarge (large : 2 ^ 32 ≤ VarintRun.mostFirst (VarintRun.ofBytes cursor.rest).groups) :
      ReadsBounded cursor (.error (.malformedCode .handler .tooLarge))
  | cutOff (small : VarintRun.mostFirst (VarintRun.ofBytes cursor.rest).groups < 2 ^ 32)
      (unclosed : (VarintRun.ofBytes cursor.rest).closed = false) :
      ReadsBounded cursor (.error (.truncated 1
        (cursor.offset + (VarintRun.ofBytes cursor.rest).groups.length)))
  | whole {number : UInt32}
      (same : VarintRun.mostFirst (VarintRun.ofBytes cursor.rest).groups = number.toNat)
      (closed : (VarintRun.ofBytes cursor.rest).closed = true) :
      ReadsBounded cursor (.ok (number, ⟨(VarintRun.ofBytes cursor.rest).rest,
        cursor.offset + (VarintRun.ofBytes cursor.rest).groups.length⟩))

theorem readsBounded (cursor : Cursor) : ReadsBounded cursor (boundedVarint cursor) := by
  have run := boundedVarintAfter_eq 0 cursor.rest cursor.offset
  rw [boundedVarint, run]
  split
  · next large => exact .tooLarge large
  · next notLarge =>
      have small := Nat.lt_of_not_le notLarge
      split
      · next closed => exact .whole (UInt32.toNat_ofNat_of_lt' small).symm closed
      · next unclosed => exact .cutOff small (Bool.eq_false_iff.mpr unclosed)

/-- A number is refused if its groups make up 2³² or more, also if no byte ends them. -/
theorem boundedVarint_eq_tooLarge_iff :
    boundedVarint cursor = .error (.malformedCode .handler .tooLarge) ↔
      2 ^ 32 ≤ VarintRun.mostFirst (VarintRun.ofBytes cursor.rest).groups := by
  have reads := readsBounded cursor
  generalize boundedVarint cursor = outcome at reads ⊢
  cases reads with
  | tooLarge large => simp only [large]
  | cutOff small unclosed => simpa using small
  | @whole number same closed => simpa [same] using number.toNat_lt

/-- A number is cut off if its groups make up less than 2³² and no byte ends them. -/
theorem boundedVarint_eq_truncated_iff :
    (∃ needed offset, boundedVarint cursor = .error (.truncated needed offset)) ↔
      (VarintRun.ofBytes cursor.rest).closed = false ∧
        VarintRun.mostFirst (VarintRun.ofBytes cursor.rest).groups < 2 ^ 32 := by
  have reads := readsBounded cursor
  generalize boundedVarint cursor = outcome at reads ⊢
  cases reads with
  | tooLarge large => simpa using fun _ => large
  | cutOff small unclosed => simpa [unclosed] using small
  | whole same closed => simp [closed]

/-- A number below 2³² that a byte ends is read as it is, and what stands behind it is left. -/
theorem boundedVarint_eq_ok_iff {number : UInt32} {next : Cursor} :
    boundedVarint cursor = .ok (number, next) ↔
      (VarintRun.ofBytes cursor.rest).closed = true ∧
        VarintRun.mostFirst (VarintRun.ofBytes cursor.rest).groups = number.toNat ∧
        next = ⟨(VarintRun.ofBytes cursor.rest).rest,
          cursor.offset + (VarintRun.ofBytes cursor.rest).groups.length⟩ := by
  have reads := readsBounded cursor
  generalize boundedVarint cursor = outcome at reads ⊢
  cases reads with
  | tooLarge large => simp [Nat.ne_of_gt (Nat.lt_of_lt_of_le number.toNat_lt large)]
  | cutOff small unclosed => simp [unclosed]
  | whole same closed => simp [closed, same, UInt32.toNat_inj, eq_comm]

end Outcomes

end Scan

namespace Bytes

/--
Bytes that write a number, its most significant group first: bit 6 tells in all but the last that
another group follows. Bit 7 is free, and groups of zeros may stand in front.
-/
def WritesMostFirst (data : Bytes) (number : Nat) : Prop :=
  ∃ front last, data = front ++ [last] ∧ (∀ byte ∈ front, 64 ≤ byte.toNat % 128) ∧
    last.toNat % 128 < 64 ∧ VarintRun.mostFirst (data.map fun byte => byte.toNat % 64) = number

end Bytes

namespace VarintRun

/-- The bytes of a number are a run of their groups, whatever stands behind them. -/
theorem ofBytes_of_front {front : Bytes} {last : UInt8}
    (further : ∀ byte ∈ front, 64 ≤ byte.toNat % 128) (ended : last.toNat % 128 < 64)
    (rest : Bytes) :
    ofBytes (front ++ [last] ++ rest) =
      ⟨(front ++ [last]).map fun byte => byte.toNat % 64, true, rest⟩ := by
  induction front with
  | nil => exact ofBytes_of_last ended rest
  | cons byte front induction =>
      obtain ⟨here, later⟩ := List.forall_mem_cons.mp further
      rw [List.cons_append, List.cons_append, ofBytes_of_further (Nat.not_lt_of_le here),
        induction later]
      rfl

/-- A run that a byte ends is one of the groups of the bytes in front of its rest. -/
theorem exists_front_of_closed {data : Bytes} (closed : (ofBytes data).closed = true) :
    ∃ front last, data = front ++ [last] ++ (ofBytes data).rest ∧
      (∀ byte ∈ front, 64 ≤ byte.toNat % 128) ∧ last.toNat % 128 < 64 ∧
      (ofBytes data).groups = (front ++ [last]).map fun byte => byte.toNat % 64 := by
  induction data with
  | nil => cases closed
  | cons byte data induction =>
      by_cases ended : byte.toNat % 128 < 64
      · rw [ofBytes_of_last ended]
        exact ⟨[], byte, rfl, by simp, ended, rfl⟩
      · rw [ofBytes_of_further ended] at closed ⊢
        obtain ⟨front, last, split, further, least, groups⟩ := induction closed
        have marked : ∀ other ∈ byte :: front, 64 ≤ other.toNat % 128 :=
          List.forall_mem_cons.mpr ⟨Nat.le_of_not_lt ended, further⟩
        refine ⟨byte :: front, last, ?_, marked, least, ?_⟩
        · exact congrArg (byte :: ·) split
        · exact congrArg (byte.toNat % 64 :: ·) groups

end VarintRun

namespace Scan.Takes

theorem boundedVarint {data : Bytes} {number : Nat} (written : data.WritesMostFirst number)
    (small : number < 2 ^ 32) : Takes Scan.boundedVarint data (UInt32.ofNat number) := by
  intro rest offset
  obtain ⟨front, last, rfl, further, ended, same⟩ := written
  have run := VarintRun.ofBytes_of_front further ended rest
  have word : (UInt32.ofNat number).toNat = number := UInt32.toNat_ofNat_of_lt' small
  rw [boundedVarint_eq_ok_iff]
  simp only [run, same, word, List.length_map, and_self]

end Scan.Takes

/-- A number that is read is written there. -/
theorem Scan.exists_of_boundedVarint {cursor next : Cursor} {number : UInt32}
    (read : boundedVarint cursor = .ok (number, next)) :
    ∃ data : Bytes, data.WritesMostFirst number.toNat ∧ cursor.rest = data ++ next.rest := by
  obtain ⟨closed, same, rfl⟩ := boundedVarint_eq_ok_iff.mp read
  obtain ⟨front, last, split, further, ended, groups⟩ := VarintRun.exists_front_of_closed closed
  exact ⟨front ++ [last], ⟨front, last, rfl, further, ended, by rw [← groups, same]⟩, split⟩

/-- Every number has bytes that write it. -/
theorem Bytes.exists_writesMostFirst (number : Nat) :
    ∃ data : Bytes, data.WritesMostFirst number := by
  have further : ∀ front : Nat, ∃ data : Bytes, (∀ byte ∈ data, 64 ≤ byte.toNat % 128) ∧
      VarintRun.mostFirst (data.map fun byte => byte.toNat % 64) = front := by
    intro front
    induction front using Nat.strongRecOn with
    | ind front induction =>
        by_cases none : front = 0
        · exact ⟨[], by simp, none.symm⟩
        · obtain ⟨data, marked, same⟩ := induction (front / 64) (by omega)
          have byte : (UInt8.ofNat (64 + front % 64)).toNat = 64 + front % 64 := by
            rw [UInt8.toNat_ofNat']
            omega
          refine ⟨data ++ [UInt8.ofNat (64 + front % 64)], ?_, ?_⟩
          · intro other member
            rcases List.mem_append.mp member with early | last
            · exact marked other early
            · rw [List.mem_singleton.mp last, byte]
              omega
          · rw [List.map_append, List.map_singleton, VarintRun.mostFirst_concat, same, byte]
            omega
  obtain ⟨front, marked, same⟩ := further (number / 64)
  have byte : (UInt8.ofNat (number % 64)).toNat = number % 64 := by
    rw [UInt8.toNat_ofNat']
    omega
  refine ⟨_, front, UInt8.ofNat (number % 64), rfl, marked, by omega, ?_⟩
  rw [List.map_append, List.map_singleton, VarintRun.mostFirst_concat, same, byte]
  omega

end CodeScope

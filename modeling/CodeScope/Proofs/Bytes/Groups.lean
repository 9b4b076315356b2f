import CodeScope.Proofs.Bytes.Scanning
import Mathlib.Data.Nat.Digits.Defs

/-!
# Writing of numbers of variable length

The bytes that a writer gives to the groups of a number, the groups that it needs, and what it means
to read them from the front of whatever else is there.
-/

namespace CodeScope
namespace Scan

variable {α β : Type}

/-- A scan takes some bytes, whatever stands behind them, and gives a value. -/
def Takes (part : Scan α) (data : Bytes) (value : α) : Prop :=
  ∀ (rest : Bytes) (offset : Nat),
    part ⟨data ++ rest, offset⟩ = .ok (value, ⟨rest, offset + data.length⟩)

namespace Takes

variable {front back : Bytes}

theorem pure (value : α) : Takes (Pure.pure value) [] value :=
  fun _ _ => rfl

theorem bind {part : Scan α} {after : α → Scan β} {value : α} {result : β}
    (first : part.Takes front value) (second : (after value).Takes back result) :
    (part >>= after).Takes (front ++ back) result := by
  intro rest offset
  rw [List.append_assoc, bind_of_ok (first (back ++ rest) offset), second, List.length_append,
    Nat.add_assoc]

theorem map {part : Scan α} {value : α} (convert : α → β) (takes : part.Takes front value) :
    (convert <$> part).Takes front (convert value) :=
  fun rest offset => map_of_ok convert (takes rest offset)

/-- A scan that ends with something made of what it has read. -/
theorem andThen {part : Scan α} {convert : α → β} {value : α} (takes : part.Takes front value) :
    (part >>= fun value => Pure.pure (convert value)).Takes front (convert value) :=
  fun rest offset => bind_of_ok (takes rest offset)

theorem u8 (byte : UInt8) : Takes Scan.u8 [byte] byte := by
  intro rest offset
  have read := @littleEndian_append [byte] rest offset 1 rfl
  rw [Scan.u8, map_of_ok UInt8.ofNat read]
  simp [Bytes.littleEndian]

end Takes
end Scan

theorem Bytes.testBit_six_iff {byte : UInt8} :
    byte.toNat.testBit 6 = true ↔ 64 ≤ byte.toNat % 128 := by
  rw [Nat.testBit_eq_decide_div_mod_eq, decide_eq_true_iff]
  omega

/-- The bytes of one number: its groups, and whether its last byte is there. -/
structure VarintRun where
  /-- The six bits of each byte. -/
  groups : List Nat
  /-- Whether a byte ends the number, not the end of the data. -/
  closed : Bool
  /-- Bytes after the number. -/
  rest : Bytes
  deriving DecidableEq, Repr

namespace VarintRun

/-- The run of groups at the front of a byte string. -/
def ofBytes : Bytes → VarintRun
  | [] => ⟨[], false, []⟩
  | byte :: rest =>
      let group := byte.toNat % 64
      if byte.toNat % 128 < 64 then
        ⟨[group], true, rest⟩
      else
        let tail := ofBytes rest
        ⟨group :: tail.groups, tail.closed, tail.rest⟩

/-- The bytes of groups. In all but the last, bit 6 tells that another one follows. -/
def bytes : List Nat → Bytes
  | [] => []
  | [group] => [UInt8.ofNat group]
  | group :: next :: rest => UInt8.ofNat (group + 64) :: bytes (next :: rest)

theorem length_bytes (groups : List Nat) : (bytes groups).length = groups.length := by
  fun_induction bytes groups with
  | case1 => rfl
  | case2 group => rfl
  | case3 group next rest induction => exact congrArg (· + 1) induction

/-- The bytes of groups hold these groups, and the last one is the one without bit 6. -/
theorem exists_front_bytes {groups : List Nat} (some : groups ≠ [])
    (small : ∀ group ∈ groups, group < 64) :
    ∃ front last, bytes groups = front ++ [last] ∧
      (∀ byte ∈ front, byte.toNat.testBit 6 = true) ∧ last.toNat.testBit 6 = false ∧
      (front ++ [last]).map (fun byte => byte.toNat % 64) = groups := by
  fun_induction bytes groups with
  | case1 => contradiction
  | case2 group =>
      have isSmall : group < 64 := small group List.mem_cons_self
      have byte : (UInt8.ofNat group).toNat = group := by
        rw [UInt8.toNat_ofNat']
        omega
      have ended : (UInt8.ofNat group).toNat.testBit 6 = false := by
        rw [byte]
        exact Nat.testBit_lt_two_pow isSmall
      refine ⟨[], UInt8.ofNat group, rfl, by simp, ended, ?_⟩
      rw [List.nil_append, List.map_singleton, byte, Nat.mod_eq_of_lt isSmall]
  | case3 group next others induction =>
      obtain ⟨isSmall, othersSmall⟩ := List.forall_mem_cons.mp small
      obtain ⟨front, last, split, further, ended, same⟩ :=
        induction (List.cons_ne_nil next others) othersSmall
      have byte : (UInt8.ofNat (group + 64)).toNat = group + 64 := by
        rw [UInt8.toNat_ofNat']
        omega
      have marked : ∀ other ∈ UInt8.ofNat (group + 64) :: front, other.toNat.testBit 6 = true :=
        List.forall_mem_cons.mpr ⟨Bytes.testBit_six_iff.mpr (by omega), further⟩
      refine ⟨UInt8.ofNat (group + 64) :: front, last, congrArg _ split, marked, ended, ?_⟩
      have low : (group + 64) % 64 = group := by omega
      rw [List.cons_append, List.map_cons, same, byte, low]

/-- The groups of a number, the least significant first, no more than are needed. -/
def leastGroups (number : Nat) : List Nat :=
  if number < 64 then [number] else number % 64 :: leastGroups (number / 64)

theorem leastGroups_ne_nil (number : Nat) : leastGroups number ≠ [] := by
  rw [leastGroups]
  split <;> exact List.cons_ne_nil _ _

theorem ofDigits_leastGroups (number : Nat) : Nat.ofDigits 64 (leastGroups number) = number := by
  fun_induction leastGroups number with
  | case1 number small => exact Nat.ofDigits_singleton
  | case2 number large induction =>
      rw [Nat.ofDigits_cons, induction]
      exact Nat.mod_add_div number 64

/-- No group of a number is needless. -/
theorem pow_length_leastGroups_le {number : Nat} (positive : 0 < number) :
    64 ^ ((leastGroups number).length - 1) ≤ number := by
  fun_induction leastGroups number with
  | case1 number small => exact positive
  | case2 number large induction =>
      have others := induction (by omega)
      have some := List.length_pos_iff.mpr (leastGroups_ne_nil (number / 64))
      have length : (leastGroups (number / 64)).length =
          (leastGroups (number / 64)).length - 1 + 1 := by omega
      rw [List.length_cons, Nat.add_sub_cancel, length, Nat.pow_succ]
      omega

/-- A number has no more groups than there are in a greater power of 64. -/
theorem length_leastGroups_le {number count : Nat} (positive : 0 < count)
    (small : number < 64 ^ count) : (leastGroups number).length ≤ count := by
  rcases Nat.eq_zero_or_pos number with zero | some
  · rw [zero, leastGroups, if_pos (by decide)]
    exact positive
  · have below : 64 ^ ((leastGroups number).length - 1) < 64 ^ count :=
      Nat.lt_of_le_of_lt (pow_length_leastGroups_le some) small
    have few := (Nat.pow_lt_pow_iff_right (by decide)).mp below
    omega

theorem length_leastGroups_le_six {number : Nat} (small : number < 2 ^ 32) :
    (leastGroups number).length ≤ 6 :=
  length_leastGroups_le (by decide) (Nat.lt_trans small (by decide))

theorem lt_of_mem_leastGroups (number : Nat) : ∀ group ∈ leastGroups number, group < 64 := by
  fun_induction leastGroups number with
  | case1 number small => simpa using small
  | case2 number large induction =>
      exact List.forall_mem_cons.mpr ⟨Nat.mod_lt number (by decide), induction⟩

end VarintRun

namespace Bytes

/-- The bytes of a number that starts with its least significant group. -/
def varint (number : Nat) : Bytes :=
  VarintRun.bytes (VarintRun.leastGroups number)

/-- The number that has the magnitude of another one and, as its lowest bit, the sign. -/
def signFirst (number : Int) : Nat :=
  2 * number.natAbs + if number < 0 then 1 else 0

theorem signFirst_lt {number : Int} (small : number.natAbs < 2 ^ 31) :
    signFirst number < 2 ^ 32 := by
  rw [signFirst]
  split <;> omega

/-- The sign and the magnitude give the number back. -/
theorem sign_mul_signFirst (number : Int) :
    (-1) ^ (signFirst number % 2) * (signFirst number / 2 : Nat) = number := by
  by_cases negative : number < 0
  · have odd : signFirst number % 2 = 1 := by
      rw [signFirst, if_pos negative]
      omega
    have half : signFirst number / 2 = number.natAbs := by
      rw [signFirst, if_pos negative]
      omega
    rw [odd, half, Int.pow_one]
    omega
  · have even : signFirst number % 2 = 0 := by
      rw [signFirst, if_neg negative]
      omega
    have half : signFirst number / 2 = number.natAbs := by
      rw [signFirst, if_neg negative]
      omega
    rw [even, half, Int.pow_zero]
    omega

/-- No smaller number has this sign and this magnitude. -/
theorem signFirst_sign_mul_le (word : Nat) :
    signFirst ((-1) ^ (word % 2) * (word / 2 : Nat)) ≤ word := by
  rcases Nat.mod_two_eq_zero_or_one word with even | odd
  · rw [even, Int.pow_zero, signFirst]
    split <;> omega
  · rw [odd, Int.pow_one, signFirst]
    split <;> omega

/-- The bytes of a number whose lowest bit is the sign. -/
def signedVarint (number : Int) : Bytes :=
  varint (signFirst number)

end Bytes
end CodeScope

import CodeScope.Bytes.Varint
import CodeScope.Proofs.Bytes.Groups

/-!
# Numbers that start with their least significant group

Such a number is the sum of its groups with their powers of 64, as far as it fits in 32 bits: a
group that lies across the end of the word is cut there, and one behind it is lost. It is cut off if
and only if no byte ends it. The place of the next group is told by a word of its own, which does
not overflow in less than 2²⁹ bytes.
-/

namespace CodeScope

/-- The sum of the groups of some bytes with their powers of 64. -/
def Bytes.leastFirst (data : Bytes) : Nat :=
  Nat.ofDigits 64 (data.map fun byte => byte.toNat % 64)

theorem Bytes.leastFirst_concat (data : Bytes) (byte : UInt8) :
    leastFirst (data ++ [byte]) = leastFirst data + 64 ^ data.length * (byte.toNat % 64) := by
  rw [leastFirst, List.map_append, Nat.ofDigits_append, List.length_map, List.map_singleton,
    Nat.ofDigits_singleton]
  rfl

theorem Bytes.leastFirst_lt (data : Bytes) : data.leastFirst < 64 ^ data.length := by
  have small : ∀ group ∈ data.map fun byte => byte.toNat % 64, group < 64 := by
    intro group member
    obtain ⟨byte, -, rfl⟩ := List.mem_map.mp member
    exact Nat.mod_lt _ (by decide)
  have bound := Nat.ofDigits_lt_base_pow_length (by decide) small
  rwa [List.length_map] at bound

namespace Gathered

variable {gathered : Gathered} {front : Bytes}

/-- The groups of some bytes. -/
def ofBytes (data : Bytes) : Gathered := data.foldl put empty

/-- The groups are those of some bytes, and the next one goes behind them. -/
structure Holds (gathered : Gathered) (data : Bytes) : Prop where
  number : gathered.number.toNat = data.leastFirst % 2 ^ 32
  shift : gathered.shift.toNat = 6 * data.length

theorem holds_empty : empty.Holds [] where
  number := rfl
  shift := rfl

theorem toNat_placed (group shift : UInt32) :
    (placed group shift).toNat = 2 ^ shift.toNat * group.toNat % 2 ^ 32 := by
  rw [placed]
  split
  · next inside =>
      have small : shift.toNat < 32 := UInt32.lt_iff_toNat_lt.mp inside
      rw [UInt32.toNat_shiftLeft, Nat.mod_eq_of_lt small, Nat.shiftLeft_eq, Nat.mul_comm]
  · next beyond =>
      have large : 32 ≤ shift.toNat := Nat.le_of_not_lt fun small =>
        beyond (UInt32.lt_iff_toNat_lt.mpr small)
      have multiple : 2 ^ 32 ∣ 2 ^ shift.toNat * group.toNat :=
        Nat.dvd_mul_right_of_dvd (Nat.pow_dvd_pow 2 large) _
      rw [Nat.mod_eq_zero_of_dvd multiple]
      rfl

/-- Another group is put above the bits of those in front, whether or not it still fits. -/
theorem Holds.put (holds : gathered.Holds front) (short : front.length < 2 ^ 29) (byte : UInt8) :
    (gathered.put byte).Holds (front ++ [byte]) where
  number := by
    have base : (64 : Nat) = 2 ^ 6 := by decide
    have below : front.leastFirst < 2 ^ (6 * front.length) := by
      rw [Nat.pow_mul, ← base]
      exact front.leastFirst_lt
    have group : (UInt32.ofNat (byte.toNat % 64)).toNat = byte.toNat % 64 :=
      UInt32.toNat_ofNat_of_lt' (Nat.lt_trans (Nat.mod_lt _ (by decide)) (by decide))
    calc
      (gathered.put byte).number.toNat
          = (front.leastFirst % 2 ^ 32 |||
              2 ^ (6 * front.length) * (byte.toNat % 64) % 2 ^ 32) := by
            rw [Gathered.put, UInt32.toNat_or, toNat_placed, group, holds.number, holds.shift]
      _ = (2 ^ (6 * front.length) * (byte.toNat % 64) + front.leastFirst) % 2 ^ 32 := by
            -- The end of the word may part the group, so the bits are joined before they are cut.
            rw [← Nat.or_mod_two_pow, Nat.or_comm, Nat.two_pow_add_eq_or_of_lt below]
      _ = Bytes.leastFirst (front ++ [byte]) % 2 ^ 32 := by
            rw [Bytes.leastFirst_concat, Nat.add_comm, Nat.pow_mul, ← base]
  shift := by
    have next : (gathered.put byte).shift.toNat = (6 * front.length + 6) % 2 ^ 32 := by
      rw [Gathered.put, UInt32.toNat_add, holds.shift]
      rfl
    rw [next, List.length_append, List.length_singleton]
    omega

theorem Holds.foldl {data : Bytes} (holds : gathered.Holds front)
    (short : front.length + data.length ≤ 2 ^ 29) :
    (data.foldl Gathered.put gathered).Holds (front ++ data) := by
  induction data generalizing gathered front with
  | nil =>
      rw [List.append_nil]
      exact holds
  | cons byte data induction =>
      rw [List.length_cons] at short
      have longer : (front ++ [byte]).length + data.length ≤ 2 ^ 29 := by
        rw [List.length_append, List.length_singleton]
        omega
      have others := induction (holds.put (by omega) byte) longer
      rwa [List.append_assoc] at others

theorem holds_ofBytes {data : Bytes} (short : data.length ≤ 2 ^ 29) : (ofBytes data).Holds data :=
  holds_empty.foldl (by rwa [List.length_nil, Nat.zero_add])

end Gathered

namespace SignFirst

variable (word : UInt32)

/-- A magnitude has a bit less than a word, so it is not negative. -/
theorem toInt_magnitude : (magnitude word).toInt = (word.toNat / 2 : Nat) := by
  have bounded := word.toNat_lt
  have half : (word >>> 1).toBitVec.toNat = word.toNat / 2 := by
    show (word >>> 1).toNat = _
    rw [UInt32.toNat_shiftRight]
    exact Nat.shiftRight_eq_div_pow word.toNat 1
  rw [magnitude, Int32.toInt, UInt32.toBitVec_toInt32, BitVec.toInt_eq_toNat_cond, half]
  split <;> omega

/-- A magnitude is not the lowest number, which alone has no negative. -/
theorem toInt_neg_magnitude : (-magnitude word).toInt = -(magnitude word).toInt := by
  have bounded := word.toNat_lt
  rw [Int32.toInt_neg, toInt_magnitude]
  exact Int.bmod_eq_of_le (by omega) (by omega)

theorem toInt_number :
    (number word).toInt = (-1) ^ (word.toNat % 2) * (word.toNat / 2 : Nat) := by
  have bit : word &&& 1 = 0 ↔ word.toNat % 2 = 0 := by
    rw [← UInt32.toNat_inj, UInt32.toNat_and]
    exact Eq.congr_left (Nat.and_one_is_mod word.toNat)
  rw [number]
  split
  · next even => rw [bit.mp even, Int.pow_zero, Int.one_mul, toInt_magnitude]
  · next odd =>
      have isOdd := (Nat.mod_two_eq_zero_or_one word.toNat).resolve_left (mt bit.mpr odd)
      rw [isOdd, Int.pow_one, Int.neg_one_mul, toInt_neg_magnitude, toInt_magnitude]

theorem natAbs_number_lt : (number word).toInt.natAbs < 2 ^ 31 := by
  have bounded := word.toNat_lt
  have magnitude : (number word).toInt.natAbs = word.toNat / 2 := by
    rw [toInt_number, Int.natAbs_mul, Int.natAbs_pow, Int.natAbs_neg, Int.natAbs_one, Nat.one_pow,
      Nat.one_mul, Int.natAbs_natCast]
  omega

end SignFirst

theorem Cursor.remaining_of_split {cursor : Cursor} {front rest : Bytes}
    (split : cursor.rest = front ++ rest) : cursor.remaining = front.length + rest.length := by
  rw [remaining, split, List.length_append]

namespace Scan

section Steps

variable {gathered : Gathered} {front : Bytes} (rest : Bytes) (offset : Nat)

/-- Bytes that do not end a number are put to its groups. -/
theorem varintAfter_append (further : ∀ byte ∈ front, byte.toNat.testBit 6 = true) :
    varintAfter gathered (front ++ rest) offset =
      varintAfter (front.foldl Gathered.put gathered) rest (offset + front.length) := by
  induction front generalizing gathered offset with
  | nil => rfl
  | cons byte front induction =>
      obtain ⟨here, later⟩ := List.forall_mem_cons.mp further
      have notLast : ¬byte.toNat % 128 < 64 := Nat.not_lt_of_le (Bytes.testBit_six_iff.mp here)
      rw [List.cons_append, varintAfter, if_neg notLast, induction _ later, List.length_cons,
        Nat.add_assoc, Nat.add_comm 1]
      rfl

theorem varintAfter_of_last {last : UInt8} (ended : last.toNat.testBit 6 = false) :
    varintAfter gathered (last :: rest) offset =
      .ok ((gathered.put last).number, ⟨rest, offset + 1⟩) := by
  have isLast : last.toNat % 128 < 64 := Nat.lt_of_not_le fun further => by
    rw [Bytes.testBit_six_iff.mpr further] at ended
    cases ended
  rw [varintAfter, if_pos isLast]

end Steps

variable {cursor : Cursor} {front rest : Bytes} {last : UInt8}

/-- What stands at a place after bytes that do not end a number. -/
theorem varint_of_further (split : cursor.rest = front ++ rest)
    (further : ∀ byte ∈ front, byte.toNat.testBit 6 = true) :
    varint cursor = varintAfter (.ofBytes front) rest (cursor.offset + front.length) := by
  rw [varint, split]
  exact varintAfter_append rest cursor.offset further

theorem varint_of_last (short : front.length < 2 ^ 29) (split : cursor.rest = front ++ last :: rest)
    (further : ∀ byte ∈ front, byte.toNat.testBit 6 = true)
    (ended : last.toNat.testBit 6 = false) :
    varint cursor = .ok (UInt32.ofNat (Bytes.leastFirst (front ++ [last])),
      ⟨rest, cursor.offset + (front.length + 1)⟩) := by
  have holds := (Gathered.holds_ofBytes (Nat.le_of_lt short)).put short last
  have number : ((Gathered.ofBytes front).put last).number =
      UInt32.ofNat (Bytes.leastFirst (front ++ [last])) := by
    rw [← UInt32.toNat_inj, holds.number, UInt32.toNat_ofNat']
  rw [varint_of_further split further, varintAfter_of_last rest _ ended, number, Nat.add_assoc]

theorem varint_of_unended (unended : ∀ byte ∈ cursor.rest, byte.toNat.testBit 6 = true) :
    varint cursor = .error (.truncated 1 (cursor.offset + cursor.remaining)) :=
  varint_of_further (List.append_nil cursor.rest).symm unended

theorem signedVarint_eq (cursor : Cursor) :
    signedVarint cursor = (varint cursor).map fun (word, next) =>
      ((-1) ^ (word.toNat % 2) * (word.toNat / 2 : Nat), next) := by
  cases read : varint cursor with
  | error error =>
      simp only [signedVarint, bind, StateT.bind, read, Except.bind]
      rfl
  | ok result =>
      obtain ⟨word, next⟩ := result
      rw [signedVarint, bind_of_ok read]
      exact congrArg (fun value => Except.ok (value, next)) (SignFirst.toInt_number word)

/-- A byte ends a number, and none in front of it does, or no byte ends one. -/
theorem ended_or_unended (data : Bytes) :
    (∃ front last rest, data = front ++ last :: rest ∧
      (∀ byte ∈ front, byte.toNat.testBit 6 = true) ∧ last.toNat.testBit 6 = false) ∨
    ∀ byte ∈ data, byte.toNat.testBit 6 = true := by
  induction data with
  | nil => exact .inr (by simp)
  | cons byte data induction =>
      cases bit : byte.toNat.testBit 6 with
      | false => exact .inl ⟨[], byte, data, rfl, by simp, bit⟩
      | true =>
          rcases induction with ⟨front, last, rest, rfl, further, ended⟩ | unended
          · have marked : ∀ other ∈ byte :: front, other.toNat.testBit 6 = true :=
              List.forall_mem_cons.mpr ⟨bit, further⟩
            exact .inl ⟨byte :: front, last, rest, rfl, marked, ended⟩
          · exact .inr (List.forall_mem_cons.mpr ⟨bit, unended⟩)

/-- A number is whole or cut off. -/
theorem varint_cases (short : cursor.remaining < 2 ^ 29) :
    (∃ front last rest, cursor.remaining = front.length + (rest.length + 1) ∧
      varint cursor = .ok (UInt32.ofNat (Bytes.leastFirst (front ++ [last])),
        ⟨rest, cursor.offset + (front.length + 1)⟩)) ∨
    (∀ byte ∈ cursor.rest, byte.toNat.testBit 6 = true) ∧
      varint cursor = .error (.truncated 1 (cursor.offset + cursor.remaining)) := by
  rcases ended_or_unended cursor.rest with ⟨front, last, rest, split, further, ended⟩ | unended
  · have length : cursor.remaining = front.length + (rest.length + 1) :=
      Cursor.remaining_of_split split
    exact .inl ⟨front, last, rest, length, varint_of_last (by omega) split further ended⟩
  · exact .inr ⟨unended, varint_of_unended unended⟩

namespace Takes

theorem groups {groups : List Nat} (some : groups ≠ []) (small : ∀ group ∈ groups, group < 64)
    (short : groups.length ≤ 2 ^ 29) :
    Takes Scan.varint (VarintRun.bytes groups) (UInt32.ofNat (Nat.ofDigits 64 groups)) := by
  intro rest offset
  obtain ⟨front, last, split, further, ended, same⟩ := VarintRun.exists_front_bytes some small
  have length : front.length + 1 = groups.length := by
    rw [← same, List.length_map, List.length_append, List.length_singleton]
  have stream : (⟨VarintRun.bytes groups ++ rest, offset⟩ : Cursor).rest =
      front ++ last :: rest := by
    rw [split, List.append_assoc, List.singleton_append]
  rw [varint_of_last (by omega) stream further ended, Bytes.leastFirst, same,
    VarintRun.length_bytes, length]

theorem varint {number : Nat} (small : number < 2 ^ 32) :
    Takes Scan.varint (Bytes.varint number) (UInt32.ofNat number) := by
  have few := VarintRun.length_leastGroups_le_six small
  have taken := groups (VarintRun.leastGroups_ne_nil number) (VarintRun.lt_of_mem_leastGroups number)
    (by omega)
  rwa [VarintRun.ofDigits_leastGroups] at taken

/-- A number is read back if its magnitude is below 2³¹, whatever zeros stand behind its groups. -/
theorem paddedVarint {number : Int} {zeros : Nat} (small : number.natAbs < 2 ^ 31)
    (short : (VarintRun.leastGroups (Bytes.signFirst number)).length + zeros ≤ 2 ^ 29) :
    Takes Scan.signedVarint
      (VarintRun.bytes (VarintRun.leastGroups (Bytes.signFirst number) ++ List.replicate zeros 0))
      number := by
  intro rest offset
  have fits := Bytes.signFirst_lt small
  have some : VarintRun.leastGroups (Bytes.signFirst number) ++ List.replicate zeros 0 ≠ [] :=
    List.append_ne_nil_of_left_ne_nil (VarintRun.leastGroups_ne_nil _) _
  have bounded : ∀ group ∈ VarintRun.leastGroups (Bytes.signFirst number) ++
      List.replicate zeros 0, group < 64 := by
    intro group member
    rcases List.mem_append.mp member with needed | zero
    · exact VarintRun.lt_of_mem_leastGroups _ group needed
    · rw [List.eq_of_mem_replicate zero]
      decide
  have taken := groups some bounded (by rwa [List.length_append, List.length_replicate])
  rw [Nat.ofDigits_append_replicate_zero, VarintRun.ofDigits_leastGroups] at taken
  rw [signedVarint_eq, taken rest offset]
  have word : (UInt32.ofNat (Bytes.signFirst number)).toNat = Bytes.signFirst number :=
    UInt32.toNat_ofNat_of_lt' fits
  simp only [Except.map, word, Bytes.sign_mul_signFirst]

theorem signedVarint {number : Int} (small : number.natAbs < 2 ^ 31) :
    Takes Scan.signedVarint (Bytes.signedVarint number) number := by
  have fits := Bytes.signFirst_lt small
  have few := VarintRun.length_leastGroups_le_six fits
  have taken := @paddedVarint number 0 small (by omega)
  rwa [List.replicate_zero, List.append_nil] at taken

end Takes

variable {number : Int} {next : Cursor}

theorem exists_word_of_signedVarint (read : signedVarint cursor = .ok (number, next)) :
    ∃ word, varint cursor = .ok (word, next) ∧
      (-1) ^ (word.toNat % 2) * (word.toNat / 2 : Nat) = number := by
  rw [signedVarint_eq] at read
  cases first : varint cursor with
  | error error =>
      rw [first] at read
      cases read
  | ok result =>
      rw [first] at read
      cases read
      exact ⟨result.1, rfl, rfl⟩

theorem bounds_of_signedVarint (read : signedVarint cursor = .ok (number, next)) :
    -(2 ^ 31 - 1) ≤ number ∧ number ≤ 2 ^ 31 - 1 := by
  obtain ⟨word, -, rfl⟩ := exists_word_of_signedVarint read
  have bounded := SignFirst.natAbs_number_lt word
  rw [SignFirst.toInt_number] at bounded
  omega

/-- A number is read from no fewer bytes than a writer needs for it. -/
theorem length_signedVarint_le (short : cursor.remaining < 2 ^ 29)
    (read : signedVarint cursor = .ok (number, next)) :
    next.remaining + (Bytes.signedVarint number).length ≤ cursor.remaining := by
  obtain ⟨word, first, rfl⟩ := exists_word_of_signedVarint read
  rcases varint_cases short with ⟨front, last, rest, length, whole⟩ | ⟨-, cutOff⟩
  · rw [whole] at first
    cases first
    have below : (UInt32.ofNat (Bytes.leastFirst (front ++ [last]))).toNat <
        64 ^ (front.length + 1) := by
      have bound := Bytes.leastFirst_lt (front ++ [last])
      rw [List.length_append, List.length_singleton] at bound
      rw [UInt32.toNat_ofNat']
      -- What is cut off makes the word only smaller.
      exact Nat.lt_of_le_of_lt (Nat.mod_le _ _) bound
    have few := VarintRun.length_leastGroups_le (Nat.succ_pos front.length)
      (Nat.lt_of_le_of_lt (Bytes.signFirst_sign_mul_le _) below)
    rw [length, Bytes.signedVarint, Bytes.varint, VarintRun.length_bytes]
    show rest.length + _ ≤ _
    omega
  · rw [cutOff] at first
    cases first

end Scan

/-- How numbers that start with their least significant group are read at a place. -/
structure Cursor.ReadsLeastFirst (cursor : Cursor) : Prop where
  /-- The first byte without bit 6 ends a number, which is kept as far as it fits in 32 bits. -/
  whole : ∀ {front rest : Bytes} {last : UInt8}, cursor.rest = front ++ last :: rest →
    (∀ byte ∈ front, byte.toNat.testBit 6 = true) → last.toNat.testBit 6 = false →
      Scan.varint cursor = .ok (UInt32.ofNat (Bytes.leastFirst (front ++ [last])),
        ⟨rest, cursor.offset + (front.length + 1)⟩)
  /-- A number is cut off if no byte ends it, at the end of the data, and for no other reason. -/
  cutOff : ∀ {error : Error}, Scan.varint cursor = .error error ↔
    (∀ byte ∈ cursor.rest, byte.toNat.testBit 6 = true) ∧
      error = .truncated 1 (cursor.offset + cursor.remaining)
  /-- Behind bytes that do not end a number, the place of the next group has not overflowed. -/
  placed : ∀ {front rest : Bytes}, cursor.rest = front ++ rest →
    (∀ byte ∈ front, byte.toNat.testBit 6 = true) →
      Scan.varint cursor =
          Scan.varintAfter (.ofBytes front) rest (cursor.offset + front.length) ∧
        (Gathered.ofBytes front).shift.toNat = 6 * front.length
  /-- The lowest bit is the sign and the rest the magnitude. -/
  signed : Scan.signedVarint cursor = (Scan.varint cursor).map fun (word, next) =>
    ((-1) ^ (word.toNat % 2) * (word.toNat / 2 : Nat), next)
  /-- Neither a magnitude nor its negative overflows. -/
  unclipped : ∀ word : UInt32, (SignFirst.magnitude word).toInt = (word.toNat / 2 : Nat) ∧
    (-SignFirst.magnitude word).toInt = -(SignFirst.magnitude word).toInt
  /-- The lowest number of 32 bits is never read. -/
  bounds : ∀ {number : Int} {next : Cursor}, Scan.signedVarint cursor = .ok (number, next) →
    -(2 ^ 31 - 1) ≤ number ∧ number ≤ 2 ^ 31 - 1
  /-- Every other number is read from its groups, whatever zeros stand behind them. -/
  written : ∀ {number : Int} {zeros : Nat} {rest : Bytes},
    -(2 ^ 31 - 1) ≤ number → number ≤ 2 ^ 31 - 1 →
    cursor.rest = VarintRun.bytes
      (VarintRun.leastGroups (Bytes.signFirst number) ++ List.replicate zeros 0) ++ rest →
      Scan.signedVarint cursor =
        .ok (number, ⟨rest, cursor.offset + ((Bytes.signedVarint number).length + zeros)⟩)
  /-- No fewer bytes than its groups without such zeros are read as a number. -/
  fewest : ∀ {number : Int} {next : Cursor}, Scan.signedVarint cursor = .ok (number, next) →
    next.remaining + (Bytes.signedVarint number).length ≤ cursor.remaining

/-- Numbers are read exactly from fewer than 2²⁹ bytes, however many groups they have. -/
theorem Cursor.readsLeastFirst_of_short {cursor : Cursor} (short : cursor.remaining < 2 ^ 29) :
    cursor.ReadsLeastFirst where
  whole split further ended := by
    have length := remaining_of_split split
    rw [List.length_cons] at length
    exact Scan.varint_of_last (by omega) split further ended
  cutOff {error} := by
    constructor
    · intro failed
      rcases Scan.varint_cases short with ⟨front, last, rest, -, whole⟩ | ⟨unended, cutOff⟩
      · rw [whole] at failed
        cases failed
      · rw [cutOff] at failed
        cases failed
        exact ⟨unended, rfl⟩
    · rintro ⟨unended, rfl⟩
      exact Scan.varint_of_unended unended
  placed split further := by
    have length := remaining_of_split split
    exact ⟨Scan.varint_of_further split further, (Gathered.holds_ofBytes (by omega)).shift⟩
  signed := Scan.signedVarint_eq cursor
  unclipped word := ⟨SignFirst.toInt_magnitude word, SignFirst.toInt_neg_magnitude word⟩
  bounds := Scan.bounds_of_signedVarint
  written {number zeros rest} lower upper split := by
    have length := remaining_of_split split
    rw [VarintRun.length_bytes, List.length_append, List.length_replicate] at length
    have taken := @Scan.Takes.paddedVarint number zeros (by omega) (by omega) rest cursor.offset
    rw [← split, VarintRun.length_bytes, List.length_append, List.length_replicate] at taken
    rw [Bytes.signedVarint, Bytes.varint, VarintRun.length_bytes]
    exact taken
  fewest := Scan.length_signedVarint_le short

/-- Seven groups, of which the sixth lies across the end of the word and the last one behind it. -/
def sevenGroups : Cursor := ⟨[0xFF, 0x7F, 0x7F, 0x7F, 0x7F, 0x7F, 1, 9], 3⟩

theorem Cursor.readsLeastFirst_of_short_sevenGroups :
    sevenGroups.remaining < 2 ^ 29 ∧ Scan.varint sevenGroups = .ok (0xFFFFFFFF, ⟨[9], 10⟩) ∧
      Scan.signedVarint sevenGroups = .ok (-(2 ^ 31 - 1), ⟨[9], 10⟩) := by
  have short : sevenGroups.remaining < 2 ^ 29 := by decide
  have reads := readsLeastFirst_of_short short
  have further : ([0xFF, 0x7F, 0x7F, 0x7F, 0x7F, 0x7F] : Bytes).all fun byte =>
      byte.toNat.testBit 6 := rfl
  have read : Scan.varint sevenGroups = .ok (0xFFFFFFFF, ⟨[9], 10⟩) :=
    @reads.whole _ [9] 1 rfl (List.all_eq_true.mp further) rfl
  refine ⟨short, read, ?_⟩
  rw [reads.signed, read]
  rfl

end CodeScope

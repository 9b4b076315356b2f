import CodeScope.Proofs.Handler.Steps

/-!
# Exception tables that a writer makes

The four numbers of an entry stand one behind the other without anything between them, each most
significant group first. A table that is written in this way reads as its entries, a table that
reads at all is written in this way, and so what tables hold is put together as they are.
-/

namespace CodeScope
namespace Bytes

/-- Bytes that write numbers one behind the other, each most significant group first. -/
def WritesAllMostFirst (data : Bytes) (numbers : List Nat) : Prop :=
  ∃ pieces, List.Forall₂ WritesMostFirst pieces numbers ∧ data = pieces.flatten

variable {data : Bytes} {numbers others : List Nat}

theorem writesAllMostFirst_nil_iff : data.WritesAllMostFirst [] ↔ data = [] := by
  constructor
  · intro ⟨pieces, each, whole⟩
    rw [whole, List.forall₂_nil_right_iff.mp each]
    rfl
  · intro none
    exact ⟨[], .nil, none⟩

theorem writesAllMostFirst_cons_iff {number : Nat} :
    data.WritesAllMostFirst (number :: numbers) ↔
      ∃ front rest, front.WritesMostFirst number ∧ WritesAllMostFirst rest numbers ∧
        data = front ++ rest := by
  constructor
  · intro ⟨pieces, each, whole⟩
    obtain ⟨front, pieces, first, later, rfl⟩ := List.forall₂_cons_right_iff.mp each
    exact ⟨front, pieces.flatten, first, ⟨pieces, later, rfl⟩, whole⟩
  · intro ⟨front, rest, first, ⟨pieces, later, whole⟩, split⟩
    exact ⟨front :: pieces, .cons first later, by rw [split, whole, List.flatten_cons]⟩

theorem writesAllMostFirst_append_iff :
    data.WritesAllMostFirst (numbers ++ others) ↔
      ∃ front rest, WritesAllMostFirst front numbers ∧ WritesAllMostFirst rest others ∧
        data = front ++ rest := by
  induction numbers generalizing data with
  | nil => simp [writesAllMostFirst_nil_iff]
  | cons number numbers induction =>
      simp only [List.cons_append, writesAllMostFirst_cons_iff, induction]
      constructor
      · intro ⟨piece, _, first, ⟨front, rest, second, third, split⟩, whole⟩
        exact ⟨piece ++ front, rest, ⟨piece, front, first, second, rfl⟩, third,
          by rw [whole, split, List.append_assoc]⟩
      · intro ⟨_, rest, ⟨piece, front, first, second, split⟩, third, whole⟩
        exact ⟨piece, front ++ rest, first, ⟨front, rest, second, third, rfl⟩,
          by rw [whole, split, List.append_assoc]⟩

theorem exists_writesAllMostFirst (numbers : List Nat) :
    ∃ data : Bytes, data.WritesAllMostFirst numbers := by
  induction numbers with
  | nil => exact ⟨[], writesAllMostFirst_nil_iff.mpr rfl⟩
  | cons number numbers induction =>
      obtain ⟨front, first⟩ := exists_writesMostFirst number
      obtain ⟨rest, later⟩ := induction
      exact ⟨front ++ rest, writesAllMostFirst_cons_iff.mpr ⟨front, rest, first, later, rfl⟩⟩

end Bytes

/-- An entry of an exception table in the numbers of its writer, which count code words. -/
structure HandlerEntry where
  /-- First protected word. -/
  start : Nat
  /-- Number of protected words. -/
  length : Nat
  /-- Word of the handler. -/
  target : Nat
  /-- Depth of the stack at the handler. -/
  depth : Nat
  /-- Whether the handler wants the offset of the fault. -/
  lasti : Bool
  start_lt : start < 2 ^ 32
  length_lt : length < 2 ^ 32
  target_lt : target < 2 ^ 32
  depth_lt : depth < 2 ^ 31

namespace HandlerEntry

/-- The numbers that stand in the table. -/
def numbers (entry : HandlerEntry) : List Nat :=
  [entry.start, entry.length, entry.target, 2 * entry.depth + entry.lasti.toNat]

/-- What the entry reads as. Both offsets of an empty range at the start of the code are zero. -/
def handler (entry : HandlerEntry) : Handler :=
  ⟨2 * entry.start, 2 * entry.start + 2 * entry.length - 2, 2 * entry.target, entry.depth,
    entry.lasti⟩

/-- A table that writes entries one behind the other. -/
def Writes (entries : List HandlerEntry) (table : Bytes) : Prop :=
  table.WritesAllMostFirst (entries.flatMap numbers)

theorem numbers_lt (entry : HandlerEntry) : ∀ number ∈ entry.numbers, number < 2 ^ 32 := by
  have flag : entry.lasti.toNat ≤ 1 := Bool.toNat_le entry.lasti
  have depth := entry.depth_lt
  have packed : 2 * entry.depth + entry.lasti.toNat < 2 ^ 32 := by omega
  simpa [numbers] using ⟨entry.start_lt, entry.length_lt, entry.target_lt, packed⟩

/-- The bytes of the numbers of an entry are read as the entry. -/
theorem takes_scan {entry : HandlerEntry} {data : Bytes}
    (written : data.WritesAllMostFirst entry.numbers) : Handler.scan.Takes data entry.handler := by
  obtain ⟨startSmall, lengthSmall, targetSmall, packedSmall, -⟩ := by
    simpa only [numbers, List.forall_mem_cons] using entry.numbers_lt
  simp only [numbers, Bytes.writesAllMostFirst_cons_iff,
    Bytes.writesAllMostFirst_nil_iff] at written
  obtain ⟨start, _, ofStart, ⟨length, _, ofLength, ⟨target, _, ofTarget, ⟨packed, _, ofPacked,
    rfl, rfl⟩, rfl⟩, rfl⟩, rfl⟩ := written
  have read : Handler.scan.Takes (start ++ (length ++ (target ++ packed))) _ :=
    (Scan.Takes.boundedVarint ofStart startSmall).bind <|
    (Scan.Takes.boundedVarint ofLength lengthSmall).bind <|
    (Scan.Takes.boundedVarint ofTarget targetSmall).bind <|
    (Scan.Takes.boundedVarint ofPacked packedSmall).andThen
  have half : (2 * entry.depth + entry.lasti.toNat) / 2 = entry.depth := by
    have flag : entry.lasti.toNat ≤ 1 := Bool.toNat_le entry.lasti
    omega
  have odd : decide ((2 * entry.depth + entry.lasti.toNat) % 2 = 1) = entry.lasti := by
    cases entry.lasti <;> simp
  simp only [UInt32.toNat_ofNat_of_lt' startSmall, UInt32.toNat_ofNat_of_lt' lengthSmall,
    UInt32.toNat_ofNat_of_lt' targetSmall, UInt32.toNat_ofNat_of_lt' packedSmall, half, odd] at read
  rwa [List.append_nil]

/-- An entry that is read is written there. -/
theorem exists_of_scan {cursor next : Cursor} {handler : Handler}
    (scanned : Handler.scan cursor = .ok (handler, next)) :
    ∃ (entry : HandlerEntry) (data : Bytes), data.WritesAllMostFirst entry.numbers ∧
      cursor.rest = data ++ next.rest ∧ handler = entry.handler := by
  obtain ⟨start, length, target, packed, _, _, _, readStart, readLength, readTarget, readPacked,
    rfl⟩ := Handler.exists_numbers_of_scan scanned
  obtain ⟨startData, ofStart, startSplit⟩ := Scan.exists_of_boundedVarint readStart
  obtain ⟨lengthData, ofLength, lengthSplit⟩ := Scan.exists_of_boundedVarint readLength
  obtain ⟨targetData, ofTarget, targetSplit⟩ := Scan.exists_of_boundedVarint readTarget
  obtain ⟨packedData, ofPacked, packedSplit⟩ := Scan.exists_of_boundedVarint readPacked
  have bound : packed.toNat < 2 ^ 32 := packed.toNat_lt
  have half : packed.toNat / 2 < 2 ^ 31 := by omega
  have parts : 2 * (packed.toNat / 2) + (decide (packed.toNat % 2 = 1)).toNat = packed.toNat := by
    rcases Nat.mod_two_eq_zero_or_one packed.toNat with even | odd
    · simp only [even, Nat.zero_ne_one, decide_false, Bool.toNat_false]
      omega
    · simp only [odd, decide_true, Bool.toNat_true]
      omega
  refine ⟨⟨start.toNat, length.toNat, target.toNat, packed.toNat / 2, packed.toNat % 2 = 1,
    start.toNat_lt, length.toNat_lt, target.toNat_lt, half⟩,
    [startData, lengthData, targetData, packedData].flatten, ⟨_, ?_, rfl⟩, ?_, rfl⟩
  · exact .cons ofStart (.cons ofLength (.cons ofTarget (.cons (parts.symm ▸ ofPacked) .nil)))
  · simp [startSplit, lengthSplit, targetSplit, packedSplit]

section Tables

variable {entries more : List HandlerEntry} {table rest : Bytes} {cursor : HandlerCursor}

/-- Entries whose tables follow one another follow one another. -/
theorem writes_append (first : Writes entries table) (second : Writes more rest) :
    Writes (entries ++ more) (table ++ rest) := by
  rw [Writes, List.flatMap_append]
  exact Bytes.writesAllMostFirst_append_iff.mpr ⟨table, rest, first, second, rfl⟩

theorem exists_writes (entries : List HandlerEntry) : ∃ table, Writes entries table :=
  Bytes.exists_writesAllMostFirst _

theorem writes_cons_iff {entry : HandlerEntry} :
    Writes (entry :: entries) table ↔
      ∃ front rest, Bytes.WritesAllMostFirst front entry.numbers ∧ Writes entries rest ∧
        table = front ++ rest := by
  rw [Writes, List.flatMap_cons]
  exact Bytes.writesAllMostFirst_append_iff

/-- A cursor that stands before entries gives these entries. -/
theorem items_of_writes (sound : cursor.failed = false)
    (written : Writes entries cursor.place.rest) :
    cursor.items = entries.map fun entry => .ok entry.handler := by
  induction entries generalizing cursor with
  | nil =>
      have none : cursor.place.rest = [] := Bytes.writesAllMostFirst_nil_iff.mp written
      exact HandlerCursor.items_of_empty (List.isEmpty_iff.mpr none)
  | cons entry entries induction =>
      obtain ⟨front, rest, first, later, split⟩ := writes_cons_iff.mp written
      have scanned := takes_scan first rest cursor.place.offset
      rw [← split] at scanned
      have unread : ¬cursor.place.isEmpty := by
        intro finished
        have none : cursor.place.remaining = 0 := by
          rw [Cursor.remaining, List.isEmpty_iff.mp finished, List.length_nil]
        have shorter := Handler.scan_shortens scanned
        exact Nat.not_lt_zero _ (none ▸ shorter)
      rw [HandlerCursor.items_of_read sound unread scanned]
      exact congrArg (_ :: ·) (@induction { cursor with place := _ } sound later)

/-- A cursor that gives entries and no error stands before them. -/
theorem exists_of_items {handlers : List Handler} (sound : cursor.failed = false)
    (items : cursor.items = handlers.map .ok) :
    ∃ entries, Writes entries cursor.place.rest ∧ handlers = entries.map handler := by
  induction handlers generalizing cursor with
  | nil =>
      rcases HandlerCursor.items_cases sound with
        ⟨finished, -⟩ | ⟨error, -, given⟩ | ⟨handler, place, -, given⟩
      · exact ⟨[], Bytes.writesAllMostFirst_nil_iff.mpr (List.isEmpty_iff.mp finished), rfl⟩
      · cases given.symm.trans items
      · cases given.symm.trans items
  | cons handler handlers induction =>
      rcases HandlerCursor.items_cases sound with
        ⟨-, given⟩ | ⟨error, -, given⟩ | ⟨other, place, scanned, given⟩
      · cases given.symm.trans items
      · cases given.symm.trans items
      · obtain ⟨same, others⟩ := List.cons.inj (given.symm.trans items)
        cases same
        obtain ⟨entry, front, first, split, rfl⟩ := exists_of_scan scanned
        obtain ⟨entries, later, rfl⟩ := @induction { cursor with place := place } sound others
        exact ⟨entry :: entries, writes_cons_iff.mpr ⟨front, _, first, later, split⟩, rfl⟩

/-- A table reads if and only if it writes entries, and then as these. -/
theorem readAll_eq_ok_iff {handlers : List Handler} :
    (HandlerCursor.start table).readAll = .ok handlers ↔
      ∃ entries, Writes entries table ∧ handlers = entries.map handler := by
  have asked : (HandlerCursor.start table).readAll = .ok handlers ↔
      (HandlerCursor.start table).items = handlers.map .ok := by
    rw [← List.forall₂_eq_eq_eq, List.forall₂_map_right_iff]
    exact mapM_eq_ok_iff
  rw [asked]
  constructor
  · exact exists_of_items rfl
  · intro ⟨entries, written, same⟩
    rw [items_of_writes rfl written, same, List.map_map]
    rfl

end Tables

end HandlerEntry

/-- How exception tables that a writer makes are read. -/
structure HandlerTables : Prop where
  /-- Entries are read back in their order, whatever bits 7 are and zeros stand in front. -/
  decoded : ∀ (entries : List HandlerEntry) (table : Bytes), HandlerEntry.Writes entries table →
    (HandlerCursor.start table).readAll = .ok (entries.map HandlerEntry.handler)
  /-- All entries can be written. -/
  writable : ∀ entries : List HandlerEntry, ∃ table, HandlerEntry.Writes entries table
  /-- Nothing but entries that are written is read. -/
  written : ∀ (table : Bytes) (handlers : List Handler),
    (HandlerCursor.start table).readAll = .ok handlers →
      ∃ entries, HandlerEntry.Writes entries table ∧ handlers = entries.map HandlerEntry.handler
  /-- The entries of two tables one behind the other are theirs one behind the other. -/
  concatenated : ∀ (table other : Bytes) (handlers others : List Handler),
    (HandlerCursor.start table).readAll = .ok handlers →
    (HandlerCursor.start other).readAll = .ok others →
      (HandlerCursor.start (table ++ other)).readAll = .ok (handlers ++ others)
  /-- The last word is the one in front of the end, or zero where the end is zero. -/
  stops : ∀ entry : HandlerEntry, entry.handler.stop + 2 = 2 * entry.start + 2 * entry.length ∨
    entry.start = 0 ∧ entry.length = 0 ∧ entry.handler.stop = 0
  /-- A range that is not empty ends where it starts or behind. -/
  ordered : ∀ entry : HandlerEntry, 1 ≤ entry.length → entry.handler.start ≤ entry.handler.stop
  /-- No number on the way to an entry has more than 64 bits. -/
  fits : ∀ entry : HandlerEntry,
    2 * entry.start + 2 * entry.length < 2 ^ 64 ∧ 2 * entry.target < 2 ^ 64

/-- An exception table is read as the entries that its writer puts into it. -/
theorem handlerTables : HandlerTables where
  decoded entries table written := HandlerEntry.readAll_eq_ok_iff.mpr ⟨entries, written, rfl⟩
  writable := HandlerEntry.exists_writes
  written _ _ := HandlerEntry.readAll_eq_ok_iff.mp
  concatenated table other handlers others read readOther := by
    obtain ⟨entries, written, rfl⟩ := HandlerEntry.readAll_eq_ok_iff.mp read
    obtain ⟨more, otherWritten, rfl⟩ := HandlerEntry.readAll_eq_ok_iff.mp readOther
    rw [← List.map_append]
    exact HandlerEntry.readAll_eq_ok_iff.mpr
      ⟨entries ++ more, HandlerEntry.writes_append written otherWritten, rfl⟩
  stops entry := by
    show 2 * entry.start + 2 * entry.length - 2 + 2 = _ ∨
      _ ∧ _ ∧ 2 * entry.start + 2 * entry.length - 2 = 0
    omega
  ordered entry some := by
    show 2 * entry.start ≤ 2 * entry.start + 2 * entry.length - 2
    omega
  fits entry := by
    have start := entry.start_lt
    have length := entry.length_lt
    have target := entry.target_lt
    omega

/-- Zeros in front of a number and bit 7 of its first byte change nothing. -/
example :
    (HandlerCursor.start [0xC0, 0x82, 4, 10, 5]).readAll = .ok [⟨4, 10, 20, 2, true⟩] := by
  cbv

end CodeScope

import CodeScope.Bytes.Varint
import CodeScope.Value.Basic
import CodeScope.Version.Profile

/-!
# Exception handlers

An exception table lists the ranges of code that an exception handler protects. An entry is four
numbers: the start of its range, its length and the handler, all in code words, and the depth of
the stack at the handler, doubled, plus one if the handler wants the offset of the fault. The table
is read through a cursor that gives one entry after the other and stops at the first malformed one.
-/

namespace CodeScope

/-- A range of code with its exception handler. -/
structure Handler where
  /-- Offset of the first protected byte. -/
  start : Nat
  /-- Offset of the last protected instruction. -/
  stop : Nat
  /-- Offset of the handler. -/
  target : Nat
  /-- Depth of the stack at the handler. -/
  depth : Nat
  /-- Whether the handler wants the offset of the fault. -/
  lasti : Bool
  deriving DecidableEq, Repr

/-- One entry of an exception table. -/
def Handler.scan : Scan Handler := do
  let start := (← Scan.boundedVarint).toNat
  let length := (← Scan.boundedVarint).toNat
  let target := (← Scan.boundedVarint).toNat
  let depth := (← Scan.boundedVarint).toNat
  return ⟨2 * start, 2 * start + 2 * length - 2, 2 * target, depth / 2, depth % 2 = 1⟩

/-- An entry that is read is made of four numbers that are. -/
theorem Handler.exists_numbers_of_scan {cursor next : Cursor} {handler : Handler}
    (scanned : scan cursor = .ok (handler, next)) :
    ∃ (start length target packed : UInt32) (afterStart afterLength afterTarget : Cursor),
      Scan.boundedVarint cursor = .ok (start, afterStart) ∧
      Scan.boundedVarint afterStart = .ok (length, afterLength) ∧
      Scan.boundedVarint afterLength = .ok (target, afterTarget) ∧
      Scan.boundedVarint afterTarget = .ok (packed, next) ∧
      handler = ⟨2 * start.toNat, 2 * start.toNat + 2 * length.toNat - 2, 2 * target.toNat,
        packed.toNat / 2, packed.toNat % 2 = 1⟩ := by
  simp only [scan, Bind.bind, StateT.bind] at scanned
  obtain ⟨⟨start, afterStart⟩, readStart, scanned⟩ := bind_eq_ok_iff.mp scanned
  obtain ⟨⟨length, afterLength⟩, readLength, scanned⟩ := bind_eq_ok_iff.mp scanned
  obtain ⟨⟨target, afterTarget⟩, readTarget, scanned⟩ := bind_eq_ok_iff.mp scanned
  obtain ⟨⟨packed, final⟩, readPacked, scanned⟩ := bind_eq_ok_iff.mp scanned
  cases scanned
  exact ⟨_, _, _, _, _, _, _, readStart, readLength, readTarget, readPacked, rfl⟩

/-- No entry is empty. -/
theorem Handler.scan_shortens {cursor next : Cursor} {handler : Handler}
    (scanned : scan cursor = .ok (handler, next)) : next.remaining < cursor.remaining := by
  obtain ⟨_, _, _, _, afterStart, afterLength, afterTarget, readStart, readLength, readTarget,
    readPacked, -⟩ := exists_numbers_of_scan scanned
  calc
    next.remaining < afterTarget.remaining := Scan.boundedVarint_shortens readPacked
    _ < afterLength.remaining := Scan.boundedVarint_shortens readTarget
    _ < afterStart.remaining := Scan.boundedVarint_shortens readLength
    _ < cursor.remaining := Scan.boundedVarint_shortens readStart

/-- A place in an exception table. -/
structure HandlerCursor where
  /-- The whole table. -/
  table : Bytes
  /-- Place of the next entry. -/
  place : Cursor
  /-- Whether an entry was malformed. -/
  failed : Bool
  deriving Repr

namespace HandlerCursor

/-- The place before the first entry of a table. -/
def start (table : Bytes) : HandlerCursor := ⟨table, Cursor.start table, false⟩

/--
The next entry or its error, and the cursor behind it. There is nothing at the end of the table and
after an error.
-/
def next (cursor : HandlerCursor) : Option (Except Error Handler) × HandlerCursor :=
  if cursor.failed || cursor.place.isEmpty then
    (none, cursor)
  else
    match Handler.scan cursor.place with
    | .ok (handler, place) => (some (.ok handler), { cursor with place := place })
    | .error error => (some (.error error), { cursor with failed := true })

/-- Number of bytes that a cursor may still read. -/
def left (cursor : HandlerCursor) : Nat :=
  if cursor.failed then 0 else cursor.place.remaining

theorem left_decreases {cursor following : HandlerCursor} {item : Except Error Handler}
    (given : cursor.next = (some item, following)) : following.left < cursor.left := by
  rw [next] at given
  split at given
  · cases given
  · next unfinished =>
      simp only [Bool.or_eq_true, not_or, Bool.not_eq_true] at unfinished
      have some : 0 < cursor.place.remaining := by
        rw [Cursor.remaining, List.length_pos_iff, ne_eq, ← List.isEmpty_iff]
        simpa [Cursor.isEmpty] using unfinished.2
      split at given
      · next scanned =>
          cases given
          simp only [left, unfinished.1]
          exact Handler.scan_shortens scanned
      · cases given
        simpa [left, unfinished.1] using some

/-- The entries and the error that are still to come. -/
def items (cursor : HandlerCursor) : List (Except Error Handler) :=
  match _ : cursor.next with
  | (none, _) => []
  | (some item, following) => item :: items following
termination_by cursor.left
decreasing_by
  exact left_decreases ‹_›

/-- All entries of the table, whatever the cursor has read of it. -/
def readAll (cursor : HandlerCursor) : Except Error (List Handler) :=
  (start cursor.table).items.mapM id

end HandlerCursor

/-- The exception table of a code unit; it has no entries where the version has no such table. -/
def Handler.ofUnit (unit : CodeUnit) : Except Error HandlerCursor := do
  let profile ← Profile.ofVersion unit.version
  return .start (if profile.hasExceptionTable then unit.exceptiontable else [])

end CodeScope

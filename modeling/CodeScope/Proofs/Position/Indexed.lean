import CodeScope.Proofs.Position.Sums

/-!
# Reading line pairs by index

A reader that holds an index into the bytes of a table and a line of 32 bits fails where the index
is past the end or the line leaves its range. As long as the lines of a table fit, it never fails
and gives what a cursor on the pairs themselves gives: lines that are sums of changes.
-/

namespace CodeScope

/-- A line of 32 bits. -/
def LineFits (line : Int) : Prop := -2 ^ 31 ≤ line ∧ line < 2 ^ 31

instance (line : Int) : Decidable (LineFits line) :=
  inferInstanceAs (Decidable (_ ∧ _))

/-- A place in a table of line pairs by the index of a byte. -/
structure PairReader where
  /-- When changes of line count. -/
  timing : PairTiming
  /-- The bytes of the table. -/
  table : Bytes
  /-- Index of the first byte of the pair that covers the place. -/
  index : Nat
  /-- Offset of the code after the bytes of that pair. -/
  threshold : Nat
  /-- Line at the place. -/
  line : Int32
  /-- Offset of the last query. -/
  last : Option Nat

namespace PairReader

/-- Index behind the last whole pair. -/
def stop (reader : PairReader) : Nat := 2 * (reader.table.length / 2)

/-- The line behind a change of it, unless it does not fit. -/
def shift (line : Int32) (change : Int) : Option Int32 :=
  if LineFits (line.toInt + change) then some (Int32.ofInt (line.toInt + change)) else none

/-- The line for the bytes of the pair at the index. -/
def lineInside (reader : PairReader) : Option Int32 :=
  match reader.timing with
  | .afterBytes => some reader.line
  | .ownBytes => do
      let delta ← reader.table[reader.index + 1]?
      shift reader.line (LinePairs.rangeDelta delta)

/-- The line behind the bytes of the pair at the index. -/
def lineBehind (reader : PairReader) : Option Int32 :=
  match reader.timing with
  | .afterBytes => do
      let delta ← reader.table[reader.index + 1]?
      shift reader.line (LinePairs.lineDelta delta)
  | .ownBytes => some reader.line

/-- Go into the pair at the index, if there is one. -/
def enter (reader : PairReader) : Option PairReader :=
  if reader.index < reader.stop then do
    let width ← reader.table[reader.index]?
    let line ← reader.lineInside
    return { reader with threshold := reader.threshold + width.toNat, line := line }
  else
    some reader

/-- Go out of the pair at the index. -/
def leave (reader : PairReader) : Option PairReader := do
  let line ← reader.lineBehind
  return { reader with index := reader.index + 2, line := line }

/-- The place before the first query. -/
def start (timing : PairTiming) (firstLine : Int32) (table : Bytes) : Option PairReader :=
  enter ⟨timing, table, 0, 0, firstLine, none⟩

theorem enter_eq_some {reader next : PairReader} (entered : reader.enter = some next) :
    next.table = reader.table ∧ next.index = reader.index := by
  rw [enter] at entered
  split at entered
  · simp only [Option.bind_eq_bind, Option.bind_eq_some_iff] at entered
    obtain ⟨width, -, line, -, same⟩ := entered
    cases same
    exact ⟨rfl, rfl⟩
  · cases entered
    exact ⟨rfl, rfl⟩

theorem leave_eq_some {reader next : PairReader} (left : reader.leave = some next) :
    next.table = reader.table ∧ next.index = reader.index + 2 := by
  simp only [leave, Option.bind_eq_bind, Option.bind_eq_some_iff] at left
  obtain ⟨line, -, same⟩ := left
  cases same
  exact ⟨rfl, rfl⟩

/-- The pairs that end at an offset or before it are left, each for the next one. -/
def advance (reader : PairReader) (offset : Nat) : Option PairReader :=
  if reader.threshold ≤ offset ∧ reader.index < reader.stop then
    match _ : reader.leave.bind enter with
    | none => none
    | some next => advance next offset
  else
    some reader
termination_by reader.stop - reader.index
decreasing_by
  obtain ⟨-, unread⟩ := ‹_ ∧ _›
  obtain ⟨behind, left, entered⟩ := Option.bind_eq_some_iff.mp ‹_›
  obtain ⟨sameTable, sameIndex⟩ := enter_eq_some entered
  obtain ⟨table, index⟩ := leave_eq_some left
  rw [stop] at unread ⊢
  rw [stop, sameTable, sameIndex, table, index]
  omega

/-- The position at an offset. A query before the last one is refused. -/
def get (reader : PairReader) (offset : Nat) : Option (Except Error (Position × PairReader)) :=
  match Position.checkOrder reader.last offset with
  | .error error => some (.error error)
  | .ok () => do
      let next ← { reader with last := some offset }.advance offset
      return .ok (⟨offset, .ofLine next.line.toInt⟩, next)

/-- The answers to some queries. A query that is refused leaves the reader as it is. -/
def answers : PairReader → List Nat → Option (List (Except Error Position))
  | _, [] => some []
  | reader, offset :: queries => do
      match ← reader.get offset with
      | .error error => return .error error :: (← answers reader queries)
      | .ok (position, next) => return .ok position :: (← answers next queries)

/-- The positions from an offset on, one for each threshold, found in a number of rounds. -/
def replay : Nat → PairReader → Nat → Option (Except Error (List Position))
  | 0, _, _ => none
  | rounds + 1, reader, offset =>
      if reader.stop ≤ reader.index then
        some (.ok [])
      else do
        match ← reader.get offset with
        | .error error => return .error error
        | .ok (position, next) => return (position :: ·) <$> (← replay rounds next next.threshold)

section Bytes

open LinePairs

/-- The change of line between the place before some pairs and the bytes of the first. -/
def entering : PairTiming → List (UInt8 × UInt8) → Int
  | .afterBytes, _ => 0
  | .ownBytes, pairs => leadingDelta pairs

/-- The change of line between the bytes of a pair and the place behind them. -/
def leaving : PairTiming → UInt8 → Int
  | .afterBytes, delta => lineDelta delta
  | .ownBytes, _ => 0

theorem leaving_add_entering (timing : PairTiming) (delta : UInt8) (rest : List (UInt8 × UInt8)) :
    leaving timing delta + entering timing rest = change timing delta rest := by
  cases timing with
  | afterBytes => exact Int.add_zero _
  | ownBytes => exact Int.zero_add _

/-- The pairs from the index on. -/
def pending (reader : PairReader) : List (UInt8 × UInt8) :=
  pairs (reader.table.drop reader.index)

variable {reader : PairReader}

theorem index_lt_stop_iff (even : reader.index % 2 = 0) :
    reader.index < reader.stop ↔ reader.pending ≠ [] := by
  rw [← List.length_pos_iff, pending, length_pairs, count, List.length_drop, stop]
  omega

/-- A pair that is pending stands in the table, with the others behind it. -/
theorem bytes_of_pending {width delta : UInt8} {rest : List (UInt8 × UInt8)}
    (pending : reader.pending = (width, delta) :: rest) :
    reader.table[reader.index]? = some width ∧ reader.table[reader.index + 1]? = some delta ∧
      pairs (reader.table.drop (reader.index + 2)) = rest := by
  rw [PairReader.pending] at pending
  cases split : reader.table.drop reader.index with
  | nil =>
      rw [split] at pending
      cases pending
  | cons first others =>
      cases others with
      | nil =>
          rw [split] at pending
          cases pending
      | cons second others =>
          rw [split] at pending
          cases pending
          refine ⟨?_, ?_, ?_⟩
          · rw [← Nat.add_zero reader.index, ← List.getElem?_drop, split]
            rfl
          · rw [← List.getElem?_drop, split]
            rfl
          · rw [← List.drop_drop, split]
            rfl

theorem shift_of_fits {line : Int32} {change : Int} (fits : LineFits (line.toInt + change)) :
    ∃ next, shift line change = some next ∧ next.toInt = line.toInt + change := by
  refine ⟨_, if_pos fits, ?_⟩
  rw [Int32.toInt_ofInt]
  exact Int.bmod_eq_of_le fits.1 fits.2

theorem lineInside_of_fits {width delta : UInt8} {rest : List (UInt8 × UInt8)}
    (read : reader.table[reader.index + 1]? = some delta)
    (fits : LineFits (reader.line.toInt + entering reader.timing ((width, delta) :: rest))) :
    ∃ line, reader.lineInside = some line ∧
      line.toInt = reader.line.toInt + entering reader.timing ((width, delta) :: rest) := by
  rw [lineInside]
  cases timing : reader.timing with
  | afterBytes => exact ⟨reader.line, rfl, (Int.add_zero _).symm⟩
  | ownBytes =>
      rw [timing] at fits
      rw [read]
      exact shift_of_fits fits

theorem lineBehind_of_fits {delta : UInt8} (read : reader.table[reader.index + 1]? = some delta)
    (fits : LineFits (reader.line.toInt + leaving reader.timing delta)) :
    ∃ line, reader.lineBehind = some line ∧
      line.toInt = reader.line.toInt + leaving reader.timing delta := by
  rw [lineBehind]
  cases timing : reader.timing with
  | afterBytes =>
      rw [timing] at fits
      rw [read]
      exact shift_of_fits fits
  | ownBytes => exact ⟨reader.line, rfl, (Int.add_zero _).symm⟩

/-- Going into a pair reads its bytes, and none where there is no pair. -/
theorem enter_of_fits (even : reader.index % 2 = 0)
    (fits : LineFits (reader.line.toInt + entering reader.timing reader.pending)) :
    ∃ line, line.toInt = reader.line.toInt + entering reader.timing reader.pending ∧
      reader.enter = some { reader with
        threshold := reader.threshold + leadingWidth reader.pending, line := line } := by
  cases pending : reader.pending with
  | nil =>
      have ended : ¬reader.index < reader.stop := by
        rw [index_lt_stop_iff even, pending]
        simp
      refine ⟨reader.line, ?_, if_neg ended⟩
      cases reader.timing <;> exact (Int.add_zero _).symm
  | cons pair rest =>
      obtain ⟨widthRead, deltaRead, -⟩ := bytes_of_pending pending
      have unread : reader.index < reader.stop := by
        rw [index_lt_stop_iff even, pending]
        exact List.cons_ne_nil pair rest
      rw [pending] at fits
      obtain ⟨line, inside, same⟩ := lineInside_of_fits deltaRead fits
      refine ⟨line, same, ?_⟩
      rw [enter, if_pos unread, widthRead, inside]
      rfl

/-- The lines behind one pair after the other fit. -/
def LinesFit (timing : PairTiming) : Int → List (UInt8 × UInt8) → Prop
  | _, [] => True
  | line, (_, delta) :: rest =>
      LineFits (line + change timing delta rest) ∧
        LinesFit timing (line + change timing delta rest) rest

/-- A reader that stands where a cursor stands, before pairs whose lines fit. -/
structure Follows (reader : PairReader) (cursor : LinePairCursor) : Prop where
  even : reader.index % 2 = 0
  timing : reader.timing = cursor.timing
  pending : reader.pending = cursor.pending
  threshold : reader.threshold = cursor.threshold
  line : reader.line.toInt = cursor.line
  last : reader.last = cursor.last
  fits : LinesFit cursor.timing cursor.line cursor.pending

variable {cursor : LinePairCursor}

/-- The step of a cursor past its first pair is one of the reader. -/
theorem pass_of_follows {width delta : UInt8} {rest : List (UInt8 × UInt8)}
    (follows : reader.Follows cursor) (unread : cursor.pending = (width, delta) :: rest) :
    ∃ next, reader.leave.bind enter = some next ∧ next.Follows
      { cursor with
        pending := rest
        threshold := cursor.threshold + leadingWidth rest
        line := cursor.line + change cursor.timing delta rest } := by
  have pending : reader.pending = (width, delta) :: rest := follows.pending.trans unread
  have lines := follows.fits
  rw [unread] at lines
  obtain ⟨fits, further⟩ := lines
  obtain ⟨-, deltaRead, others⟩ := bytes_of_pending pending
  have leavingFits : LineFits (reader.line.toInt + leaving reader.timing delta) := by
    rw [follows.timing, follows.line]
    cases timing : cursor.timing with
    | afterBytes =>
        rw [timing] at fits
        exact fits
    | ownBytes =>
        rw [leaving, Int.add_zero, ← follows.line]
        exact ⟨reader.line.le_toInt, reader.line.toInt_lt⟩
  obtain ⟨line, left, lineLeft⟩ := lineBehind_of_fits deltaRead leavingFits
  let behind : PairReader := { reader with index := reader.index + 2, line := line }
  have change : behind.line.toInt + entering behind.timing behind.pending =
      cursor.line + change cursor.timing delta rest := by
    rw [PairReader.pending, others, lineLeft, Int.add_assoc, leaving_add_entering, follows.timing,
      follows.line]
  have even : behind.index % 2 = 0 := by
    rw [Nat.add_mod_right]
    exact follows.even
  obtain ⟨lineEntered, same, entered⟩ := enter_of_fits even (change.symm ▸ fits)
  have passed : reader.leave.bind enter = behind.enter := by
    rw [leave, left]
    rfl
  refine ⟨_, passed.trans entered, even, follows.timing, others, ?_, same.trans change,
    follows.last, further⟩
  rw [PairReader.pending, others]
  exact congrArg (· + leadingWidth rest) follows.threshold

theorem advance_of_passed {next : PairReader} {offset : Nat}
    (uncovered : reader.threshold ≤ offset ∧ reader.index < reader.stop)
    (passed : reader.leave.bind enter = some next) :
    reader.advance offset = next.advance offset := by
  rw [advance, if_pos uncovered]
  split
  · next failed =>
      rw [passed] at failed
      cases failed
  · next found =>
      rw [passed] at found
      cases found
      rfl

theorem advance_of_covered {offset : Nat}
    (covered : ¬(reader.threshold ≤ offset ∧ reader.index < reader.stop)) :
    reader.advance offset = some reader := by
  rw [advance, if_neg covered]

/-- A reader goes where a cursor goes. -/
theorem advance_of_follows (offset : Nat) (follows : reader.Follows cursor) :
    ∃ next, reader.advance offset = some next ∧ next.Follows (cursor.advance offset) := by
  induction unread : cursor.pending generalizing reader cursor with
  | nil =>
      have covered : ¬(reader.threshold ≤ offset ∧ reader.index < reader.stop) := by
        rw [index_lt_stop_iff follows.even, follows.pending, unread]
        simp
      have same : cursor.advance offset = cursor := by
        rw [LinePairCursor.advance, unread, LinePairCursor.advanceThrough, ← unread]
      exact ⟨reader, advance_of_covered covered, same.symm ▸ follows⟩
  | cons pair rest induction =>
      rw [LinePairCursor.advance, unread, LinePairCursor.advanceThrough]
      by_cases reached : cursor.threshold ≤ offset
      · obtain ⟨next, passed, nextFollows⟩ := pass_of_follows follows unread
        have uncovered : reader.threshold ≤ offset ∧ reader.index < reader.stop := by
          rw [index_lt_stop_iff follows.even, follows.pending, unread, follows.threshold]
          exact ⟨reached, List.cons_ne_nil pair rest⟩
        rw [if_pos reached, advance_of_passed uncovered passed,
          ← LinePairCursor.advanceThrough_pending _ rest offset rest]
        exact induction nextFollows rfl
      · have covered : ¬(reader.threshold ≤ offset ∧ reader.index < reader.stop) := by
          rw [follows.threshold]
          exact fun both => reached both.1
        rw [if_neg reached, ← unread]
        exact ⟨reader, advance_of_covered covered, follows⟩

/-- A query is refused to both, or answered to both with the same position. -/
theorem get_of_follows (offset : Nat) (follows : reader.Follows cursor) :
    (∃ error, Position.checkOrder cursor.last offset = .error error ∧
      reader.get offset = some (.error error)) ∨
    ∃ position next, cursor.get offset = .ok (position, cursor.moved offset) ∧
      reader.get offset = some (.ok (position, next)) ∧ next.Follows (cursor.moved offset) := by
  rw [get, follows.last]
  cases ordered : Position.checkOrder cursor.last offset with
  | error error => exact .inl ⟨error, rfl, rfl⟩
  | ok accepted =>
      have started : Follows { reader with last := some offset }
          { cursor with last := some offset } := { follows with last := rfl }
      obtain ⟨next, advanced, nextFollows⟩ := advance_of_follows offset started
      rw [LinePairCursor.advance_last] at nextFollows
      refine .inr ⟨_, next, cursor.get_of_ordered ordered, ?_, nextFollows⟩
      simp only [advanced, Option.bind_eq_bind, Option.bind_some, nextFollows.line]
      rfl

/-- A reader answers as a cursor does. -/
theorem answers_of_follows (queries : List Nat) (follows : reader.Follows cursor) :
    reader.answers queries = some ((PositionCursor.linePairs cursor).answers queries) := by
  induction queries generalizing reader cursor with
  | nil => rfl
  | cons offset queries induction =>
      rw [answers, PositionCursor.answers]
      rcases get_of_follows offset follows with
        ⟨error, disordered, refused⟩ | ⟨position, next, expected, answered, nextFollows⟩
      · have late : Position.checkOrder (PositionCursor.linePairs cursor).last offset =
            .error error := disordered
        rw [refused, PositionCursor.get_of_disordered late]
        simp only [Option.bind_eq_bind, Option.bind_some, induction follows,
          PositionCursor.refuses_of_disordered late, if_true]
        rfl
      · rw [answered, PositionCursor.get, expected]
        simp only [Option.bind_eq_bind, Option.bind_some, induction nextFollows]
        rfl

/-- A reader replays what a cursor does, with one round for each entry and one at the end. -/
theorem replay_of_follows {rounds offset : Nat} {entries : List Position}
    (follows : reader.Follows cursor)
    (replayed : cursor.replayFrom offset = .ok entries) (enough : entries.length < rounds) :
    reader.replay rounds offset = some (.ok entries) := by
  induction rounds generalizing reader cursor offset entries with
  | zero => cases enough
  | succ rounds induction =>
      have atEnd : reader.stop ≤ reader.index ↔ cursor.pending = [] := by
        rw [← follows.pending, ← Nat.not_lt, index_lt_stop_iff follows.even, not_not]
      rw [replay]
      by_cases finished : cursor.pending = []
      · rw [LinePairCursor.replayFrom_of_read_all finished] at replayed
        rw [if_pos (atEnd.mpr finished), replayed]
      · rw [if_neg (atEnd.not.mpr finished)]
        rcases get_of_follows offset follows with
          ⟨error, disordered, -⟩ | ⟨position, next, expected, answered, nextFollows⟩
        · rw [LinePairCursor.ordered_of_replayFrom finished replayed] at disordered
          cases disordered
        · obtain ⟨others, rest, same⟩ := LinePairCursor.exists_of_replayFrom finished replayed
          cases same
          have read := induction nextFollows rest (Nat.lt_of_succ_lt_succ enough)
          rw [← nextFollows.threshold] at read
          cases expected.symm.trans
            (cursor.get_of_ordered (LinePairCursor.ordered_of_replayFrom finished replayed))
          rw [answered]
          simp only [Option.bind_eq_bind, Option.bind_some, read]
          rfl

end Bytes

/-- The lines of a table fit if they do behind any number of its first pairs. -/
theorem linesFit_of_steps (timing : PairTiming) {line : Int} {data : Bytes}
    (fit : ∀ passed ≤ LinePairs.count data,
      LineFits (line + ∑ index ∈ Finset.range passed, LinePairs.step timing data index)) :
    LinesFit timing line (LinePairs.pairs data) := by
  induction data using LinePairs.pairs.induct generalizing line with
  | case1 width delta rest induction =>
      rw [LinePairs.count_cons_cons] at fit
      rw [LinePairs.pairs, LinesFit, LinePairs.change_pairs timing width]
      refine ⟨?_, induction ?_⟩
      · have first := fit 1 (Nat.succ_le_succ (Nat.zero_le _))
        rwa [Finset.sum_range_one] at first
      · intro passed limit
        have further := fit (passed + 1) (Nat.succ_le_succ limit)
        rw [Finset.sum_range_succ', Int.add_comm (Finset.sum _ _), ← Int.add_assoc] at further
        exact further
  | case2 data short =>
      rw [LinePairs.pairs]
      · exact trivial
      · exact short

/-- A reader starts where a cursor does. -/
theorem start_of_fits (timing : PairTiming) (firstLine : Int32) (data : Bytes)
    (fit : ∀ passed ≤ LinePairs.count data,
      LineFits (LinePairs.lineAfter timing firstLine.toInt data passed)) :
    ∃ reader, start timing firstLine data = some reader ∧
      reader.Follows (LinePairCursor.start timing firstLine.toInt data) := by
  have always : ∀ passed, LineFits (LinePairs.lineAfter timing firstLine.toInt data passed) := by
    intro passed
    rcases Nat.le_total passed (LinePairs.count data) with within | beyond
    · exact fit passed within
    · rw [LinePairs.lineAfter_of_count_le timing firstLine.toInt beyond]
      exact fit _ (Nat.le_refl _)
  have line : (LinePairCursor.start timing firstLine.toInt data).line =
      firstLine.toInt + entering timing (LinePairs.pairs data) := by
    cases timing with
    | afterBytes => exact (Int.add_zero _).symm
    | ownBytes => rfl
  have entered : LineFits (firstLine.toInt + entering timing (LinePairs.pairs data)) := by
    rw [← line]
    have steps := LinePairCursor.line_start_add_steps timing firstLine.toInt data 0
    rw [Finset.range_zero, Finset.sum_empty, Int.add_zero] at steps
    rw [steps]
    exact always _
  have fits : LinesFit timing (LinePairCursor.start timing firstLine.toInt data).line
      (LinePairs.pairs data) := by
    apply linesFit_of_steps
    intro passed _
    rw [LinePairCursor.line_start_add_steps]
    exact always _
  obtain ⟨lineEntered, same, started⟩ :=
    @enter_of_fits ⟨timing, data, 0, 0, firstLine, none⟩ rfl entered
  exact ⟨_, started, rfl, rfl, rfl, Nat.zero_add _, same.trans line.symm, rfl, fits⟩

end PairReader

/-- The encoding of a position table whose changes of line count at some time. -/
def PairTiming.format : PairTiming → PositionFormat
  | .afterBytes => .lineDeltas
  | .ownBytes => .lineRanges

theorem PositionCursor.start_format (timing : PairTiming) (firstLine : Int32) (data : Bytes) :
    start ⟨timing.format, firstLine, data⟩ = .linePairs (.start timing firstLine.toInt data) := by
  cases timing <;> rfl

theorem PositionCursor.seek_format (timing : PairTiming) (firstLine : Int32) (data : Bytes)
    (offset : Nat) : (start ⟨timing.format, firstLine, data⟩).seek offset =
      .ok (.ofLine ((LinePairCursor.start timing firstLine.toInt data).advance offset).line) := by
  rw [start_format]
  rfl

/-- How tables of line pairs are read. -/
structure LinePairReading : Prop where
  /-- A position of a line tells nothing else. -/
  lines : ∀ line : Int, Span.ofLine line = ⟨line, -1, -1, -1⟩
  /-- A change of line is a byte in two's complement; in a table of line ranges, 128 is none. -/
  changes : ∀ byte : UInt8, LinePairs.lineDelta byte = byte.toInt8.toInt ∧
    LinePairs.rangeDelta byte = if byte = 128 then 0 else byte.toInt8.toInt
  /-- In a table of line deltas the changes of all pairs that end up to an offset count there. -/
  lineDeltas : ∀ (firstLine : Int32) (data : Bytes) (queries : List Nat),
    queries.Pairwise (· ≤ ·) →
      (PositionCursor.start ⟨.lineDeltas, firstLine, data⟩).answers queries =
        queries.map fun offset => .ok ⟨offset, .ofLine (firstLine.toInt +
          ∑ index ∈ Finset.range (LinePairs.count data) with LinePairs.reach data index ≤ offset,
            LinePairs.lineDelta (LinePairs.delta data index))⟩
  /-- In a table of line ranges those of the first pair and of all behind such pairs count there. -/
  lineRanges : ∀ (firstLine : Int32) (data : Bytes) (queries : List Nat),
    queries.Pairwise (· ≤ ·) →
      (PositionCursor.start ⟨.lineRanges, firstLine, data⟩).answers queries =
        queries.map fun offset => .ok ⟨offset, .ofLine (firstLine.toInt +
          ∑ index ∈ Finset.range (LinePairs.count data) with
            index = 0 ∨ LinePairs.reach data (index - 1) ≤ offset,
            LinePairs.rangeDelta (LinePairs.delta data index))⟩
  /-- At every offset the same pairs are passed in both, and in the latter one more counts. -/
  oneStep : ∀ (firstLine : Int32) (data : Bytes) (offset : Nat),
    ∃ passed ≤ LinePairs.count data,
      (∀ index < LinePairs.count data, LinePairs.reach data index ≤ offset ↔ index < passed) ∧
      (PositionCursor.start ⟨.lineDeltas, firstLine, data⟩).seek offset =
        .ok (.ofLine (LinePairs.lineAfter .afterBytes firstLine.toInt data passed)) ∧
      (PositionCursor.start ⟨.lineRanges, firstLine, data⟩).seek offset =
        .ok (.ofLine (LinePairs.lineAfter .ownBytes firstLine.toInt data
          (min (passed + 1) (LinePairs.count data))))
  /-- There are entries for each pair and one more at most, and the last one is behind all pairs. -/
  entries : ∀ (timing : PairTiming) (firstLine : Int32) (data : Bytes), ∃ entries,
    PositionTable.positions ⟨timing.format, firstLine, data⟩ = .ok entries ∧
    entries.length ≤ LinePairs.count data + 1 ∧
    (1 ≤ LinePairs.count data → ∃ last, entries.getLast? = some last ∧
      last.span = .ofLine
        (LinePairs.lineAfter timing firstLine.toInt data (LinePairs.count data)))
  /--
  As long as the lines fit, no index is past the end of the table on the way to any answers and to
  the entries, which take a round for each pair and two more at most.
  -/
  indices : ∀ (timing : PairTiming) (firstLine : Int32) (data : Bytes),
    (∀ passed ≤ LinePairs.count data,
      LineFits (LinePairs.lineAfter timing firstLine.toInt data passed)) →
    ∃ reader, PairReader.start timing firstLine data = some reader ∧
      (∀ queries, reader.answers queries =
        some ((PositionCursor.start ⟨timing.format, firstLine, data⟩).answers queries)) ∧
      reader.replay (LinePairs.count data + 2) 0 =
        some (PositionTable.positions ⟨timing.format, firstLine, data⟩)

/-- Both tables of line pairs tell lines as sums of changes, one pair apart. -/
theorem linePairReading : LinePairReading where
  lines line := rfl
  changes byte := ⟨LinePairs.lineDelta_eq byte, LinePairs.rangeDelta_eq byte⟩
  lineDeltas firstLine data queries sorted := by
    apply PositionTable.answers_of_sorted sorted
    intro offset
    rw [← LinePairCursor.line_afterBytes]
    exact PositionCursor.seek_format .afterBytes firstLine data offset
  lineRanges firstLine data queries sorted := by
    apply PositionTable.answers_of_sorted sorted
    intro offset
    rw [← LinePairCursor.line_ownBytes]
    exact PositionCursor.seek_format .ownBytes firstLine data offset
  oneStep firstLine data offset := by
    obtain ⟨passed, limit, reached⟩ :=
      LinePairs.exists_passed data offset (LinePairs.count data)
    refine ⟨passed, limit, reached, ?_, ?_⟩
    · have line := LinePairCursor.line_of_passed .afterBytes firstLine.toInt limit reached
      rw [← Nat.add_zero passed, ← LinePairs.ahead, ← line]
      exact PositionCursor.seek_format .afterBytes firstLine data offset
    · have line := LinePairCursor.line_of_passed .ownBytes firstLine.toInt limit reached
      rw [LinePairs.ahead] at line
      rw [LinePairs.lineAfter_min, ← line]
      exact PositionCursor.seek_format .ownBytes firstLine data offset
  entries timing firstLine data := by
    obtain ⟨entries, replayed, -⟩ := LinePairCursor.replayFrom_zero timing firstLine.toInt data
    refine ⟨entries, ?_, ?_, fun nonempty => ?_⟩
    · rw [PositionTable.positions, PositionCursor.start_format]
      exact replayed
    · exact LinePairCursor.length_replayFrom_start replayed
    · exact LinePairCursor.replayFrom_last timing firstLine.toInt nonempty replayed
  indices timing firstLine data fit := by
    obtain ⟨reader, started, follows⟩ := PairReader.start_of_fits timing firstLine data fit
    obtain ⟨entries, replayed, -⟩ := LinePairCursor.replayFrom_zero timing firstLine.toInt data
    have length := LinePairCursor.length_replayFrom_start replayed
    refine ⟨reader, started, fun queries => ?_, ?_⟩
    · rw [PositionCursor.start_format]
      exact PairReader.answers_of_follows queries follows
    · rw [PositionTable.positions, PositionCursor.start_format,
        PairReader.replay_of_follows follows replayed (Nat.lt_succ_of_le length)]
      exact congrArg some replayed.symm

/-- A line that does not fit is noticed by the reader. -/
example : (PairReader.start .afterBytes 2147483647 [2, 1]).bind (·.answers [0, 2]) = none := by
  cbv

end CodeScope

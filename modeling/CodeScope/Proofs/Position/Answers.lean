import CodeScope.Proofs.Position.Entries

/-!
# Answers of a position table

The answers that a cursor gives to any queries are those that its table gives at once: at each
offset the place of the last entry that starts there or before. The entries of a malformed location
table tell the place up to the end of the last of them.
-/

namespace CodeScope
namespace LinePairCursor

theorem replayFrom_zero (timing : PairTiming) (firstLine : Int) (data : Bytes) :
    ∃ entries, (start timing firstLine data).replayFrom 0 = .ok entries ∧
      (∀ position ∈ entries.head?, position.offset = 0) ∧
      entries.Pairwise (fun earlier later => earlier.offset < later.offset) ∧
      ∀ offset, Position.spanAt (.ofLine firstLine) entries offset =
        .ofLine ((start timing firstLine data).advance offset).line := by
  by_cases finished : (start timing firstLine data).pending = []
  · refine ⟨[], replayFrom_of_read_all finished, by simp, List.Pairwise.nil, ?_⟩
    intro offset
    have empty : LinePairs.pairs data = [] := finished
    rw [advance_of_read_all finished]
    cases timing with
    | afterBytes => rfl
    | ownBytes =>
        simp only [start, empty, LinePairs.leadingDelta, Int.add_zero]
        rfl
  · obtain ⟨rest, replayed, after, increasing, agrees⟩ :=
      replayFrom_spec finished (show Position.checkOrder none 0 = .ok () from rfl)
    refine ⟨_, replayed, ?_, List.Pairwise.cons after increasing, ?_⟩
    · intro position same
      cases same
      rfl
    · intro offset
      rw [Position.spanAt_cons (Nat.zero_le offset)]
      exact agrees offset (Nat.zero_le offset)

end LinePairCursor

namespace PositionTable

/-- The positions of a table up to the first malformed entry. -/
def decoded (table : PositionTable) : Decoded Position :=
  match PositionCursor.start table with
  | .linePairs cursor =>
      match cursor.replayFrom 0 with
      | .ok entries => ⟨entries, none⟩
      | .error error => ⟨[], some error⟩
  | .locations cursor => ⟨cursor.replay.entries.map LocationRange.position, cursor.replay.fault⟩

/-- The ranges of code words that the entries of a location table cover. -/
def ranges (table : PositionTable) : List LocationRange :=
  match PositionCursor.start table with
  | .linePairs _ => []
  | .locations cursor => cursor.replay.entries

/-- Number of code words that these ranges cover. -/
def covered (table : PositionTable) : Nat :=
  (table.ranges.getLast?.map LocationRange.stop).getD 0

/-- The place at an offset: that of the last entry there or before, or else the first line. -/
def spanAt (table : PositionTable) (offset : Nat) : Span :=
  Position.spanAt (.ofLine table.firstLine.toInt) table.decoded.entries offset

/-- The place at an offset, if it is not past the entries before a malformed one. -/
def find (table : PositionTable) (offset : Nat) : Except Error Span :=
  match table.decoded.fault with
  | none => .ok (table.spanAt offset)
  | some error => if offset < 2 * table.covered then .ok (table.spanAt offset) else .error error

/--
The answers to queries, given the last offset that was accepted. Nothing is left of the queries
before but that offset.
-/
def expected (table : PositionTable) : Option Nat → List Nat → List (Except Error Position)
  | _, [] => []
  | last, offset :: queries =>
      match Position.checkOrder last offset with
      | .error error => .error error :: expected table last queries
      | .ok () =>
          match table.find offset with
          | .ok span => .ok ⟨offset, span⟩ :: expected table (some offset) queries
          | .error error => [.error error]

/-- What the entries of a table are, and that a cursor at its start finds what they tell. -/
structure Coherent (table : PositionTable) : Prop where
  positions : table.positions = table.decoded.toExcept
  format : table.decoded.fault ≠ none → table.format = .locations
  head : ∀ position ∈ table.decoded.entries.head?, position.offset = 0
  increasing : table.decoded.entries.Pairwise fun earlier later => earlier.offset < later.offset
  entries : table.format = .locations →
    table.decoded.entries = table.ranges.map LocationRange.position
  covers : ∀ word,
    word < table.covered ↔ ∃ range ∈ table.ranges, range.start ≤ word ∧ word < range.stop
  seek : ∀ offset, (PositionCursor.start table).seek offset = table.find offset

variable {table : PositionTable}

theorem coherent_of_linePairs {timing : PairTiming} (format : table.format ≠ .locations)
    (started : PositionCursor.start table =
      .linePairs (.start timing table.firstLine.toInt table.data)) : table.Coherent := by
  obtain ⟨entries, replayed, head, increasing, agrees⟩ :=
    LinePairCursor.replayFrom_zero timing table.firstLine.toInt table.data
  have decoded : table.decoded = ⟨entries, none⟩ := by
    simp only [PositionTable.decoded, started, replayed]
  have ranges : table.ranges = [] := by
    simp only [PositionTable.ranges, started]
  constructor
  · rw [decoded]
    simp only [PositionTable.positions, started, replayed]
    rfl
  · intro faulty
    rw [decoded] at faulty
    exact absurd rfl faulty
  · rw [decoded]
    exact head
  · rw [decoded]
    exact increasing
  · intro same
    exact absurd same format
  · intro word
    simp [covered, ranges]
  · intro offset
    rw [find, spanAt, decoded, started, agrees offset]
    rfl

theorem coherent_of_locations {cursor : LocationCursor} (format : table.format = .locations)
    (started : PositionCursor.start table = .locations cursor) (stop : cursor.stop = 0)
    (span : cursor.span = .ofLine table.firstLine.toInt) : table.Coherent := by
  have tiles := LocationCursor.tiles_replay cursor
  have decoded : table.decoded =
      ⟨cursor.replay.entries.map LocationRange.position, cursor.replay.fault⟩ := by
    simp only [PositionTable.decoded, started]
  have ranges : table.ranges = cursor.replay.entries := by
    simp only [PositionTable.ranges, started]
  have covered : table.covered = cursor.reach := by
    rw [PositionTable.covered, ranges, LocationCursor.reach, stop]
  constructor
  · rw [decoded]
    simp only [PositionTable.positions, started, Decoded.toExcept]
    cases cursor.replay.fault with
    | none => rfl
    | some error => rfl
  · intro faulty
    exact format
  · intro position same
    rw [decoded] at same
    rw [tiles.head same, stop]
  · rw [decoded]
    refine List.Pairwise.map _ ?_ tiles.pairwise
    intro earlier later before
    exact Nat.mul_lt_mul_of_pos_left before Nat.two_pos
  · intro _
    rw [decoded, ranges]
  · intro word
    rw [covered, ranges, ← tiles.covers, stop]
    simp
  · intro offset
    have spec := LocationCursor.advance_spec cursor offset
    rw [find, spanAt, decoded, started, covered, ← span]
    rcases spec with ⟨told, found⟩ | ⟨untold, error, faulty, failed⟩
    · rw [PositionCursor.seek, found]
      cases fault : cursor.replay.fault with
      | none => rfl
      | some error =>
          rcases told with sound | before
          · rw [fault] at sound
            cases sound
          · have inside : offset < 2 * cursor.reach := by
              omega
            simp only [inside, if_true]
    · have outside : ¬offset < 2 * cursor.reach := by
        omega
      rw [PositionCursor.seek, failed, faulty]
      simp only [outside, if_false]
      rfl

theorem coherent (table : PositionTable) : table.Coherent := by
  cases format : table.format with
  | lineDeltas =>
      have started : PositionCursor.start table =
          .linePairs (.start .afterBytes table.firstLine.toInt table.data) := by
        simp only [PositionCursor.start, format]
      exact coherent_of_linePairs (by simp [format]) started
  | lineRanges =>
      have started : PositionCursor.start table =
          .linePairs (.start .ownBytes table.firstLine.toInt table.data) := by
        simp only [PositionCursor.start, format]
      exact coherent_of_linePairs (by simp [format]) started
  | locations =>
      have started : PositionCursor.start table =
          .locations (.start table.firstLine.toInt table.data) := by
        simp only [PositionCursor.start, format]
      exact coherent_of_locations format started rfl rfl

/-- A cursor that finds what its table tells from its last query on answers as expected. -/
theorem answers_of_seek {cursor : PositionCursor} (queries : List Nat)
    (sought : ∀ offset, Position.checkOrder cursor.last offset = .ok () →
      cursor.seek offset = table.find offset) :
    cursor.answers queries = table.expected cursor.last queries := by
  induction queries generalizing cursor with
  | nil => rfl
  | cons offset queries induction =>
      rw [PositionCursor.answers, expected]
      generalize answered : cursor.get offset = answer
      have answers := PositionCursor.answers_get cursor offset
      rw [answered] at answers
      cases answers with
      | refused disordered =>
          have late := PositionCursor.refuses_of_disordered disordered
          rw [disordered]
          simp only [late, if_true]
          rw [induction sought]
      | failed ordered lost =>
          have timely := PositionCursor.refuses_of_ordered ordered
          rw [sought offset ordered] at lost
          rw [ordered]
          simp only [lost, timely]
          rfl
      | @found span next ordered here last kept =>
          rw [sought offset ordered] at here
          rw [ordered]
          simp only [here]
          rw [← last, induction]
          intro later orderedLater
          have reached : offset ≤ later := by
            rw [last] at orderedLater
            exact Position.le_of_ordered orderedLater
          rw [kept later reached]
          exact sought later (Position.ordered_trans ordered reached)

/-- The answers to any queries are what the entries of the table tell. -/
theorem answers_of_entries (table : PositionTable) :
    table.Coherent ∧
      ∀ queries, (PositionCursor.start table).answers queries = table.expected none queries := by
  refine ⟨coherent table, ?_⟩
  intro queries
  rw [answers_of_seek queries, PositionCursor.last_start]
  intro offset ordered
  exact (coherent table).seek offset

/-- The second query is refused, and the third is answered as if it had not been made. -/
example :
    (PositionCursor.start ⟨.lineDeltas, 3, [2, 1, 2, 255]⟩).answers [1, 0, 2, 5] =
      [.ok ⟨1, .ofLine 3⟩, .error (.positionRewind 0 1), .ok ⟨2, .ofLine 4⟩,
        .ok ⟨5, .ofLine 3⟩] := by
  rfl

end PositionTable
end CodeScope

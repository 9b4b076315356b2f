import CodeScope.Position.Table

/-!
# Seeking in a position table

A cursor that has moved to an offset finds at every later offset what a cursor that has not moved
finds there. The answers to queries whose offsets do not decrease therefore depend on the table
alone, not on the queries before.
-/

namespace CodeScope
namespace Position

variable {last : Option Nat} {offset later : Nat}

theorem le_of_ordered (ordered : checkOrder (some offset) later = .ok ()) : offset ≤ later := by
  rw [checkOrder] at ordered
  split at ordered
  · cases ordered
  · next reached => exact Nat.le_of_not_lt reached

theorem ordered_of_le (reached : offset ≤ later) : checkOrder (some offset) later = .ok () := by
  rw [checkOrder, if_neg (Nat.not_lt_of_le reached)]

theorem ordered_trans (ordered : checkOrder last offset = .ok ()) (reached : offset ≤ later) :
    checkOrder last later = .ok () := by
  cases last with
  | none => rfl
  | some current => exact ordered_of_le (Nat.le_trans (le_of_ordered ordered) reached)

end Position

namespace LinePairCursor

variable (cursor : LinePairCursor) (pairs : List (UInt8 × UInt8))

theorem advanceThrough_pending (offset : Nat) (pending : List (UInt8 × UInt8)) :
    advanceThrough offset { cursor with pending := pending } pairs =
      advanceThrough offset cursor pairs := by
  induction pairs generalizing cursor with
  | nil => rfl
  | cons pair rest induction =>
      simp only [advanceThrough]
      split
      · exact induction { cursor with
          threshold := cursor.threshold + LinePairs.leadingWidth rest
          line := cursor.line + LinePairs.change cursor.timing pair.2 rest }
      · rfl

theorem advanceThrough_last (offset : Nat) (last : Option Nat) :
    advanceThrough offset { cursor with last := last } pairs =
      { advanceThrough offset cursor pairs with last := last } := by
  induction pairs generalizing cursor with
  | nil => rfl
  | cons pair rest induction =>
      simp only [advanceThrough]
      split
      · exact induction { cursor with
          threshold := cursor.threshold + LinePairs.leadingWidth rest
          line := cursor.line + LinePairs.change cursor.timing pair.2 rest }
      · rfl

theorem advance_last (offset : Nat) (last : Option Nat) :
    { cursor with last := last }.advance offset = { cursor.advance offset with last := last } :=
  advanceThrough_last cursor cursor.pending offset last

/-- Pairs that end at an offset or before it end before every later offset. -/
theorem advance_advanceThrough {offset later : Nat} (ordered : offset ≤ later) :
    (advanceThrough offset cursor pairs).advance later = advanceThrough later cursor pairs := by
  induction pairs generalizing cursor with
  | nil => rfl
  | cons pair rest induction =>
      rw [advanceThrough]
      split
      · next reached =>
          rw [induction, advanceThrough, if_pos (Nat.le_trans reached ordered)]
      · exact advanceThrough_pending cursor (pair :: rest) later (pair :: rest)

theorem advance_advance {offset later : Nat} (ordered : offset ≤ later) :
    (cursor.advance offset).advance later = cursor.advance later :=
  advance_advanceThrough cursor cursor.pending ordered

/-- The cursor after a query that is answered. -/
def moved (offset : Nat) : LinePairCursor :=
  { cursor.advance offset with last := some offset }

theorem advance_moved {offset later : Nat} (reached : offset ≤ later) :
    ((cursor.moved offset).advance later).line = (cursor.advance later).line := by
  rw [moved, advance_last, advance_advance cursor reached]

theorem get_of_ordered {offset : Nat}
    (ordered : Position.checkOrder cursor.last offset = .ok ()) :
    cursor.get offset =
      .ok (⟨offset, .ofLine (cursor.advance offset).line⟩, cursor.moved offset) := by
  simp only [get, ordered, bind, Except.bind, pure, Except.pure, advance_last, moved]

end LinePairCursor

namespace LocationCursor

variable {cursor next : LocationCursor}

theorem readEntry_last (cursor : LocationCursor) (last : Option Nat) :
    { cursor with last := last }.readEntry =
      (fun result => (result.1, { result.2 with last := last })) <$> cursor.readEntry := by
  simp only [readEntry, Functor.map, Except.map, bind, Except.bind]
  cases LocationEntry.scan cursor.rest with
  | error error => rfl
  | ok result => rfl

theorem advance_of_covered {offset : Nat}
    (covered : ¬(cursor.stop ≤ offset / 2 ∧ ¬cursor.rest.isEmpty)) :
    cursor.advance offset = .ok cursor := by
  rw [advance, if_neg covered]

theorem advance_of_read {offset : Nat} {range : LocationRange}
    (uncovered : cursor.stop ≤ offset / 2 ∧ ¬cursor.rest.isEmpty)
    (read : cursor.readEntry = .ok (range, next)) :
    cursor.advance offset = next.advance offset := by
  rw [advance, if_pos uncovered]
  split
  · next error failed =>
      rw [read] at failed
      cases failed
  · next range other found =>
      rw [read] at found
      cases found
      rfl

theorem advance_of_failed {offset : Nat} {error : Error}
    (uncovered : cursor.stop ≤ offset / 2 ∧ ¬cursor.rest.isEmpty)
    (failed : cursor.readEntry = .error error) : cursor.advance offset = .error error := by
  rw [advance, if_pos uncovered]
  split
  · next other found =>
      rw [failed] at found
      cases found
      rfl
  · next range next found =>
      rw [failed] at found
      cases found

theorem advance_last (cursor : LocationCursor) (offset : Nat) (last : Option Nat) :
    { cursor with last := last }.advance offset =
      (fun next => { next with last := last }) <$> cursor.advance offset := by
  induction remaining : cursor.rest.remaining using Nat.strongRecOn generalizing cursor with
  | ind count induction =>
      by_cases uncovered : cursor.stop ≤ offset / 2 ∧ ¬cursor.rest.isEmpty
      · have moved := readEntry_last cursor last
        cases read : cursor.readEntry with
        | error error =>
            rw [read] at moved
            rw [advance_of_failed uncovered read]
            exact advance_of_failed uncovered moved
        | ok result =>
            rw [read] at moved
            have shorter := readEntry_shortens read
            rw [advance_of_read uncovered read]
            have step : { cursor with last := last }.advance offset =
                { result.2 with last := last }.advance offset := advance_of_read uncovered moved
            rw [step]
            exact induction _ (remaining ▸ shorter) result.2 rfl
      · rw [advance_of_covered uncovered]
        exact advance_of_covered uncovered

theorem advance_advance {offset later : Nat} (ordered : offset ≤ later)
    (advanced : cursor.advance offset = .ok next) : next.advance later = cursor.advance later := by
  induction remaining : cursor.rest.remaining using Nat.strongRecOn generalizing cursor with
  | ind count induction =>
      by_cases uncovered : cursor.stop ≤ offset / 2 ∧ ¬cursor.rest.isEmpty
      · cases read : cursor.readEntry with
        | error error =>
            rw [advance_of_failed uncovered read] at advanced
            cases advanced
        | ok result =>
            have shorter := readEntry_shortens read
            rw [advance_of_read uncovered read] at advanced
            have stillUncovered : cursor.stop ≤ later / 2 ∧ ¬cursor.rest.isEmpty :=
              ⟨Nat.le_trans uncovered.1 (Nat.div_le_div_right ordered), uncovered.2⟩
            rw [advance_of_read stillUncovered read]
            exact induction _ (remaining ▸ shorter) advanced rfl
      · rw [advance_of_covered uncovered] at advanced
        cases advanced
        rfl

theorem get_of_ordered {offset : Nat}
    (ordered : Position.checkOrder cursor.last offset = .ok ()) :
    cursor.get offset =
      (fun next => (⟨offset, next.span⟩, { next with last := some offset })) <$>
        cursor.advance offset := by
  simp only [get, ordered, advance_last]
  cases cursor.advance offset with
  | error error => rfl
  | ok next => rfl

end LocationCursor

namespace PositionCursor

/-- Offset of the last query. -/
def last : PositionCursor → Option Nat
  | linePairs cursor => cursor.last
  | locations cursor => cursor.last

/-- The place in the source that a cursor finds at an offset. -/
def seek (cursor : PositionCursor) (offset : Nat) : Except Error Span :=
  match cursor with
  | linePairs cursor => .ok (.ofLine (cursor.advance offset).line)
  | locations cursor => LocationCursor.span <$> cursor.advance offset

/-- A query is refused, or fails where seeking does, or finds what seeking does. -/
inductive Answers (cursor : PositionCursor) (offset : Nat) :
    Except Error (Position × PositionCursor) → Prop
  | refused {error : Error} (disordered : Position.checkOrder cursor.last offset = .error error) :
      Answers cursor offset (.error error)
  | failed {error : Error} (ordered : Position.checkOrder cursor.last offset = .ok ())
      (lost : cursor.seek offset = .error error) : Answers cursor offset (.error error)
  | found {span : Span} {next : PositionCursor}
      (ordered : Position.checkOrder cursor.last offset = .ok ())
      (sought : cursor.seek offset = .ok span) (last : next.last = some offset)
      (kept : ∀ later, offset ≤ later → next.seek later = cursor.seek later) :
      Answers cursor offset (.ok (⟨offset, span⟩, next))

variable {cursor : PositionCursor} {offset : Nat}

theorem get_of_disordered {error : Error}
    (disordered : Position.checkOrder cursor.last offset = .error error) :
    cursor.get offset = .error error := by
  cases cursor with
  | linePairs cursor =>
      have late : Position.checkOrder cursor.last offset = .error error := disordered
      simp only [get, LinePairCursor.get, late, bind, Except.bind]
  | locations cursor =>
      have late : Position.checkOrder cursor.last offset = .error error := disordered
      simp only [get, LocationCursor.get, late, bind, Except.bind]

theorem answers_get (cursor : PositionCursor) (offset : Nat) :
    Answers cursor offset (cursor.get offset) := by
  cases ordered : Position.checkOrder cursor.last offset with
  | error error =>
      rw [get_of_disordered ordered]
      exact .refused ordered
  | ok accepted =>
      cases cursor with
      | linePairs cursor =>
          have answered := LinePairCursor.get_of_ordered cursor ordered
          rw [get, answered]
          apply Answers.found ordered rfl rfl
          intro later reached
          simp only [seek, LinePairCursor.advance_moved cursor reached]
      | locations cursor =>
          have answered := LocationCursor.get_of_ordered ordered
          rw [get, answered]
          cases advanced : cursor.advance offset with
          | error error =>
              apply Answers.failed ordered
              rw [seek, advanced]
              rfl
          | ok next =>
              have sought : (locations cursor).seek offset = .ok next.span := by
                rw [seek, advanced]
                rfl
              apply Answers.found ordered sought rfl
              intro later reached
              rw [seek, seek, LocationCursor.advance_last,
                LocationCursor.advance_advance reached advanced]
              cases cursor.advance later with
              | error error => rfl
              | ok final => rfl

theorem get_of_lost {error : Error} (ordered : Position.checkOrder cursor.last offset = .ok ())
    (lost : cursor.seek offset = .error error) : cursor.get offset = .error error := by
  have answers := answers_get cursor offset
  generalize cursor.get offset = answer at answers ⊢
  cases answers with
  | refused disordered =>
      rw [ordered] at disordered
      cases disordered
  | failed _ same =>
      rw [lost] at same
      cases same
      rfl
  | found _ sought _ _ =>
      rw [lost] at sought
      cases sought

theorem get_of_sought {span : Span} (ordered : Position.checkOrder cursor.last offset = .ok ())
    (sought : cursor.seek offset = .ok span) :
    ∃ next, cursor.get offset = .ok (⟨offset, span⟩, next) ∧ next.last = some offset ∧
      ∀ later, offset ≤ later → next.seek later = cursor.seek later := by
  have answers := answers_get cursor offset
  generalize cursor.get offset = answer at answers ⊢
  cases answers with
  | refused disordered =>
      rw [ordered] at disordered
      cases disordered
  | failed _ lost =>
      rw [sought] at lost
      cases lost
  | @found _ next _ same last kept =>
      rw [sought] at same
      cases same
      exact ⟨next, rfl, last, kept⟩

theorem offset_of_get {position : Position} {next : PositionCursor}
    (answered : cursor.get offset = .ok (position, next)) : position.offset = offset := by
  have answers := answers_get cursor offset
  rw [answered] at answers
  cases answers with
  | found _ _ _ _ => rfl

theorem last_start (table : PositionTable) : (start table).last = none := by
  rw [start]
  cases table.format with
  | lineDeltas => rfl
  | lineRanges => rfl
  | locations => rfl

theorem ordered_start (table : PositionTable) (offset : Nat) :
    Position.checkOrder (start table).last offset = .ok () := by
  rw [last_start]
  rfl

/-- A query comes too late if its offset is before that of the last one. -/
def refuses (cursor : PositionCursor) (offset : Nat) : Bool :=
  cursor.last.any fun last => decide (offset < last)

theorem refuses_of_disordered {error : Error}
    (disordered : Position.checkOrder cursor.last offset = .error error) :
    cursor.refuses offset = true := by
  rw [refuses]
  cases last : cursor.last with
  | none =>
      rw [last] at disordered
      cases disordered
  | some current =>
      rw [last, Position.checkOrder] at disordered
      split at disordered
      · next before => simpa using before
      · cases disordered

theorem refuses_of_ordered (ordered : Position.checkOrder cursor.last offset = .ok ()) :
    cursor.refuses offset = false := by
  rw [refuses]
  cases last : cursor.last with
  | none => rfl
  | some current =>
      rw [last] at ordered
      have reached := Position.le_of_ordered ordered
      simpa using reached

/--
The answers of a cursor to some queries. A query that is refused leaves the cursor as it is; the
first one that cannot be answered because of the table is the last one.
-/
def answers : PositionCursor → List Nat → List (Except Error Position)
  | _, [] => []
  | cursor, offset :: queries =>
      match cursor.get offset with
      | .ok (position, next) => .ok position :: answers next queries
      | .error error =>
          .error error :: if cursor.refuses offset then answers cursor queries else []

end PositionCursor
end CodeScope

import CodeScope.Bytes.Cursor
import CodeScope.Position.Basic

/-!
# Tables of line pairs

Before columns were recorded, a position table was a sequence of pairs: a number of code bytes and
a signed change of the line. In a table of line deltas the change of a pair counts from the end of
its bytes on. In a table of line ranges it counts for its own bytes; the byte 128 marks bytes
without a line, which keep the line before them.
-/

namespace CodeScope

/-- When the change of line of a pair counts. -/
inductive PairTiming where
  /-- From the end of the bytes of the pair on. -/
  | afterBytes
  /-- For the bytes of the pair. -/
  | ownBytes
  deriving DecidableEq, Repr

namespace LinePairs

/-- The bytes of a table in pairs. A byte without partner is left out. -/
def pairs : Bytes → List (UInt8 × UInt8)
  | width :: delta :: rest => (width, delta) :: pairs rest
  | _ => []

/-- The change of line that a byte of a table of line deltas writes, in two's complement. -/
def lineDelta (byte : UInt8) : Int :=
  if byte.toNat < 128 then byte.toNat else byte.toNat - 256

/-- The change of line that a byte of a table of line ranges writes. -/
def rangeDelta (byte : UInt8) : Int :=
  if byte.toNat = 128 then 0 else lineDelta byte

/-- Number of code bytes of the first of some pairs. -/
def leadingWidth : List (UInt8 × UInt8) → Nat
  | [] => 0
  | (width, _) :: _ => width.toNat

/-- The change of line of the first of some pairs in a table of line ranges. -/
def leadingDelta : List (UInt8 × UInt8) → Int
  | [] => 0
  | (_, delta) :: _ => rangeDelta delta

/-- The change of line between a pair with a delta and the pairs after it. -/
def change : PairTiming → UInt8 → List (UInt8 × UInt8) → Int
  | .afterBytes, delta, _ => lineDelta delta
  | .ownBytes, _, rest => leadingDelta rest

end LinePairs

/-- A place in a table of line pairs. -/
structure LinePairCursor where
  /-- When changes of line count. -/
  timing : PairTiming
  /-- The pair that covers the place, and the pairs after it. -/
  pending : List (UInt8 × UInt8)
  /-- Offset of the code after the bytes of that pair. -/
  threshold : Nat
  /-- Line at the place. -/
  line : Int
  /-- Offset of the last query. -/
  last : Option Nat
  deriving Repr

namespace LinePairCursor

/-- The place before the first query. -/
def start (timing : PairTiming) (firstLine : Int) (data : Bytes) : LinePairCursor :=
  let pairs := LinePairs.pairs data
  { timing
    pending := pairs
    threshold := LinePairs.leadingWidth pairs
    line := match timing with
      | .afterBytes => firstLine
      | .ownBytes => firstLine + LinePairs.leadingDelta pairs
    last := none }

/--
Go on through pairs that end at an offset or before it, with a cursor that is past the others.
-/
def advanceThrough (offset : Nat) (cursor : LinePairCursor) :
    List (UInt8 × UInt8) → LinePairCursor
  | [] => { cursor with pending := [] }
  | (width, delta) :: rest =>
      if cursor.threshold ≤ offset then
        advanceThrough offset
          { cursor with
            threshold := cursor.threshold + LinePairs.leadingWidth rest
            line := cursor.line + LinePairs.change cursor.timing delta rest }
          rest
      else
        { cursor with pending := (width, delta) :: rest }

/-- The cursor after the pairs that end at an offset or before it. -/
def advance (cursor : LinePairCursor) (offset : Nat) : LinePairCursor :=
  advanceThrough offset cursor cursor.pending

/-- The position at an offset. A query before the last one is refused. -/
def get (cursor : LinePairCursor) (offset : Nat) : Except Error (Position × LinePairCursor) := do
  Position.checkOrder cursor.last offset
  let next := { cursor with last := some offset }.advance offset
  return (⟨offset, .ofLine next.line⟩, next)

theorem advanceThrough_pending_le (offset : Nat) (cursor : LinePairCursor)
    (pairs : List (UInt8 × UInt8)) :
    (advanceThrough offset cursor pairs).pending.length ≤ pairs.length := by
  induction pairs generalizing cursor with
  | nil => simp [advanceThrough]
  | cons pair rest induction =>
      rw [advanceThrough]
      split
      · exact Nat.le_succ_of_le (induction _)
      · simp

theorem get_eq_ok {cursor next : LinePairCursor} {offset : Nat} {position : Position}
    (answered : cursor.get offset = .ok (position, next)) :
    next = { cursor with last := some offset }.advance offset := by
  simp only [get] at answered
  cases order : Position.checkOrder cursor.last offset with
  | error error => simp [order, bind, Except.bind] at answered
  | ok accepted =>
      simp only [order, bind, Except.bind, pure, Except.pure, Except.ok.injEq,
        Prod.mk.injEq] at answered
      exact answered.2.symm

/-- What a replay has before it: two steps for each pair, and one more before the threshold. -/
def distance (cursor : LinePairCursor) (offset : Nat) : Nat :=
  2 * cursor.pending.length + if cursor.threshold ≤ offset then 0 else 1

theorem distance_decreases {cursor next : LinePairCursor} {offset : Nat} {position : Position}
    (unread : cursor.pending ≠ []) (answered : cursor.get offset = .ok (position, next)) :
    next.distance next.threshold < cursor.distance offset := by
  rw [get_eq_ok answered]
  obtain ⟨timing, pending, threshold, line, last⟩ := cursor
  cases pending with
  | nil => exact absurd rfl unread
  | cons pair rest =>
      simp only [distance, advance, advanceThrough, Nat.le_refl, if_true, List.length_cons]
      split
      · have shorter := advanceThrough_pending_le offset
          ⟨timing, pair :: rest, threshold + LinePairs.leadingWidth rest,
            line + LinePairs.change timing pair.2 rest, some offset⟩ rest
        omega
      · simp

/-- The positions from an offset on, one for each threshold that is reached. -/
def replayFrom (cursor : LinePairCursor) (offset : Nat) : Except Error (List Position) :=
  if _ : cursor.pending = [] then
    .ok []
  else
    match _ : cursor.get offset with
    | .error error => .error error
    | .ok (position, next) => do
        let rest ← replayFrom next next.threshold
        return position :: rest
termination_by cursor.distance offset
decreasing_by
  exact distance_decreases ‹_› ‹_›

end LinePairCursor
end CodeScope

import CodeScope.Position.LinePairs
import CodeScope.Position.Location
import CodeScope.Value.Basic
import CodeScope.Version.Profile

/-!
# Position tables

The position table of a code unit, in the encoding of its version, and the cursor that reads it.
-/

namespace CodeScope

/-- A position table. -/
structure PositionTable where
  /-- Encoding. -/
  format : PositionFormat
  /-- First line of the unit. -/
  firstLine : Int32
  /-- Encoded table. -/
  data : Bytes
  deriving Repr

/-- A place in a position table. -/
inductive PositionCursor where
  | linePairs (cursor : LinePairCursor)
  | locations (cursor : LocationCursor)
  deriving Repr

namespace PositionCursor

/-- The place before the first query. -/
def start (table : PositionTable) : PositionCursor :=
  let firstLine := table.firstLine.toInt
  match table.format with
  | .lineDeltas => linePairs (.start .afterBytes firstLine table.data)
  | .lineRanges => linePairs (.start .ownBytes firstLine table.data)
  | .locations => locations (.start firstLine table.data)

/--
The position at an offset. A query before the last one is refused, and one in the part of a table
that cannot be decoded fails; a refused query leaves the cursor to its caller as it was.
-/
def get (cursor : PositionCursor) (offset : Nat) : Except Error (Position × PositionCursor) :=
  match cursor with
  | linePairs cursor => do
      let (position, next) ← cursor.get offset
      return (position, linePairs next)
  | locations cursor => do
      let (position, next) ← cursor.get offset
      return (position, locations next)

end PositionCursor

namespace PositionTable

/-- The positions of a table, read from its start with a cursor of their own. -/
def positions (table : PositionTable) : Except Error (List Position) :=
  match PositionCursor.start table with
  | .linePairs cursor => cursor.replayFrom 0
  | .locations cursor => do
      let ranges ← cursor.replay.toExcept
      return ranges.map LocationRange.position

/-- The position table of a code unit. -/
def ofUnit (unit : CodeUnit) : Except Error PositionTable := do
  let profile ← Profile.ofVersion unit.version
  return ⟨profile.positionFormat, unit.firstLine, unit.linetable⟩

end PositionTable
end CodeScope

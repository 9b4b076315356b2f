import CodeScope.Bytes.Decoded
import CodeScope.Bytes.Varint
import CodeScope.Position.Basic
import CodeScope.Sequencing

/-!
# Location tables

A location table has an entry for every run of code words with the same place in the source. The
first byte of an entry tells the length of the run, from one to eight words, and the form of the
entry. Lines are given as changes of a running line, which entries without a place leave alone.
Lines and columns stay within 32 bits: they stop at the ends of that range.
-/

namespace CodeScope

/-- How an entry of a location table describes its place. -/
inductive LocationForm where
  /-- There is no place. -/
  | nowhere
  /-- Any lines and columns; columns are written one higher, so that zero means none. -/
  | full (lineDelta : Int) (lines column endColumn : UInt32)
  /-- A line without columns. -/
  | lineOnly (lineDelta : Int)
  /-- Columns below 256 on a line that is at most two further. -/
  | oneLine (lineDelta : Nat) (column endColumn : UInt8)
  /-- Columns on the running line, the first below 80 and at most 15 before the other. -/
  | short (column width : Nat)
  deriving DecidableEq, Repr

/-- An entry of a location table. -/
structure LocationEntry where
  /-- Number of code words. -/
  words : Nat
  /-- Their place. -/
  form : LocationForm
  deriving DecidableEq, Repr

namespace LocationForm

/-- A number kept within the signed numbers of 32 bits. -/
def clamp (number : Int) : Int :=
  max (-0x80000000) (min number 0x7FFFFFFF)

/-- A word taken as a signed number. -/
def signed (word : UInt32) : Int :=
  word.toInt32.toInt

/-- The running line after an entry. -/
def lineAfter (line : Int) : LocationForm → Int
  | nowhere => line
  | full lineDelta _ _ _ => clamp (line + lineDelta)
  | lineOnly lineDelta => clamp (line + lineDelta)
  | oneLine lineDelta _ _ => clamp (line + lineDelta)
  | short _ _ => line

/-- The span of an entry, given the running line after it. -/
def span (line : Int) : LocationForm → Span
  | nowhere => .unknown
  | full _ lines column endColumn =>
      { line
        endLine := clamp (line + signed lines)
        column := clamp (signed column - 1)
        endColumn := clamp (signed endColumn - 1) }
  | lineOnly _ => ⟨line, line, -1, -1⟩
  | oneLine _ column endColumn => ⟨line, line, column.toNat, endColumn.toNat⟩
  | short column width => ⟨line, line, column, column + width⟩

/-- The rest of an entry, given the form number of its first byte. -/
def scan (kind : Nat) : Scan LocationForm :=
  if kind = 15 then
    return .nowhere
  else if kind = 14 then do
    let lineDelta ← Scan.signedVarint
    let lines ← Scan.varint
    let column ← Scan.varint
    let endColumn ← Scan.varint
    return .full lineDelta lines column endColumn
  else if kind = 13 then
    LocationForm.lineOnly <$> Scan.signedVarint
  else if 10 ≤ kind then do
    let column ← Scan.u8
    let endColumn ← Scan.u8
    return .oneLine (kind - 10) column endColumn
  else do
    let byte ← Scan.u8
    if 128 ≤ byte.toNat then
      Scan.fail (.malformedCode .location (.columnByte byte))
    else
      return .short (8 * kind + byte.toNat / 16) (byte.toNat % 16)

theorem forward_scan (kind : Nat) : (scan kind).Forward := by
  rw [scan]
  split
  · exact Scan.forward_pure _
  split
  · refine Scan.forward_signedVarint.bind fun lineDelta => ?_
    refine Scan.forward_varint.bind fun lines => ?_
    refine Scan.forward_varint.bind fun column => ?_
    exact Scan.forward_varint.bind fun endColumn => Scan.forward_pure _
  split
  · exact Scan.forward_signedVarint.map lineOnly
  split
  · refine Scan.forward_u8.bind fun column => ?_
    exact Scan.forward_u8.bind fun endColumn => Scan.forward_pure _
  · refine Scan.forward_u8.bind fun byte => ?_
    split
    · exact Scan.forward_fail _
    · exact Scan.forward_pure _

end LocationForm

namespace LocationEntry

/-- One entry. -/
def scan : Scan LocationEntry := do
  let first ← Scan.u8
  let form ← LocationForm.scan (first.toNat / 8 % 16)
  return ⟨first.toNat % 8 + 1, form⟩

theorem scan_shortens {cursor next : Cursor} {entry : LocationEntry}
    (scanned : scan cursor = .ok (entry, next)) : next.remaining < cursor.remaining := by
  simp only [scan, Bind.bind, StateT.bind] at scanned
  obtain ⟨⟨first, rest⟩, read, scanned⟩ := bind_eq_ok_iff.mp scanned
  obtain ⟨⟨form, final⟩, described, scanned⟩ := bind_eq_ok_iff.mp scanned
  cases scanned
  have consumed : rest.remaining + 1 = cursor.remaining := Scan.u8_eq_ok read
  have kept : final.remaining ≤ rest.remaining := LocationForm.forward_scan _ _ _ _ described
  show final.remaining < cursor.remaining
  omega

end LocationEntry

/-- A run of code words with the same place in the source. -/
structure LocationRange where
  /-- Number of code words before the run. -/
  start : Nat
  /-- Number of code words up to the end of the run. -/
  stop : Nat
  /-- Place in the source. -/
  span : Span
  deriving DecidableEq, Repr

namespace LocationRange

/-- The position of the first word. -/
def position (range : LocationRange) : Position := ⟨2 * range.start, range.span⟩

end LocationRange

/-- A place in a location table. -/
structure LocationCursor where
  /-- Entries still to be read. -/
  rest : Cursor
  /-- Running line. -/
  line : Int
  /-- The range of the last entry that was read. -/
  current : Option LocationRange
  /-- Offset of the last query. -/
  last : Option Nat
  deriving Repr

namespace LocationCursor

/-- The place before the first entry. -/
def start (firstLine : Int) (data : Bytes) : LocationCursor :=
  ⟨Cursor.start data, firstLine, none, none⟩

/-- Number of code words that the entries so far cover. -/
def stop (cursor : LocationCursor) : Nat :=
  match cursor.current with
  | some range => range.stop
  | none => 0

/-- The span of the last entry; before the first one, the line alone. -/
def span (cursor : LocationCursor) : Span :=
  match cursor.current with
  | some range => range.span
  | none => .ofLine cursor.line

/-- Read the next entry. -/
def readEntry (cursor : LocationCursor) : Except Error (LocationRange × LocationCursor) := do
  let (entry, rest) ← LocationEntry.scan cursor.rest
  let line := entry.form.lineAfter cursor.line
  let range : LocationRange := ⟨cursor.stop, cursor.stop + entry.words, entry.form.span line⟩
  return (range, { cursor with rest := rest, line := line, current := some range })

theorem readEntry_shortens {cursor next : LocationCursor} {range : LocationRange}
    (read : cursor.readEntry = .ok (range, next)) :
    next.rest.remaining < cursor.rest.remaining := by
  simp only [readEntry, bind_eq_ok_iff, pure_eq_ok_iff, Prod.mk.injEq] at read
  obtain ⟨⟨entry, rest⟩, scanned, -, rfl⟩ := read
  exact LocationEntry.scan_shortens scanned

/-- Read entries until they cover the code word at an offset or there are no more. -/
def advance (cursor : LocationCursor) (offset : Nat) : Except Error LocationCursor :=
  if cursor.stop ≤ offset / 2 ∧ ¬cursor.rest.isEmpty then
    match _ : cursor.readEntry with
    | .error error => .error error
    | .ok (_, next) => advance next offset
  else
    .ok cursor
termination_by cursor.rest.remaining
decreasing_by
  exact readEntry_shortens ‹_›

/-- The position at an offset. A query before the last one is refused. -/
def get (cursor : LocationCursor) (offset : Nat) : Except Error (Position × LocationCursor) := do
  Position.checkOrder cursor.last offset
  let next ← { cursor with last := some offset }.advance offset
  return (⟨offset, next.span⟩, next)

/-- The ranges of the entries that are still to be read, up to the first malformed one. -/
def replay (cursor : LocationCursor) : Decoded LocationRange :=
  if cursor.rest.isEmpty then
    ⟨[], none⟩
  else
    match _ : cursor.readEntry with
    | .error error => ⟨[], some error⟩
    | .ok (range, next) => (replay next).push range
termination_by cursor.rest.remaining
decreasing_by
  exact readEntry_shortens ‹_›

end LocationCursor
end CodeScope

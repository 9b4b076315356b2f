import CodeScope.Proofs.Bytes.LeastFirst
import CodeScope.Proofs.Position.Entries
import Mathlib.Algebra.Ring.Int.Defs

/-!
# Writing of location tables

A writer gives every run of code words an entry of some kind that can tell its place: one without a
place, one with any lines and columns, or one of the shorter kinds where the place is near the
running line. Whatever it chooses, decoding the table gives back the runs and their places.
-/

namespace CodeScope
namespace LocationForm

/-- The bytes of an entry behind the first one. -/
def bytes : LocationForm → Bytes
  | nowhere => []
  | full lineDelta lines column endColumn =>
      Bytes.signedVarint lineDelta ++
        (Bytes.varint lines.toNat ++ (Bytes.varint column.toNat ++ Bytes.varint endColumn.toNat))
  | lineOnly lineDelta => Bytes.signedVarint lineDelta
  | oneLine _ column endColumn => [column, endColumn]
  | short column width => [UInt8.ofNat (column % 8 * 16 + width)]

/-- The kind that the first byte of an entry tells, if the form has room in its bytes. -/
inductive OfKind : LocationForm → Nat → Prop
  | nowhere : OfKind nowhere 15
  | full {lineDelta : Int} (lines column endColumn : UInt32) (small : lineDelta.natAbs < 2 ^ 31) :
      OfKind (full lineDelta lines column endColumn) 14
  | lineOnly {lineDelta : Int} (small : lineDelta.natAbs < 2 ^ 31) : OfKind (lineOnly lineDelta) 13
  | oneLine {lineDelta : Nat} (column endColumn : UInt8) (near : lineDelta ≤ 2) :
      OfKind (oneLine lineDelta column endColumn) (10 + lineDelta)
  | short {column width : Nat} (left : column < 80) (narrow : width < 16) :
      OfKind (short column width) (column / 8)

variable {form : LocationForm} {kind : Nat}

theorem OfKind.le (ofKind : form.OfKind kind) : kind ≤ 15 := by
  cases ofKind with
  | nowhere => exact Nat.le_refl 15
  | full lines column endColumn small => decide
  | lineOnly small => decide
  | oneLine column endColumn near => omega
  | short left narrow => omega

theorem takes_varint (number : UInt32) :
    Scan.varint.Takes (Bytes.varint number.toNat) number := by
  have taken := Scan.Takes.varint number.toNat_lt
  rwa [UInt32.ofNat_toNat] at taken

theorem takes_scan (ofKind : form.OfKind kind) : (scan kind).Takes form.bytes form := by
  rw [scan]
  cases ofKind with
  | nowhere => exact .pure _
  | full lines column endColumn small =>
      refine (Scan.Takes.signedVarint small).bind ?_
      refine (takes_varint lines).bind ((takes_varint column).bind ?_)
      exact (takes_varint endColumn).andThen
  | lineOnly small => exact (Scan.Takes.signedVarint small).map _
  | @oneLine lineDelta column endColumn near =>
      have notFull : ¬10 + lineDelta = 14 := by omega
      have notLineOnly : ¬10 + lineDelta = 13 := by omega
      have notNowhere : ¬10 + lineDelta = 15 := by omega
      rw [if_neg notNowhere, if_neg notFull, if_neg notLineOnly, if_pos (Nat.le_add_right 10 _)]
      have delta : 10 + lineDelta - 10 = lineDelta := Nat.add_sub_cancel_left 10 lineDelta
      simp only [delta]
      exact (Scan.Takes.u8 column).bind (Scan.Takes.u8 endColumn).andThen
  | @short column width left narrow =>
      have byte : (UInt8.ofNat (column % 8 * 16 + width)).toNat = column % 8 * 16 + width := by
        rw [UInt8.toNat_ofNat']
        omega
      have notNowhere : ¬column / 8 = 15 := by omega
      have notFull : ¬column / 8 = 14 := by omega
      have notLineOnly : ¬column / 8 = 13 := by omega
      have notOneLine : ¬10 ≤ column / 8 := by omega
      rw [if_neg notNowhere, if_neg notFull, if_neg notLineOnly, if_neg notOneLine]
      intro rest offset
      have clear : ¬128 ≤ column % 8 * 16 + width := by omega
      have columns : 8 * (column / 8) + (column % 8 * 16 + width) / 16 = column := by omega
      have widths : (column % 8 * 16 + width) % 16 = width := by omega
      rw [bytes, Scan.bind_of_ok (Scan.Takes.u8 _ rest offset)]
      simp only [byte, clear, if_false, columns, widths]
      rfl

end LocationForm

namespace LocationEntry

/-- The bytes of an entry whose form is of some kind. -/
def bytes (kind : Nat) (entry : LocationEntry) : Bytes :=
  UInt8.ofNat (128 + 8 * kind + (entry.words - 1)) :: entry.form.bytes

theorem takes_scan {entry : LocationEntry} {kind : Nat} (ofKind : entry.form.OfKind kind)
    (nonempty : 1 ≤ entry.words) (few : entry.words ≤ 8) :
    scan.Takes (entry.bytes kind) entry := by
  have small := ofKind.le
  have first : (UInt8.ofNat (128 + 8 * kind + (entry.words - 1))).toNat =
      128 + 8 * kind + (entry.words - 1) := by
    rw [UInt8.toNat_ofNat']
    omega
  have kinds : (128 + 8 * kind + (entry.words - 1)) / 8 % 16 = kind := by omega
  have words : (128 + 8 * kind + (entry.words - 1)) % 8 + 1 = entry.words := by omega
  have front : entry.bytes kind =
      [UInt8.ofNat (128 + 8 * kind + (entry.words - 1))] ++ entry.form.bytes := rfl
  rw [front]
  refine (Scan.Takes.u8 _).bind ?_
  rw [first, kinds, words]
  exact (LocationForm.takes_scan ofKind).andThen

end LocationEntry

namespace LocationForm

/-- The form that tells a place behind a running line, in an entry of some kind. -/
def telling (line : Int) (span : Span) (kind : Nat) : LocationForm :=
  if kind = 15 then
    .nowhere
  else if kind = 14 then
    .full (span.line - line) (UInt32.ofNat (span.endLine - span.line).toNat)
      (UInt32.ofNat (span.column + 1).toNat) (UInt32.ofNat (span.endColumn + 1).toNat)
  else if kind = 13 then
    .lineOnly (span.line - line)
  else if 10 ≤ kind then
    .oneLine (kind - 10) (UInt8.ofNat span.column.toNat) (UInt8.ofNat span.endColumn.toNat)
  else
    .short span.column.toNat (span.endColumn - span.column).toNat

variable {line : Int} {span : Span} {kind : Nat}

end LocationForm

/-- A run of code words with its place, and the kind of entry that a writer chooses for it. -/
structure LocatedRun where
  /-- Number of code words. -/
  words : Nat
  /-- Kind of the entry. -/
  kind : Nat
  /-- Place in the source. -/
  span : Span
  deriving DecidableEq, Repr

namespace LocatedRun

/-- The running line behind a run. A run without a place leaves it alone. -/
def lineAfter (line : Int) (run : LocatedRun) : Int :=
  if run.kind = 15 then line else run.span.line

/-- The entry of a run behind a running line. -/
def entry (line : Int) (run : LocatedRun) : LocationEntry :=
  ⟨run.words, .telling line run.span run.kind⟩

/-- The table of some runs behind a running line. -/
def table : Int → List LocatedRun → Bytes
  | _, [] => []
  | line, run :: rest => (run.entry line).bytes run.kind ++ table (run.lineAfter line) rest

/-- The positions where runs begin, behind some code words. -/
def positions : Nat → List LocatedRun → List Position
  | _, [] => []
  | before, run :: rest => ⟨2 * before, run.span⟩ :: positions (before + run.words) rest

variable {line : Int} {run : LocatedRun}

end LocatedRun

end CodeScope

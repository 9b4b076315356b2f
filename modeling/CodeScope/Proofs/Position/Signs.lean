import CodeScope.Position.Table
import CodeScope.Proofs.Position.Entries
import Mathlib.Algebra.Ring.Int.Defs
import Mathlib.Algebra.Ring.Nat
import Mathlib.Data.List.Forall2

/-!
# Signs in location tables

The numbers of a location entry are written without a sign, but as words they are taken with one. A
word of 2³¹ or more takes the last line before the first one, or a column below -1. Where the words
of an entry are smaller, its lines are in order and its columns are known or -1.
-/

namespace CodeScope

/-- There is no place, or its lines are in order and no column is below -1. -/
def Span.IsSane (span : Span) : Prop :=
  span = .unknown ∨ span.line ≤ span.endLine ∧ -1 ≤ span.column ∧ -1 ≤ span.endColumn

theorem Span.isSane_iff {span : Span} :
    span.IsSane ↔ span.line ≤ span.endLine ∧ -1 ≤ span.column ∧ -1 ≤ span.endColumn := by
  constructor
  · rintro (rfl | sane)
    · decide
    · exact sane
  · exact .inr

namespace LocationForm

/--
The words of an entry are not negative when they are taken as signed ones. On the lowest line the
number of further lines does not matter, since no line is before it.
-/
def KeepsSigns (line : Int) : LocationForm → Prop
  | full _ lines column endColumn =>
      (lines.toNat < 2 ^ 31 ∨ line = -2 ^ 31) ∧ column.toNat < 2 ^ 31 ∧ endColumn.toNat < 2 ^ 31
  | _ => True

theorem signed_nonneg_iff {word : UInt32} : 0 ≤ signed word ↔ word.toNat < 2 ^ 31 := by
  have bounded := word.toNat_lt
  have number : word.toBitVec.toNat = word.toNat := rfl
  rw [signed, Int32.toInt, UInt32.toBitVec_toInt32, BitVec.toInt_eq_toNat_cond, number]
  split <;> omega

theorem le_clamp_add_iff {line further : Int} (bounds : -2 ^ 31 ≤ line ∧ line < 2 ^ 31) :
    line ≤ clamp (line + further) ↔ 0 ≤ further ∨ line = -2 ^ 31 := by
  rw [clamp]
  omega

theorem neg_one_le_clamp_sub_iff {column : Int} : -1 ≤ clamp (column - 1) ↔ 0 ≤ column := by
  rw [clamp]
  omega

/-- The running line stays within 32 bits. -/
theorem lineAfter_bounds {line : Int} (bounds : -2 ^ 31 ≤ line ∧ line < 2 ^ 31)
    (form : LocationForm) : -2 ^ 31 ≤ form.lineAfter line ∧ form.lineAfter line < 2 ^ 31 := by
  cases form with
  | nowhere => exact bounds
  | short column width => exact bounds
  | full | lineOnly | oneLine =>
      rw [lineAfter, clamp]
      omega

/-- The place of an entry is sane exactly if its words keep their signs. -/
theorem isSane_span_iff {line : Int} (bounds : -2 ^ 31 ≤ line ∧ line < 2 ^ 31)
    (form : LocationForm) : (form.span line).IsSane ↔ form.KeepsSigns (form.span line).line := by
  rw [Span.isSane_iff]
  cases form with
  | nowhere => simp [span, Span.unknown, KeepsSigns]
  | lineOnly lineDelta => simp [span, KeepsSigns]
  | oneLine lineDelta column endColumn =>
      simp only [span, KeepsSigns, iff_true]
      omega
  | short column width =>
      simp only [span, KeepsSigns, iff_true]
      omega
  | full lineDelta lines column endColumn =>
      simp only [span, KeepsSigns]
      rw [le_clamp_add_iff bounds, neg_one_le_clamp_sub_iff, neg_one_le_clamp_sub_iff,
        signed_nonneg_iff, signed_nonneg_iff, signed_nonneg_iff]

end LocationForm

namespace LocationEntry

/-- The entries that stand one behind the other from a place of a table to its end. -/
inductive Fill : Cursor → List LocationEntry → Prop
  | nil {cursor : Cursor} (finished : cursor.isEmpty) : Fill cursor []
  | cons {cursor next : Cursor} {entry : LocationEntry} {rest : List LocationEntry}
      (unread : ¬cursor.isEmpty) (scanned : scan cursor = .ok (entry, next))
      (others : Fill next rest) : Fill cursor (entry :: rest)

/-- The places of entries behind a running line. -/
def spans : Int → List LocationEntry → List Span
  | _, [] => []
  | line, entry :: rest =>
      entry.form.span (entry.form.lineAfter line) :: spans (entry.form.lineAfter line) rest

/-- A position is sane exactly if the words of its entry keep their signs. -/
def Decides (entry : LocationEntry) (position : Position) : Prop :=
  position.span.IsSane ↔ entry.form.KeepsSigns position.span.line

end LocationEntry

namespace LocationCursor

/-- A replay without a fault has a place for every entry up to the end of the table. -/
theorem exists_entries_of_replay {cursor : LocationCursor} (sound : cursor.replay.fault = none)
    (bounds : -2 ^ 31 ≤ cursor.line ∧ cursor.line < 2 ^ 31) :
    ∃ entries, LocationEntry.Fill cursor.rest entries ∧
      cursor.replay.entries.map LocationRange.span = LocationEntry.spans cursor.line entries ∧
      List.Forall₂ LocationEntry.Decides entries
        (cursor.replay.entries.map LocationRange.position) := by
  induction remaining : cursor.rest.remaining using Nat.strongRecOn generalizing cursor with
  | ind count induction =>
      by_cases finished : cursor.rest.isEmpty
      · rw [replay_of_empty finished]
        exact ⟨[], .nil finished, rfl, .nil⟩
      · cases read : cursor.readEntry with
        | error error =>
            rw [replay_of_failed finished read] at sound
            cases sound
        | ok result =>
            obtain ⟨range, next⟩ := result
            have shorter := readEntry_shortens read
            rw [replay_of_read finished read] at sound ⊢
            simp only [readEntry, bind_eq_ok_iff, pure_eq_ok_iff, Prod.mk.injEq] at read
            obtain ⟨⟨entry, rest⟩, scanned, rfl, rfl⟩ := read
            have inside := LocationForm.lineAfter_bounds bounds entry.form
            obtain ⟨entries, filled, same, decided⟩ :=
              induction _ (remaining ▸ shorter) sound inside rfl
            refine ⟨entry :: entries, .cons finished scanned filled, ?_, .cons ?_ decided⟩
            · exact congrArg (entry.form.span _ :: ·) same
            · exact LocationForm.isSane_span_iff inside entry.form

end LocationCursor

/--
The positions of a location table have the places of its entries, in their order. A place is sane
exactly if no word of its entry reaches 2³¹, but for the number of lines behind the lowest line.
-/
theorem PositionTable.isSane_iff_of_positions {firstLine : Int32} {data : Bytes}
    {positions : List Position}
    (decoded : PositionTable.positions ⟨.locations, firstLine, data⟩ = .ok positions) :
    ∃ entries, LocationEntry.Fill (.start data) entries ∧
      positions.map Position.span = LocationEntry.spans firstLine.toInt entries ∧
      List.Forall₂ LocationEntry.Decides entries positions := by
  have replayed : (LocationCursor.start firstLine.toInt data).replay.toExcept >>=
      (fun ranges => pure (ranges.map LocationRange.position)) = .ok positions := decoded
  rw [Decoded.toExcept] at replayed
  split at replayed
  · cases replayed
  · next sound =>
      cases replayed
      obtain ⟨entries, filled, same, decided⟩ := LocationCursor.exists_entries_of_replay sound
        ⟨Int32.le_toInt firstLine, Int32.toInt_lt firstLine⟩
      refine ⟨entries, filled, ?_, decided⟩
      rw [List.map_map]
      exact same

/-- An entry on line -1 with 2³¹ further lines and a column that is written as 2³¹. -/
def upperHalves : Bytes :=
  [0xF0, 0x0D, 0x40, 0x40, 0x40, 0x40, 0x40, 2, 0x40, 0x40, 0x40, 0x40, 0x40, 2, 1]

theorem PositionTable.positions_upperHalves :
    PositionTable.positions ⟨.locations, 5, upperHalves⟩ =
      .ok [⟨0, ⟨-1, -0x80000000, -0x80000000, 0⟩⟩] := by
  let range : LocationRange := ⟨0, 1, ⟨-1, -0x80000000, -0x80000000, 0⟩⟩
  have unread : ¬(LocationCursor.start 5 upperHalves).rest.isEmpty := by decide
  have read : (LocationCursor.start 5 upperHalves).readEntry =
      .ok (range, ⟨⟨[], 15⟩, -1, some range, none⟩) := rfl
  have replayed : (LocationCursor.start 5 upperHalves).replay = ⟨[range], none⟩ := by
    rw [LocationCursor.replay_of_read unread read, LocationCursor.replay_of_empty rfl]
    rfl
  show (LocationCursor.start 5 upperHalves).replay.toExcept >>=
    (fun ranges => pure (ranges.map LocationRange.position)) = _
  rw [replayed]
  rfl

/-- The last line is before the first one, and the first column is below -1. -/
theorem Span.not_isSane_upperHalves :
    PositionTable.positions ⟨.locations, 5, upperHalves⟩ =
        .ok [⟨0, ⟨-1, -0x80000000, -0x80000000, 0⟩⟩] ∧
      ¬Span.IsSane ⟨-1, -0x80000000, -0x80000000, 0⟩ := by
  refine ⟨PositionTable.positions_upperHalves, ?_⟩
  rw [isSane_iff]
  decide

theorem PositionTable.isSane_iff_of_positions_upperHalves :
    PositionTable.positions ⟨.locations, 5, upperHalves⟩ =
        .ok [⟨0, ⟨-1, -0x80000000, -0x80000000, 0⟩⟩] ∧
      ∃ entries, LocationEntry.Fill (.start upperHalves) entries ∧
        [⟨-1, -0x80000000, -0x80000000, 0⟩] = LocationEntry.spans 5 entries ∧
        List.Forall₂ LocationEntry.Decides entries
          [⟨0, ⟨-1, -0x80000000, -0x80000000, 0⟩⟩] :=
  ⟨positions_upperHalves, isSane_iff_of_positions positions_upperHalves⟩

end CodeScope

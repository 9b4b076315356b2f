import CodeScope.Proofs.Position.Seeking

/-!
# Entries of a position table

Decoding a table at once gives its entries. What a cursor finds at an offset is the last entry that
starts there or before, whatever was asked of the cursor earlier; only past the entries before a
malformed one there is nothing to be found.
-/

namespace CodeScope
namespace Position

/-- The place of the last position at an offset or before it. -/
def spanAt (first : Span) (positions : List Position) (offset : Nat) : Span :=
  let reached := positions.filter fun position => position.offset ≤ offset
  (reached.getLast?.map Position.span).getD first

variable {first : Span} {position : Position} {positions : List Position} {offset : Nat}

theorem spanAt_cons (reached : position.offset ≤ offset) :
    spanAt first (position :: positions) offset = spanAt position.span positions offset := by
  rw [spanAt, List.filter_cons_of_pos (by simpa using reached), List.getLast?_cons, spanAt]
  cases (positions.filter fun position => position.offset ≤ offset).getLast? with
  | none => rfl
  | some last => rfl

theorem spanAt_of_later (later : ∀ position ∈ positions, offset < position.offset) :
    spanAt first positions offset = first := by
  have empty : positions.filter (fun position => position.offset ≤ offset) = [] := by
    rw [List.filter_eq_nil_iff]
    intro position member
    have after := later position member
    simpa using after
  rw [spanAt, empty]
  rfl

end Position

namespace LinePairCursor

variable {cursor : LinePairCursor}

theorem advanceThrough_of_lt {offset : Nat} (pairs : List (UInt8 × UInt8))
    (before : offset < cursor.threshold) :
    advanceThrough offset cursor pairs = { cursor with pending := pairs } := by
  cases pairs with
  | nil => rfl
  | cons pair rest => rw [advanceThrough, if_neg (Nat.not_le_of_lt before)]

theorem lt_threshold_advanceThrough (offset : Nat) (pairs : List (UInt8 × UInt8))
    (unread : (advanceThrough offset cursor pairs).pending ≠ []) :
    offset < (advanceThrough offset cursor pairs).threshold := by
  induction pairs generalizing cursor with
  | nil => simp [advanceThrough] at unread
  | cons pair rest induction =>
      rw [advanceThrough] at unread ⊢
      split
      · next reached =>
          rw [if_pos reached] at unread
          exact induction unread
      · next unreached => exact Nat.lt_of_not_le unreached

/-- After the last pair the line stays as it is. -/
theorem advance_of_read_all {offset : Nat} (finished : cursor.pending = []) :
    (cursor.advance offset).line = cursor.line := by
  rw [advance, finished]
  rfl

theorem advance_of_lt {offset : Nat} (before : offset < cursor.threshold) :
    (cursor.advance offset).line = cursor.line := by
  rw [advance, advanceThrough_of_lt _ before]

theorem replayFrom_of_read_all {offset : Nat} (finished : cursor.pending = []) :
    cursor.replayFrom offset = .ok [] := by
  rw [replayFrom, dif_pos finished]

theorem replayFrom_of_get {offset : Nat} {position : Position} {next : LinePairCursor}
    (unread : cursor.pending ≠ []) (answered : cursor.get offset = .ok (position, next)) :
    cursor.replayFrom offset = (position :: ·) <$> next.replayFrom next.threshold := by
  rw [replayFrom, dif_neg unread]
  split
  · next error failed =>
      rw [answered] at failed
      cases failed
  · next found other same =>
      rw [answered] at same
      cases same
      rfl

/-- A replay gives the line at every offset from its own on, and nothing before. -/
theorem replayFrom_spec {offset : Nat} (unread : cursor.pending ≠ [])
    (ordered : Position.checkOrder cursor.last offset = .ok ()) :
    ∃ rest, cursor.replayFrom offset =
        .ok (⟨offset, .ofLine (cursor.advance offset).line⟩ :: rest) ∧
      (∀ position ∈ rest, offset < position.offset) ∧
      rest.Pairwise (fun earlier later => earlier.offset < later.offset) ∧
      ∀ later, offset ≤ later →
        Position.spanAt (.ofLine (cursor.advance offset).line) rest later =
          .ofLine (cursor.advance later).line := by
  induction distance : cursor.distance offset using Nat.strongRecOn generalizing cursor offset with
  | ind count induction =>
      have answered := get_of_ordered cursor ordered
      have closer := distance_decreases unread answered
      rw [replayFrom_of_get unread answered]
      -- Unless all pairs are read, the next entry is at the threshold, which is past the offset.
      by_cases finished : (cursor.moved offset).pending = []
      · refine ⟨[], ?_, by simp, List.Pairwise.nil, ?_⟩
        · rw [replayFrom_of_read_all finished]
          rfl
        · intro later reached
          rw [← advance_moved cursor reached, advance_of_read_all finished]
          rfl
      · have before : offset < (cursor.moved offset).threshold :=
          lt_threshold_advanceThrough offset cursor.pending finished
        have orderedNext := Position.ordered_of_le (Nat.le_of_lt before)
        obtain ⟨rest, replayed, after, increasing, agrees⟩ :=
          induction _ (distance ▸ closer) finished orderedNext rfl
        refine ⟨⟨(cursor.moved offset).threshold, _⟩ :: rest, by rw [replayed]; rfl, ?_, ?_, ?_⟩
        · intro position member
          rcases List.mem_cons.mp member with same | inRest
          · rw [same]
            exact before
          · exact Nat.lt_trans before (after position inRest)
        · exact List.Pairwise.cons after increasing
        · intro later reached
          by_cases covered : later < (cursor.moved offset).threshold
          · rw [Position.spanAt_of_later]
            · rw [← advance_moved cursor reached, advance_of_lt covered]
              rfl
            · intro position member
              rcases List.mem_cons.mp member with same | inRest
              · rw [same]
                exact covered
              · exact Nat.lt_trans covered (after position inRest)
          · have passed := Nat.le_of_not_lt covered
            rw [Position.spanAt_cons passed, agrees later passed, advance_moved cursor reached]

end LinePairCursor

namespace LocationEntry

/-- Every entry covers at least one code word. -/
theorem words_pos {cursor next : Cursor} {entry : LocationEntry}
    (scanned : scan cursor = .ok (entry, next)) : 0 < entry.words := by
  simp only [scan, Bind.bind, StateT.bind] at scanned
  obtain ⟨⟨first, rest⟩, read, scanned⟩ := bind_eq_ok_iff.mp scanned
  obtain ⟨⟨form, final⟩, described, scanned⟩ := bind_eq_ok_iff.mp scanned
  cases scanned
  exact Nat.succ_pos _

end LocationEntry

namespace LocationRange

/-- Ranges without gaps between them, from one code word to another. -/
inductive Tiles : Nat → List LocationRange → Nat → Prop
  | nil (word : Nat) : Tiles word [] word
  | cons {range : LocationRange} {rest : List LocationRange} {last : Nat}
      (nonempty : range.start < range.stop) (others : Tiles range.stop rest last) :
      Tiles range.start (range :: rest) last

namespace Tiles

variable {first last : Nat} {ranges : List LocationRange}

theorem le (tiles : Tiles first ranges last) : first ≤ last := by
  induction tiles with
  | nil word => exact Nat.le_refl word
  | cons nonempty others induction => exact Nat.le_trans (Nat.le_of_lt nonempty) induction

theorem le_start (tiles : Tiles first ranges last) : ∀ range ∈ ranges, first ≤ range.start := by
  induction tiles with
  | nil word => simp
  | cons nonempty others induction =>
      intro range member
      rcases List.mem_cons.mp member with same | later
      · exact Nat.le_of_eq (congrArg LocationRange.start same.symm)
      · exact Nat.le_trans (Nat.le_of_lt nonempty) (induction range later)

theorem pairwise (tiles : Tiles first ranges last) :
    ranges.Pairwise fun earlier later => earlier.start < later.start := by
  induction tiles with
  | nil word => exact List.Pairwise.nil
  | cons nonempty others induction =>
      refine List.Pairwise.cons ?_ induction
      intro range member
      exact Nat.lt_of_lt_of_le nonempty (others.le_start range member)

theorem head (tiles : Tiles first ranges last) {position : Position}
    (same : position ∈ (ranges.map LocationRange.position).head?) :
    position.offset = 2 * first := by
  cases tiles with
  | nil => cases same
  | cons nonempty others =>
      cases same
      rfl

/-- The ranges cover the words between their ends and no others. -/
theorem covers (tiles : Tiles first ranges last) (word : Nat) :
    first ≤ word ∧ word < last ↔ ∃ range ∈ ranges, range.start ≤ word ∧ word < range.stop := by
  induction tiles with
  | nil first =>
      constructor
      · intro between
        omega
      · intro found
        simp at found
  | @cons range rest last nonempty others induction =>
      have bound := others.le
      constructor
      · intro between
        by_cases inFirst : word < range.stop
        · exact ⟨range, List.mem_cons_self, between.1, inFirst⟩
        · obtain ⟨later, member, inLater⟩ :=
            induction.mp ⟨Nat.le_of_not_lt inFirst, between.2⟩
          exact ⟨later, List.mem_cons_of_mem _ member, inLater⟩
      · intro found
        obtain ⟨covering, member, inside⟩ := found
        rcases List.mem_cons.mp member with same | inRest
        · rw [same] at inside
          omega
        · have between := induction.mpr ⟨covering, inRest, inside⟩
          omega

end Tiles
end LocationRange

namespace LocationCursor

variable {cursor next : LocationCursor}

theorem replay_of_empty (finished : cursor.rest.isEmpty) : cursor.replay = ⟨[], none⟩ := by
  rw [replay, if_pos finished]

theorem replay_of_failed {error : Error} (unread : ¬cursor.rest.isEmpty)
    (failed : cursor.readEntry = .error error) : cursor.replay = ⟨[], some error⟩ := by
  rw [replay, if_neg unread]
  split
  · next other found =>
      rw [failed] at found
      cases found
      rfl
  · next range next found =>
      rw [failed] at found
      cases found

theorem replay_of_read {range : LocationRange} (unread : ¬cursor.rest.isEmpty)
    (read : cursor.readEntry = .ok (range, next)) : cursor.replay = next.replay.push range := by
  rw [replay, if_neg unread]
  split
  · next error failed =>
      rw [read] at failed
      cases failed
  · next found other same =>
      rw [read] at same
      cases same
      rfl

/-- An entry starts where the one before it stops, and its place is the next one to be found. -/
theorem readEntry_eq_ok {range : LocationRange} (read : cursor.readEntry = .ok (range, next)) :
    range.start = cursor.stop ∧ range.start < range.stop ∧ next.stop = range.stop ∧
      next.span = range.span := by
  simp only [readEntry, bind_eq_ok_iff, pure_eq_ok_iff, Prod.mk.injEq] at read
  obtain ⟨⟨entry, rest⟩, scanned, rfl, rfl⟩ := read
  refine ⟨rfl, ?_, rfl, rfl⟩
  exact Nat.lt_add_of_pos_right (LocationEntry.words_pos scanned)

/-- Number of code words up to the end of the entries before a malformed one. -/
def reach (cursor : LocationCursor) : Nat :=
  (cursor.replay.entries.getLast?.map LocationRange.stop).getD cursor.stop

theorem reach_of_read {range : LocationRange} (unread : ¬cursor.rest.isEmpty)
    (read : cursor.readEntry = .ok (range, next)) : cursor.reach = next.reach := by
  obtain ⟨-, -, stop, -⟩ := readEntry_eq_ok read
  rw [reach, reach, replay_of_read unread read, stop]
  simp only [Decoded.push, List.getLast?_cons]
  cases next.replay.entries.getLast? with
  | none => rfl
  | some last => rfl

theorem tiles_replay (cursor : LocationCursor) :
    LocationRange.Tiles cursor.stop cursor.replay.entries cursor.reach := by
  induction remaining : cursor.rest.remaining using Nat.strongRecOn generalizing cursor with
  | ind count induction =>
      by_cases finished : cursor.rest.isEmpty
      · rw [reach, replay_of_empty finished]
        exact .nil _
      · cases read : cursor.readEntry with
        | error error =>
            rw [reach, replay_of_failed finished read]
            exact .nil _
        | ok result =>
            obtain ⟨range, next⟩ := result
            obtain ⟨start, nonempty, stop, -⟩ := readEntry_eq_ok read
            have shorter := readEntry_shortens read
            have others := induction _ (remaining ▸ shorter) next rfl
            rw [reach_of_read finished read, replay_of_read finished read, ← start]
            rw [stop] at others
            exact .cons nonempty others

/-- What advancing comes to: the last range that starts at an offset or before it, or the fault. -/
theorem advance_spec (cursor : LocationCursor) (offset : Nat) :
    (cursor.replay.fault = none ∨ offset / 2 < cursor.reach) ∧
        LocationCursor.span <$> cursor.advance offset =
          .ok (Position.spanAt cursor.span (cursor.replay.entries.map LocationRange.position)
            offset) ∨
      cursor.reach ≤ offset / 2 ∧
        ∃ error, cursor.replay.fault = some error ∧ cursor.advance offset = .error error := by
  induction remaining : cursor.rest.remaining using Nat.strongRecOn generalizing cursor with
  | ind count induction =>
      have tiles := tiles_replay cursor
      -- A covered offset is before all ranges still to be read; otherwise one more is read.
      by_cases covered : offset / 2 < cursor.stop
      · left
        have unmoved : ¬(cursor.stop ≤ offset / 2 ∧ ¬cursor.rest.isEmpty) := by
          omega
        refine ⟨.inr (Nat.lt_of_lt_of_le covered tiles.le), ?_⟩
        rw [advance_of_covered unmoved, Position.spanAt_of_later]
        · rfl
        · intro position member
          obtain ⟨range, listed, rfl⟩ := List.mem_map.mp member
          have start := tiles.le_start range listed
          show offset < 2 * range.start
          omega
      · by_cases finished : cursor.rest.isEmpty
        · left
          have unmoved : ¬(cursor.stop ≤ offset / 2 ∧ ¬cursor.rest.isEmpty) := by
            simp [finished]
          rw [advance_of_covered unmoved, replay_of_empty finished]
          exact ⟨.inl rfl, rfl⟩
        · have uncovered : cursor.stop ≤ offset / 2 ∧ ¬cursor.rest.isEmpty :=
            ⟨Nat.le_of_not_lt covered, finished⟩
          cases read : cursor.readEntry with
          | error error =>
              right
              rw [reach, replay_of_failed finished read, advance_of_failed uncovered read]
              exact ⟨uncovered.1, error, rfl, rfl⟩
          | ok result =>
              obtain ⟨range, next⟩ := result
              obtain ⟨start, nonempty, stop, span⟩ := readEntry_eq_ok read
              have shorter := readEntry_shortens read
              have reached : range.position.offset ≤ offset := by
                show 2 * range.start ≤ offset
                omega
              rw [advance_of_read uncovered read, reach_of_read finished read,
                replay_of_read finished read]
              simp only [Decoded.push, List.map_cons]
              rw [Position.spanAt_cons reached]
              have further := induction _ (remaining ▸ shorter) next rfl
              rw [span] at further
              exact further

end LocationCursor
end CodeScope

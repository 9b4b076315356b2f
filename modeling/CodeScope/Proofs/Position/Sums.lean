import CodeScope.Proofs.Position.Answers
import Mathlib.Algebra.BigOperators.Intervals
import Mathlib.Algebra.Order.BigOperators.Group.Finset

/-!
# Lines as sums

The line at an offset is the first line and the changes of some pairs of the table: in a table of
line deltas of those whose bytes end there or before, in a table of line ranges of the first pair
and of those behind one whose bytes end there or before. Decoding a table gives an entry for each
threshold that differs from the one before it.
-/

namespace CodeScope
namespace LinePairs

/-- Number of pairs of a table. -/
def count (data : Bytes) : Nat := data.length / 2

/-- Number of code bytes of a pair. -/
def width (data : Bytes) (index : Nat) : Nat := (data.getD (2 * index) 0).toNat

/-- The byte that writes the change of line of a pair. -/
def delta (data : Bytes) (index : Nat) : UInt8 := data.getD (2 * index + 1) 0

/-- Offset of the code after the bytes of a pair and of those before it. -/
def reach (data : Bytes) (index : Nat) : Nat :=
  ∑ before ∈ Finset.range (index + 1), width data before

/-- The change of line that the second byte of a pair writes. -/
def written : PairTiming → UInt8 → Int
  | .afterBytes => lineDelta
  | .ownBytes => rangeDelta

/-- The change of line that takes place where the bytes of a pair end. -/
def step (timing : PairTiming) (data : Bytes) (index : Nat) : Int :=
  match timing with
  | .afterBytes => lineDelta (delta data index)
  | .ownBytes => rangeDelta (delta data (index + 1))

theorem lineDelta_eq (byte : UInt8) : lineDelta byte = byte.toInt8.toInt := by
  have small := byte.toNat_lt
  have word : byte.toInt8.toBitVec.toNat = byte.toNat := rfl
  rw [lineDelta, Int8.toInt, BitVec.toInt_eq_toNat_cond, word]
  split <;> split <;> omega

theorem rangeDelta_eq (byte : UInt8) :
    rangeDelta byte = if byte = 128 then 0 else byte.toInt8.toInt := by
  have same : byte.toNat = 128 ↔ byte = 128 := by
    rw [← UInt8.toNat_inj]
    exact Iff.rfl
  rw [rangeDelta, lineDelta_eq]
  exact if_congr same rfl rfl

section Pairs

variable (width delta : UInt8) (rest : Bytes) (index : Nat)

theorem count_cons_cons : count (width :: delta :: rest) = count rest + 1 := by
  rw [count, count, List.length_cons, List.length_cons]
  omega

theorem reach_cons_cons_zero : reach (width :: delta :: rest) 0 = width.toNat :=
  Finset.sum_range_one _

theorem reach_cons_cons_succ :
    reach (width :: delta :: rest) (index + 1) = width.toNat + reach rest index := by
  rw [reach, Finset.sum_range_succ', Nat.add_comm]
  rfl

theorem step_cons_cons_succ (timing : PairTiming) :
    step timing (width :: delta :: rest) (index + 1) = step timing rest index := by
  cases timing <;> rfl

end Pairs

variable {data : Bytes}

theorem reach_mono (data : Bytes) {index later : Nat} (before : index ≤ later) :
    reach data index ≤ reach data later :=
  Finset.sum_le_sum_of_subset (Finset.range_mono (Nat.add_le_add_right before 1))

/-- The pairs that end up to an offset are the first ones of the table. -/
theorem exists_passed (data : Bytes) (offset bound : Nat) :
    ∃ passed ≤ bound, ∀ index < bound, reach data index ≤ offset ↔ index < passed := by
  induction bound with
  | zero => exact ⟨0, Nat.le_refl 0, by simp⟩
  | succ bound induction =>
      obtain ⟨passed, limit, reached⟩ := induction
      rcases Nat.lt_or_eq_of_le limit with unfinished | rfl
      · have beyond : ¬reach data passed ≤ offset :=
          fun within => Nat.lt_irrefl passed ((reached passed unfinished).mp within)
        refine ⟨passed, Nat.le_succ_of_le limit, fun index inside => ?_⟩
        rcases Nat.lt_or_eq_of_le (Nat.le_of_lt_succ inside) with earlier | rfl
        · exact reached index earlier
        · have further := reach_mono data (Nat.le_of_lt unfinished)
          omega
      · by_cases within : reach data passed ≤ offset
        · refine ⟨passed + 1, Nat.le_refl _, fun index inside => iff_of_true ?_ inside⟩
          exact Nat.le_trans (reach_mono data (Nat.le_of_lt_succ inside)) within
        · refine ⟨passed, Nat.le_succ passed, fun index inside => ?_⟩
          rcases Nat.lt_or_eq_of_le (Nat.le_of_lt_succ inside) with earlier | rfl
          · exact reached index earlier
          · exact iff_of_false within (Nat.lt_irrefl index)

theorem delta_of_count_le {index : Nat} (outside : count data ≤ index) : delta data index = 0 := by
  have short : data.length ≤ 2 * index + 1 := by
    rw [count] at outside
    omega
  rw [delta, List.getD_eq_getElem?_getD, List.getElem?_eq_none short, Option.getD_none]

theorem length_pairs (data : Bytes) : (pairs data).length = count data := by
  fun_induction pairs data with
  | case1 width delta rest induction => rw [List.length_cons, induction, count_cons_cons]
  | case2 data short =>
      rcases data with _ | ⟨width, _ | ⟨delta, rest⟩⟩
      · rfl
      · exact (Nat.div_eq_of_lt (by decide : 1 < 2)).symm
      · exact (short width delta rest rfl).elim

/-- The line behind the changes of the first pairs of a table. -/
def lineAfter (timing : PairTiming) (firstLine : Int) (data : Bytes) (pairs : Nat) : Int :=
  firstLine + ∑ index ∈ Finset.range pairs, written timing (delta data index)

theorem lineAfter_of_count_le (timing : PairTiming) (firstLine : Int) {pairs : Nat}
    (beyond : count data ≤ pairs) :
    lineAfter timing firstLine data pairs = lineAfter timing firstLine data (count data) := by
  rw [lineAfter, lineAfter, Finset.sum_subset (Finset.range_mono beyond)]
  intro index _ outside
  rw [delta_of_count_le (Nat.le_of_not_lt fun inside => outside (Finset.mem_range.mpr inside))]
  cases timing <;> rfl

theorem lineAfter_min (timing : PairTiming) (firstLine : Int) (data : Bytes) (pairs : Nat) :
    lineAfter timing firstLine data (min pairs (count data)) =
      lineAfter timing firstLine data pairs := by
  rcases Nat.le_total pairs (count data) with within | beyond
  · rw [Nat.min_eq_left within]
  · rw [Nat.min_eq_right beyond, lineAfter_of_count_le timing firstLine beyond]

/-- Number of pairs whose changes count before the bytes of any pair end. -/
def ahead : PairTiming → Nat
  | .afterBytes => 0
  | .ownBytes => 1

theorem leadingDelta_pairs (data : Bytes) :
    leadingDelta (pairs data) = rangeDelta (delta data 0) := by
  rcases data with _ | ⟨width, _ | ⟨delta, rest⟩⟩ <;> rfl

theorem change_pairs (timing : PairTiming) (width delta : UInt8) (rest : Bytes) :
    change timing delta (pairs rest) = step timing (width :: delta :: rest) 0 := by
  cases timing with
  | afterBytes => rfl
  | ownBytes => exact leadingDelta_pairs rest

end LinePairs

namespace LinePairCursor

open LinePairs

/-- Going on through pairs adds the changes of those that end at the offset or before it. -/
theorem line_advanceThrough (data : Bytes) {cursor : LinePairCursor} {base : Nat} (offset : Nat)
    (covers : cursor.threshold = base + leadingWidth (pairs data)) :
    (advanceThrough offset cursor (pairs data)).line = cursor.line +
      ∑ index ∈ Finset.range (count data) with base + reach data index ≤ offset,
        step cursor.timing data index := by
  induction data using pairs.induct generalizing cursor base with
  | case1 width delta rest induction =>
      rw [pairs, leadingWidth] at covers
      rw [Finset.sum_filter, count_cons_cons, Finset.sum_range_succ', pairs, advanceThrough]
      simp only [reach_cons_cons_zero, reach_cons_cons_succ, step_cons_cons_succ, ← covers,
        ← Nat.add_assoc]
      by_cases reached : cursor.threshold ≤ offset
      · rw [if_pos reached, if_pos reached, ← Finset.sum_filter, change_pairs _ width]
        have others := @induction
          { cursor with
            threshold := cursor.threshold + leadingWidth (pairs rest)
            line := cursor.line + step cursor.timing (width :: delta :: rest) 0 }
          cursor.threshold rfl
        exact others.trans ((Int.add_assoc _ _ _).trans (congrArg _ (Int.add_comm _ _)))
      · rw [if_neg reached, if_neg reached]
        have unreached : ∀ index ∈ Finset.range (count rest),
            ¬cursor.threshold + reach rest index ≤ offset := by
          intro index _
          omega
        rw [Finset.sum_eq_zero fun index member => if_neg (unreached index member)]
        simp only [Int.add_zero]
  | case2 data short =>
      have none : count data = 0 := by
        rw [← length_pairs, pairs]
        · rfl
        · exact short
      rw [none, Finset.range_zero, Finset.filter_empty, Finset.sum_empty, Int.add_zero, pairs]
      · rfl
      · exact short

/-- The changes of line that have taken place up to an offset. -/
theorem line_advance_start (timing : PairTiming) (firstLine : Int) (data : Bytes) (offset : Nat) :
    ((start timing firstLine data).advance offset).line = (start timing firstLine data).line +
      ∑ index ∈ Finset.range (count data) with reach data index ≤ offset,
        step timing data index := by
  have sum := @line_advanceThrough data (start timing firstLine data) 0 offset (Nat.zero_add _).symm
  simp only [Nat.zero_add] at sum
  exact sum

theorem line_start_ownBytes (firstLine : Int) (data : Bytes) :
    (start .ownBytes firstLine data).line = firstLine + rangeDelta (delta data 0) :=
  congrArg (firstLine + ·) (leadingDelta_pairs data)

theorem line_start_add_steps (timing : PairTiming) (firstLine : Int) (data : Bytes) (passed : Nat) :
    (start timing firstLine data).line + ∑ index ∈ Finset.range passed, step timing data index =
      lineAfter timing firstLine data (passed + ahead timing) := by
  cases timing with
  | afterBytes => rfl
  | ownBytes =>
      rw [line_start_ownBytes, lineAfter, ahead, Finset.sum_range_succ', Int.add_assoc,
        Int.add_comm (rangeDelta (delta data 0))]
      rfl

/-- The line depends on the number of pairs that end up to the offset. -/
theorem line_of_passed (timing : PairTiming) (firstLine : Int) {data : Bytes} {offset passed : Nat}
    (limit : passed ≤ count data)
    (reached : ∀ index < count data, reach data index ≤ offset ↔ index < passed) :
    ((start timing firstLine data).advance offset).line =
      lineAfter timing firstLine data (passed + ahead timing) := by
  have those : (Finset.range (count data)).filter (fun index => reach data index ≤ offset) =
      Finset.range passed := by
    ext index
    rw [Finset.mem_filter, Finset.mem_range, Finset.mem_range]
    constructor
    · intro ⟨inside, within⟩
      exact (reached index inside).mp within
    · intro before
      have inside := Nat.lt_of_lt_of_le before limit
      exact ⟨inside, (reached index inside).mpr before⟩
  rw [line_advance_start, those, line_start_add_steps]

/-- In a table of line deltas the changes of the pairs that end up to an offset count there. -/
theorem line_afterBytes (firstLine : Int) (data : Bytes) (offset : Nat) :
    ((start .afterBytes firstLine data).advance offset).line = firstLine +
      ∑ index ∈ Finset.range (count data) with reach data index ≤ offset,
        lineDelta (delta data index) :=
  line_advance_start .afterBytes firstLine data offset

/-- In a table of line ranges those of the pairs that start up to an offset count there. -/
theorem line_ownBytes (firstLine : Int) (data : Bytes) (offset : Nat) :
    ((start .ownBytes firstLine data).advance offset).line = firstLine +
      ∑ index ∈ Finset.range (count data) with index = 0 ∨ reach data (index - 1) ≤ offset,
        rangeDelta (delta data index) := by
  rw [line_advance_start, line_start_ownBytes, Int.add_assoc, Finset.sum_filter, Finset.sum_filter]
  congr 1
  cases pairs : count data with
  | zero =>
      rw [delta_of_count_le (Nat.le_of_eq pairs)]
      rfl
  | succ before =>
      -- The last pair has none behind it whose change could count.
      have last : step .ownBytes data before = 0 := by
        rw [step, delta_of_count_le (Nat.le_of_eq pairs)]
        rfl
      rw [Finset.sum_range_succ, last, ite_self, Finset.sum_range_succ', if_pos (.inl rfl),
        Int.add_zero, Int.add_comm]
      simp only [Nat.add_one_ne_zero, false_or, Nat.add_sub_cancel, step]

/-- A step forward leaves as many pairs at most, and fewer if it passes the threshold. -/
theorem pending_moved (cursor : LinePairCursor) (offset : Nat) (unread : cursor.pending ≠ []) :
    (cursor.moved offset).pending.length + (if cursor.threshold ≤ offset then 1 else 0) ≤
      cursor.pending.length := by
  obtain ⟨pair, rest, pending⟩ := List.exists_cons_of_ne_nil unread
  rw [moved, advance, pending, advanceThrough]
  split
  · exact Nat.succ_le_succ (advanceThrough_pending_le offset _ rest)
  · exact Nat.le_refl _

/-- A replay starts where a query is in order. -/
theorem ordered_of_replayFrom {cursor : LinePairCursor} {offset : Nat} {entries : List Position}
    (unread : cursor.pending ≠ []) (replayed : cursor.replayFrom offset = .ok entries) :
    Position.checkOrder cursor.last offset = .ok () := by
  cases ordered : Position.checkOrder cursor.last offset with
  | ok accepted => rfl
  | error error =>
      have refused : cursor.get offset = .error error := by
        rw [get, ordered]
        rfl
      rw [replayFrom, dif_neg unread] at replayed
      split at replayed
      · cases replayed
      · next answered =>
          rw [refused] at answered
          cases answered

/-- What a replay gives first, and then what it gives from the next threshold on. -/
theorem exists_of_replayFrom {cursor : LinePairCursor} {offset : Nat} {entries : List Position}
    (unread : cursor.pending ≠ []) (replayed : cursor.replayFrom offset = .ok entries) :
    ∃ others, (cursor.moved offset).replayFrom (cursor.moved offset).threshold = .ok others ∧
      entries = ⟨offset, .ofLine (cursor.advance offset).line⟩ :: others := by
  have answered := get_of_ordered cursor (ordered_of_replayFrom unread replayed)
  rw [replayFrom_of_get unread answered] at replayed
  cases rest : (cursor.moved offset).replayFrom (cursor.moved offset).threshold with
  | error error =>
      rw [rest] at replayed
      cases replayed
  | ok others =>
      rw [rest] at replayed
      cases replayed
      exact ⟨others, rfl, rfl⟩

/-- A replay has an entry for each pair at most, and one more if it starts before the threshold. -/
theorem length_replayFrom {cursor : LinePairCursor} {offset : Nat} {entries : List Position}
    (replayed : cursor.replayFrom offset = .ok entries) :
    entries.length ≤ cursor.pending.length + if cursor.threshold ≤ offset then 0 else 1 := by
  induction entries generalizing cursor offset with
  | nil => exact Nat.zero_le _
  | cons position entries induction =>
      have unread : cursor.pending ≠ [] := by
        intro finished
        rw [replayFrom_of_read_all finished] at replayed
        cases replayed
      have fewer := pending_moved cursor offset unread
      obtain ⟨others, rest, same⟩ := exists_of_replayFrom unread replayed
      cases same
      by_cases finished : (cursor.moved offset).pending = []
      · rw [replayFrom_of_read_all finished] at rest
        cases rest
        have some := List.length_pos_iff.mpr unread
        rw [List.length_singleton]
        omega
      · have bound := induction rest
        rw [if_pos (Nat.le_refl _)] at bound
        rw [List.length_cons]
        split <;> split at fewer <;> omega

theorem length_replayFrom_start {timing : PairTiming} {firstLine : Int} {data : Bytes}
    {entries : List Position}
    (replayed : (start timing firstLine data).replayFrom 0 = .ok entries) :
    entries.length ≤ count data + 1 := by
  have bound := length_replayFrom replayed
  have pending : (start timing firstLine data).pending.length = count data := length_pairs data
  rw [pending] at bound
  split at bound <;> omega

/-- The last entry of a table that has pairs has the line behind all of them. -/
theorem replayFrom_last (timing : PairTiming) (firstLine : Int) {data : Bytes}
    (nonempty : 0 < count data) {entries : List Position}
    (replayed : (start timing firstLine data).replayFrom 0 = .ok entries) :
    ∃ last, entries.getLast? = some last ∧
      last.span = .ofLine (lineAfter timing firstLine data (count data)) := by
  obtain ⟨others, same, -, -, told⟩ := replayFrom_zero timing firstLine data
  rw [replayed] at same
  cases same
  obtain ⟨bound, within⟩ :=
    (insert (reach data (count data - 1)) (entries.map Position.offset).toFinset).exists_le
  have passed : ∀ index < count data, reach data index ≤ bound ↔ index < count data := by
    intro index inside
    have final := within _ (Finset.mem_insert_self _ _)
    exact iff_of_true (Nat.le_trans (reach_mono data (Nat.le_sub_one_of_lt inside)) final) inside
  have all : entries.filter (fun position => position.offset ≤ bound) = entries := by
    rw [List.filter_eq_self]
    intro position member
    have listed : position.offset ∈ (entries.map Position.offset).toFinset :=
      List.mem_toFinset.mpr (List.mem_map_of_mem member)
    exact decide_eq_true (within _ (Finset.mem_insert_of_mem listed))
  have lastTold := told bound
  rw [Position.spanAt, all, line_of_passed timing firstLine (Nat.le_refl _) passed,
    lineAfter_of_count_le timing firstLine (Nat.le_add_right _ _)] at lastTold
  have unread : (start timing firstLine data).pending ≠ [] := by
    rw [← List.length_pos_iff]
    exact Nat.lt_of_lt_of_eq nonempty (length_pairs data).symm
  obtain ⟨rest, -, same⟩ := exists_of_replayFrom unread replayed
  cases same
  rw [List.getLast?_cons] at lastTold ⊢
  exact ⟨_, rfl, lastTold⟩

end LinePairCursor

namespace PositionTable

variable {table : PositionTable} {queries : List Nat} {spanOf : Nat → Span}

theorem expected_of_sorted {last : Option Nat} (sorted : queries.Pairwise (· ≤ ·))
    (timely : ∀ offset ∈ queries.head?, Position.checkOrder last offset = .ok ())
    (found : ∀ offset, table.find offset = .ok (spanOf offset)) :
    table.expected last queries = queries.map fun offset => .ok ⟨offset, spanOf offset⟩ := by
  induction queries generalizing last with
  | nil => rfl
  | cons offset queries induction =>
      obtain ⟨here, later⟩ := List.pairwise_cons.mp sorted
      rw [expected, timely offset rfl]
      simp only [found offset]
      rw [induction later, List.map_cons]
      intro next first
      exact Position.ordered_of_le (here next (List.mem_of_mem_head? first))

/-- Queries whose offsets do not decrease are all answered, each by what is sought there. -/
theorem answers_of_sorted (sorted : queries.Pairwise (· ≤ ·))
    (sought : ∀ offset, (PositionCursor.start table).seek offset = .ok (spanOf offset)) :
    (PositionCursor.start table).answers queries =
      queries.map fun offset => .ok ⟨offset, spanOf offset⟩ := by
  have agrees := (coherent table).seek
  rw [answers_of_seek queries fun offset _ => agrees offset]
  refine expected_of_sorted sorted (fun offset _ => PositionCursor.ordered_start table offset) ?_
  intro offset
  rw [← agrees offset, sought]

end PositionTable
end CodeScope

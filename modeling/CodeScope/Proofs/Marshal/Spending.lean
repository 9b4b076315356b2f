import CodeScope.Proofs.Marshal.Costs
import CodeScope.Proofs.Marshal.Opening
import CodeScope.Proofs.Marshal.Places

/-!
# What a value takes and keeps

A value takes the byte of its tag at least, and the bytes of its elements behind it. A tag reserves
one slot at most and its body records one text at most, so with the values inside there are at most
two of these things for each byte.
-/

namespace CodeScope

namespace ReaderState

/-- Number of slots and of interned texts. -/
def kept (state : ReaderState) : Nat :=
  state.slots.size + state.interned.size

/-- A tag that refers to a stored value is the next one. -/
def AtReference (state : ReaderState) : Prop :=
  ∃ byte tail, state.cursor.rest = byte :: tail ∧ Tag.ofByte? byte = some .reference

end ReaderState

theorem Value.elementBytes_of_atom {value : Value} (atomic : value.parts = []) :
    value.elementBytes = 0 := by
  cases value with
  | tuple items | list items | set items | frozenSet items => exact congrArg List.length atomic
  | dict entries =>
      cases entries with
      | nil => rfl
      | cons entry entries => cases atomic
  | _ => rfl

namespace Reading

variable {α β : Type} {profile : Profile} {inside : Reading (Option Value)}

/-- A part of a reader that, where it succeeds, keeps at most a number of things more. -/
def Grows (bound : Nat) (part : Reading α) : Prop :=
  ∀ (state next : ReaderState) (value : α), part state = .ok value next →
    next.kept ≤ state.kept + bound

namespace Grows

theorem ofTables {part : Reading α}
    (same : ∀ (state next : ReaderState) (value : α), part state = .ok value next →
      next.slots = state.slots ∧ next.interned = state.interned) : Grows 0 part := by
  intro state next value read
  obtain ⟨slots, interned⟩ := same state next value read
  rw [ReaderState.kept, slots, interned]
  exact Nat.le_refl _

theorem bind {few many : Nat} {part : Reading α} {after : α → Reading β} (first : Grows few part)
    (second : ∀ value, Grows many (after value)) : Grows (few + many) (part >>= after) := by
  intro state last result read
  obtain ⟨value, middle, inner, read⟩ := bind_eq_ok read
  have front := first _ _ _ inner
  have back := second value _ _ _ read
  omega

theorem weaken {few many : Nat} {part : Reading α} (grows : Grows few part) (fewer : few ≤ many) :
    Grows many part :=
  fun state next value read =>
    Nat.le_trans (grows state next value read) (Nat.add_le_add_left fewer _)

theorem pure (value : α) : Grows 0 (Pure.pure value : Reading α) :=
  ofTables fun _ _ _ read => by cases read; exact ⟨rfl, rfl⟩

theorem fail (error : Error) : Grows 0 (Reading.fail error : Reading α) :=
  fun _ _ _ read => by cases read

theorem scan (part : Scan α) : Grows 0 (Reading.scan part) :=
  ofTables fun state next value read => by
    rw [Reading.scan] at read
    split at read <;> cases read
    exact ⟨rfl, rfl⟩

theorem setSlot (index : Option Nat) (slot : Slot) : Grows 0 (Reading.setSlot index slot) := by
  intro state next value set
  cases index <;> cases set
  · exact Nat.le_refl _
  · rw [ReaderState.kept, Array.size_setIfInBounds]
    exact Nat.le_refl _

theorem resolve (index : UInt32) : Grows 0 (Reading.resolve index) :=
  ofTables fun state next value read => by
    rw [Reading.resolve] at read
    split at read <;> cases read <;> exact ⟨rfl, rfl⟩

theorem resolveInterned (index : UInt32) : Grows 0 (Reading.resolveInterned index) :=
  ofTables fun state next value read => by
    rw [Reading.resolveInterned] at read
    split at read <;> cases read
    exact ⟨rfl, rfl⟩

theorem reserveFor (byte : UInt8) : Grows 1 (Reading.reserveFor byte) := by
  intro state next slot reserved
  rw [Reading.reserveFor] at reserved
  split at reserved <;> cases reserved
  · show (state.slots.push .pending).size + state.interned.size ≤ _
    rw [Array.size_push, ReaderState.kept]
    omega
  · exact Nat.le_add_right _ _

/-- A tag reserves one slot at most. -/
theorem opening : Grows 1 Reading.opening := by
  have started : Grows 0 Reading.offset :=
    ofTables fun _ _ _ read => by cases read; exact ⟨rfl, rfl⟩
  refine (started.bind fun offset => (scan Scan.u8).bind fun byte => ?_ : Grows (0 + (0 + 1)) _)
  simp only
  split
  · exact (pure _).weaken (Nat.zero_le 1)
  · exact (pure _).weaken (Nat.zero_le 1)
  · exact ((scan Scan.u32).bind fun index => (resolve index).bind fun _ => pure _).weaken
      (Nat.zero_le 1)
  · exact ((scan Scan.u32).bind fun index => (resolveInterned index).bind fun _ => pure _).weaken
      (Nat.zero_le 1)
  · exact (reserveFor byte).bind fun slot => pure _
  · exact (reserveFor byte).bind fun slot => fail _

end Grows

theorem cursor_of_setSlot {index : Option Nat} {slot : Slot} {state next : ReaderState}
    {done : Unit} (set : setSlot index slot state = .ok done next) :
    next.cursor = state.cursor := by
  cases index <;> cases set <;> rfl

theorem offset_of_scan_bytes {count : Nat} {data : Bytes} {state next : ReaderState}
    (read : scan (Scan.bytes count) state = .ok data next) :
    next.cursor.offset = state.cursor.offset + count := by
  rcases Nat.lt_or_ge state.cursor.rest.length count with short | enough
  · rw [scan_bytes_of_short short] at read
    cases read
  · rw [scan_bytes_of_enough enough] at read
    cases read
    rfl

/-- A reader of values that takes a byte and keeps at most two things more for each byte. -/
def Spends (part : Reading (Option Value)) : Prop :=
  ∀ (state next : ReaderState) (answer : Option Value), part state = .ok answer next →
    state.cursor.offset < next.cursor.offset ∧
      next.kept + 2 * state.cursor.offset ≤ state.kept + 2 * next.cursor.offset

/-- What a script is known to take and to record is what its run takes and records at least. -/
theorem spends_run {accepts : Nat → Nat → α → Prop} {taken recorded : Nat} {script : Script α}
    {slot : Option Nat} {state next : ReaderState} {value : α} (spends : inside.Spends)
    (costs : script.Costs accepts taken recorded)
    (read : script.run inside slot state = .ok value next) :
    ∃ reached recordedThen, accepts reached recordedThen value ∧
      reached + state.cursor.offset ≤ taken + next.cursor.offset ∧
      next.kept + 2 * state.cursor.offset + recorded ≤
        state.kept + 2 * next.cursor.offset + recordedThen := by
  induction script generalizing state taken recorded with
  | done result =>
      cases read
      exact ⟨taken, recorded, costs, Nat.le_refl _, Nat.le_refl _⟩
  | fail error => cases read
  | takeBytes count further induction =>
      obtain ⟨data, middle, scanned, read⟩ := bind_eq_ok read
      have passed := offset_of_scan_bytes scanned
      have grown := Grows.scan _ _ _ _ scanned
      obtain ⟨reached, recordedThen, accepted, place, kept⟩ := induction data (costs data) read
      exact ⟨reached, recordedThen, accepted, by omega, by omega⟩
  | askOffset further induction =>
      obtain ⟨offset, middle, asked, read⟩ := bind_eq_ok read
      cases asked
      exact induction _ (costs _) read
  | askRemaining further induction =>
      obtain ⟨left, middle, asked, read⟩ := bind_eq_ok read
      cases asked
      exact induction _ (costs _) read
  | markFilling further induction =>
      obtain ⟨_, middle, marked, read⟩ := bind_eq_ok read
      have same := cursor_of_setSlot marked
      have grown := Grows.setSlot _ _ _ _ _ marked
      obtain ⟨reached, recordedThen, accepted, place, kept⟩ := induction costs read
      rw [same] at place kept
      exact ⟨reached, recordedThen, accepted, place, by omega⟩
  | recordText content further induction =>
      obtain ⟨_, middle, stored, read⟩ := bind_eq_ok read
      cases stored
      obtain ⟨reached, recordedThen, accepted, place, kept⟩ := induction costs read
      refine ⟨reached, recordedThen, accepted, place, ?_⟩
      simp only [ReaderState.kept, Array.size_push] at kept ⊢
      omega
  | askChild further induction =>
      obtain ⟨answer, middle, asked, read⟩ := bind_eq_ok read
      obtain ⟨passed, grown⟩ := spends _ _ _ asked
      obtain ⟨reached, recordedThen, accepted, place, kept⟩ := induction answer (costs answer) read
      exact ⟨reached, recordedThen, accepted, by omega, by omega⟩

/-- What a tag and the body behind it take and keep. -/
theorem tagged_takes (spends : inside.Spends) {state next : ReaderState} {answer : Option Value}
    (read : tagged profile inside state = .ok answer next) :
    state.cursor.offset < next.cursor.offset ∧
      next.kept + 2 * state.cursor.offset ≤ state.kept + 2 * next.cursor.offset ∧
      (¬ state.AtReference →
        ∀ value ∈ answer, value.elementBytes + state.cursor.offset < next.cursor.offset) := by
  obtain ⟨opened, middle, started, read⟩ := bind_eq_ok read
  have passed := lt_of_opening started
  have grown := Grows.opening _ _ _ started
  have opens := opens_opening state
  rw [started] at opens
  cases opens with
  | atom atomic =>
      cases read
      refine ⟨passed, by omega, fun _ value known => ?_⟩
      rw [Value.elementBytes_of_atom (atomic value known)]
      omega
  | stored stream isReference =>
      cases read
      refine ⟨passed, by omega, fun other => absurd ⟨_, _, stream, ?_⟩ other⟩
      rw [Tag.ofByte?, isReference]
      rfl
  | body =>
      obtain ⟨value, last, ran, read⟩ := bind_eq_ok read
      obtain ⟨_, final, stored, read⟩ := bind_eq_ok read
      cases read
      have same := cursor_of_setSlot stored
      have kept := Grows.setSlot _ _ _ _ _ stored
      obtain ⟨reached, recorded, ⟨elements, few⟩, place, spent⟩ :=
        spends_run spends (Script.costs_body profile _ _) ran
      rw [same]
      refine ⟨by omega, by omega, fun _ other known => ?_⟩
      cases known
      omega

theorem Spends.optional (profile : Profile) (levels : Nat) :
    (Reading.optional profile levels).Spends := by
  induction levels with
  | zero =>
      intro state next answer read
      cases read
  | succ levels induction =>
      intro state next answer read
      obtain ⟨inner, deeper, rfl⟩ := nested_eq_ok read
      obtain ⟨passed, kept, -⟩ := tagged_takes induction deeper
      exact ⟨passed, kept⟩

end Reading
end CodeScope

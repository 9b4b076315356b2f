import CodeScope.Proofs.Marshal.Script
import CodeScope.Proofs.Marshal.Writer

/-!
# Readers that follow a writer

A reader follows a writer when every value that the writer can refer to is in the same slot of the
reader. A part of the reader reads some bytes when, wherever they stand, it succeeds on them, takes
all of them and nothing more, and follows the writer again. Such parts can be put in sequence.
-/

namespace CodeScope
namespace Value

theorem unplacedAll_eq_map (values : List Value) : unplacedAll values = values.map unplaced := by
  induction values with
  | nil => rfl
  | cons value rest induction => rw [unplacedAll, induction, List.map_cons]

theorem unplacedEntries_eq_map (entries : List (Value × Value)) :
    unplacedEntries entries = entries.map fun entry => (entry.1.unplaced, entry.2.unplaced) := by
  induction entries with
  | nil => rfl
  | cons entry rest induction => rw [unplacedEntries, induction, List.map_cons]

theorem SameAs.bytes {data : Bytes} {copy : Value} (same : copy.SameAs (.bytes data)) :
    copy = .bytes data := by
  cases copy <;> simp_all [SameAs, unplaced]

theorem SameAs.tuple {items : List Value} {copy : Value} (same : copy.SameAs (.tuple items)) :
    ∃ copies, copy = .tuple copies ∧ copies.map unplaced = items.map unplaced := by
  cases copy <;> simp_all [SameAs, unplaced, unplacedAll_eq_map]

@[simp] theorem text?_unplaced (value : Value) : value.unplaced.text? = value.text? := by
  cases value <;> rfl

theorem SameAs.text? {value copy : Value} (same : copy.SameAs value) :
    copy.text? = value.text? := by
  rw [← text?_unplaced copy, same, text?_unplaced]

theorem map_text?_of_unplaced {copies values : List Value}
    (same : copies.map unplaced = values.map unplaced) :
    copies.map text? = values.map text? := by
  have onUnplaced : text? = text? ∘ unplaced := by
    funext value
    exact (text?_unplaced value).symm
  rw [onUnplaced, ← List.map_map, ← List.map_map, same]

/-- Code units that differ in nothing but their places and those of their constants. -/
theorem sameAs_code {info : CodeInfo} {copies consts : List Value} {site : Nat}
    (same : copies.map unplaced = consts.map unplaced) :
    (code { info with site := site } copies).SameAs (.code info consts) := by
  simp only [SameAs, unplaced, unplacedAll_eq_map, same]

theorem text?_eq_some {value : Value} {content : String} (isText : value.text? = some content) :
    ∃ interned, value = .text content interned := by
  cases value <;> simp_all [Value.text?]

end Value

namespace Writer

/-- A reader in whose slots the complete values of a writer are. -/
structure Follows (writer : WriterState) (reader : ReaderState) : Prop where
  size : reader.slots.size = writer.slots.length
  ready : ∀ {index : Nat} {value : Value}, writer.slots[index]? = some (some value) →
    ∃ copy, reader.slots[index]? = some (.ready copy) ∧ copy.SameAs value
  interned : reader.interned.toList = writer.interned

theorem follows_start (data : Bytes) : Follows .start (.start data) where
  size := rfl
  ready := by simp [WriterState.start]
  interned := rfl

theorem Follows.move {writer : WriterState} {reader : ReaderState} (follows : Follows writer reader)
    (cursor : Cursor) (depth : Nat) :
    Follows writer { reader with cursor := cursor, depth := depth } :=
  ⟨follows.size, follows.ready, follows.interned⟩

theorem Follows.record {writer : WriterState} {reader : ReaderState}
    (follows : Follows writer reader) (content : String) :
    Follows (writer.record content) { reader with interned := reader.interned.push content } where
  size := follows.size
  ready := follows.ready
  interned := by simp [WriterState.record, follows.interned]

theorem Follows.reserve {writer : WriterState} {reader : ReaderState}
    (follows : Follows writer reader) :
    Follows writer.reserve { reader with slots := reader.slots.push .pending } where
  size := by simp [WriterState.reserve, follows.size]
  ready := by
    intro index value complete
    have inside : index < writer.slots.length := by
      by_contra outside
      rw [WriterState.reserve, List.getElem?_append_right (Nat.le_of_not_lt outside),
        List.getElem?_singleton] at complete
      split at complete <;> simp at complete
    rw [WriterState.reserve, List.getElem?_append_left inside] at complete
    obtain ⟨copy, stored, same⟩ := follows.ready complete
    refine ⟨copy, ?_, same⟩
    have kept : index < reader.slots.size := follows.size ▸ inside
    rw [Array.getElem?_push_lt kept, ← Array.getElem?_eq_getElem kept]
    exact stored
  interned := follows.interned

/-- Opening the slot of a value that is not complete changes nothing that can be referred to. -/
theorem Follows.fill {writer : WriterState} {reader : ReaderState} {own : Nat}
    (follows : Follows writer reader) (incomplete : writer.slots[own]? = some none) :
    Follows writer { reader with slots := reader.slots.setIfInBounds own .filling } where
  size := by rw [Array.size_setIfInBounds, follows.size]
  ready := by
    intro index value complete
    obtain ⟨copy, stored, same⟩ := follows.ready complete
    refine ⟨copy, ?_, same⟩
    have other : own ≠ index := by
      rintro rfl
      rw [incomplete] at complete
      simp at complete
    rw [Array.getElem?_setIfInBounds_ne other]
    exact stored
  interned := follows.interned

theorem Follows.complete {writer : WriterState} {reader : ReaderState} {own : Nat}
    {value copy : Value} (follows : Follows writer reader) (inside : own < reader.slots.size)
    (same : copy.SameAs value) :
    Follows (writer.complete own value)
      { reader with slots := reader.slots.setIfInBounds own (.ready copy) } where
  size := by simp [WriterState.complete, follows.size]
  ready := by
    intro index original complete
    by_cases equal : own = index
    · subst equal
      rw [WriterState.complete, List.getElem?_set_self (follows.size ▸ inside)] at complete
      simp only [Option.some.injEq] at complete
      subst complete
      exact ⟨copy, Array.getElem?_setIfInBounds_self_of_lt inside, same⟩
    · rw [WriterState.complete, List.getElem?_set_ne equal] at complete
      obtain ⟨other, stored, identical⟩ := follows.ready complete
      refine ⟨other, ?_, identical⟩
      rw [Array.getElem?_setIfInBounds_ne equal]
      exact stored
  interned := follows.interned

/--
A part of a reader that reads `data`: it follows a writer from the state before to the one after the
data, takes the data whatever comes behind, and has a result that is accepted.
-/
def Reads {α : Type} (part : Reading α) (before : WriterState) (data : Bytes) (accepts : α → Prop)
    (after : WriterState) : Prop :=
  ∀ (state : ReaderState) (rest : Bytes), Follows before state → state.cursor.rest = data ++ rest →
    ∃ value next, part state = .ok value next ∧ accepts value ∧ Follows after next ∧
      next.cursor.rest = rest ∧ state.slots.size ≤ next.slots.size

namespace Reads

variable {α β : Type} {before middle after : WriterState} {front back data : Bytes}
  {accepts : α → Prop} {passes : β → Prop}

theorem pure {value : α} (accepted : accepts value) :
    Reads (Pure.pure value) after [] accepts after := by
  intro state rest follows stream
  exact ⟨value, state, rfl, accepted, follows, by simpa using stream, Nat.le_refl _⟩

theorem bind {part : Reading α} {next : α → Reading β}
    (first : Reads part before front accepts middle)
    (second : ∀ value, accepts value → Reads (next value) middle back passes after) :
    Reads (part >>= next) before (front ++ back) passes after := by
  intro state rest follows stream
  rw [List.append_assoc] at stream
  obtain ⟨value, inner, read, accepted, followsInner, left, grown⟩ := first state _ follows stream
  obtain ⟨result, final, readFinal, passed, followsFinal, leftFinal, grownFinal⟩ :=
    second value accepted inner rest followsInner left
  refine ⟨result, final, ?_, passed, followsFinal, leftFinal, Nat.le_trans grown grownFinal⟩
  rw [Reading.bind_of_ok read, readFinal]

theorem map {part : Reading α} {convert : α → β} (reads : Reads part before data accepts after)
    (implies : ∀ value, accepts value → passes (convert value)) :
    Reads (convert <$> part) before data passes after := by
  intro state rest follows stream
  obtain ⟨value, next, read, accepted, others⟩ := reads state rest follows stream
  exact ⟨convert value, next, Reading.map_of_ok read, implies value accepted, others⟩

theorem bytes (data : Bytes) (state : WriterState) :
    Reads (Reading.scan (Scan.bytes data.length)) state data (· = data) state := by
  intro reader rest follows stream
  have read := Reading.scan_bytes_of_stream stream
  exact ⟨data, _, read, rfl, follows.move _ reader.depth, rfl, Nat.le_refl _⟩

theorem littleEndian (data : Bytes) (state : WriterState) :
    Reads (Reading.scan (Scan.littleEndian data.length)) state data (· = data.littleEndian)
      state := by
  rw [Reading.scan_littleEndian]
  exact map (bytes data state) fun taken same => congrArg Bytes.littleEndian same

theorem byte (byte : UInt8) (state : WriterState) :
    Reads (Reading.scan Scan.u8) state [byte] (· = byte) state := by
  rw [Scan.u8, Reading.scan_map]
  refine map (littleEndian [byte] state) ?_
  rintro number rfl
  simp [Bytes.littleEndian]

/-- An index that is written in four bytes. -/
theorem index {index : Nat} (small : index < 2 ^ 32) (state : WriterState) :
    Reads (Reading.scan Scan.u32) state (Bytes.digits 4 index) (·.toNat = index) state := by
  rw [Scan.u32, Reading.scan_map]
  refine map (littleEndian (Bytes.digits 4 index) state) ?_
  rintro number rfl
  rw [Bytes.littleEndian_digits_of_lt small]
  exact UInt32.toNat_ofNat_of_lt' small

end Reads
end Writer
end CodeScope

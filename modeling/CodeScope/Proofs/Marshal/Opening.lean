import CodeScope.Proofs.Marshal.Counterpart
import CodeScope.Proofs.Marshal.References

/-!
# What a tag leaves to be read

A tag leaves nothing to be read if it tells a value without parts or refers to a stored value, and
otherwise the body of its form. Only a reference tells a stored value, and only the tag of a code
unit leaves the body of one.
-/

namespace CodeScope
namespace Tag

variable {byte : UInt8}

theorem toNat_ofNat_mod (byte : UInt8) :
    (Char.ofNat (byte.toNat % 128)).toNat = byte.toNat % 128 := by
  have small : byte.toNat % 128 < 128 := Nat.mod_lt _ (by decide)
  have valid : (byte.toNat % 128).isValidChar := .inl (by omega)
  rw [Char.ofNat, dif_pos valid]
  rfl

/-- A tag has one character only. -/
theorem ofChar?_inj {char other : Char} {tag : Tag} (named : ofChar? char = some tag)
    (same : ofChar? other = some tag) : char = other := by
  unfold ofChar? at named
  split at named <;> cases named <;>
    · unfold ofChar? at same
      split at same <;> first | rfl | cases same

theorem byte_of_tag {tag : Tag} {char : Char} (tagged : ofByte? byte = some tag)
    (named : ofChar? char = some tag) : byte.toNat % 128 = char.toNat := by
  rw [← toNat_ofNat_mod, ofChar?_inj tagged named]

end Tag

/-- Whether an event is the tag of a character. -/
def Event.isTag (char : Char) : Event → Bool
  | tag _ state => state.cursor.rest.head?.any fun byte => byte.toNat % 128 == char.toNat
  | returned _ _ => false

theorem Event.isTag_of_stream {enclosing : List OpenValue} {state : ReaderState} {byte : UInt8}
    {tail : Bytes} {char : Char} (stream : state.cursor.rest = byte :: tail)
    (tagged : byte.toNat % 128 = char.toNat) : (tag enclosing state).isTag char = true := by
  simp [isTag, stream, tagged]

theorem Event.byte_of_isTag {event : Event} {byte : UInt8} {tail : Bytes} {char : Char}
    (isTag : event.isTag char = true) (stream : event.state.cursor.rest = byte :: tail) :
    byte.toNat % 128 = char.toNat := by
  cases event with
  | tag enclosing state =>
      have front : state.cursor.rest = byte :: tail := stream
      simpa [Event.isTag, front] using isTag
  | returned value state => cases isTag

namespace Reading

variable {state : ReaderState}

/-- What can come of the tag at the front of a stream. -/
inductive Opens (state : ReaderState) : EStateM.Result Error ReaderState Opening → Prop
  | failed (error : Error) (next : ReaderState) : Opens state (.error error next)
  | atom {answer : Option Value} {next : ReaderState}
      (atomic : ∀ value ∈ answer, value.parts = []) (slots : next.slots = state.slots)
      (plain : ∀ value ∈ answer, value.code? = none) : Opens state (.ok (.settled answer) next)
  | stored {byte : UInt8} {tail : Bytes} {index : Nat} {value : Value} {next : ReaderState}
      (stream : state.cursor.rest = byte :: tail) (isReference : byte.toNat % 128 = 'r'.toNat)
      (stored : state.slots[index]? = some (.ready value)) (slots : next.slots = state.slots) :
      Opens state (.ok (.settled (some value)) next)
  | body {byte : UInt8} {tail : Bytes} {form : BodyForm} {site : TagSite} {slot : Option Nat}
      {next : ReaderState} (stream : state.cursor.rest = byte :: tail)
      (tagged : Tag.ofByte? byte = some (.body form))
      (slots : next.slots = state.slots ∨ next.slots = state.slots.push .pending)
      (placed : site.offset = state.cursor.offset) : Opens state (.ok (.body form site slot) next)

theorem opens_resolve {byte : UInt8} {tail : Bytes} {index : UInt32} {middle : ReaderState}
    (stream : state.cursor.rest = byte :: tail) (isReference : byte.toNat % 128 = 'r'.toNat)
    (slots : middle.slots = state.slots) :
    Opens state ((resolve index >>= fun value => pure (.settled (some value))) middle) := by
  cases stored : state.slots[index.toNat]? with
  | none =>
      have read : resolve index middle = .error (.invalidReference index) middle := by
        simp only [resolve, slots, stored]
      rw [bind_of_error read]
      exact .failed _ _
  | some slot =>
      cases slot with
      | pending =>
          have read : resolve index middle = .error (.incompleteReference index) middle := by
            simp only [resolve, slots, stored]
          rw [bind_of_error read]
          exact .failed _ _
      | filling =>
          have read : resolve index middle = .ok (.reference index) middle := by
            simp only [resolve, slots, stored]
          rw [bind_of_ok read]
          exact .atom (by simp [Value.parts]) slots (by simp [Value.code?])
      | ready value =>
          have read : resolve index middle = .ok value middle := by
            simp only [resolve, slots, stored]
          rw [bind_of_ok read]
          exact .stored stream isReference stored slots

theorem opens_resolveInterned {index : UInt32} {middle : ReaderState}
    (slots : middle.slots = state.slots) :
    Opens state ((resolveInterned index >>= fun value => pure (.settled (some value))) middle) := by
  cases found : middle.interned[index.toNat]? with
  | none =>
      have read : resolveInterned index middle = .error (.invalidReference index) middle := by
        simp only [resolveInterned, found]
      rw [bind_of_error read]
      exact .failed _ _
  | some content =>
      have read : resolveInterned index middle = .ok (.text content true) middle := by
        simp only [resolveInterned, found]
      rw [bind_of_ok read]
      exact .atom (by simp [Value.parts]) slots (by simp [Value.code?])

/-- The number after a tag that refers to something is read before what it stands for. -/
theorem opens_number {middle : ReaderState} {follow : UInt32 → Reading Opening}
    (slots : middle.slots = state.slots)
    (followed : ∀ index next, next.slots = state.slots → Opens state (follow index next)) :
    Opens state ((scan Scan.u32 >>= follow) middle) := by
  cases number : scan Scan.u32 middle with
  | error error next =>
      rw [bind_of_error number]
      exact .failed error next
  | ok index next =>
      rw [bind_of_ok number]
      exact followed index next ((scan_slots number).trans slots)

theorem opens_body {byte : UInt8} {tail : Bytes} {form : BodyForm} {site : TagSite}
    {middle : ReaderState} (stream : state.cursor.rest = byte :: tail)
    (tagged : Tag.ofByte? byte = some (.body form)) (slots : middle.slots = state.slots)
    (placed : site.offset = state.cursor.offset) :
    Opens state ((reserveFor byte >>= fun slot => pure (.body form site slot)) middle) := by
  rw [reserveFor]
  split
  · have reserved : (some <$> reserve) middle =
        .ok (some middle.slots.size) { middle with slots := middle.slots.push .pending } := rfl
    have pushed : middle.slots.push .pending = state.slots.push .pending := by rw [slots]
    rw [bind_of_ok reserved]
    exact .body stream tagged (.inr pushed) placed
  · exact .body stream tagged (.inl slots) placed

theorem opens_opening (state : ReaderState) : Opens state (opening state) := by
  have started : offset state = .ok state.cursor.offset state := rfl
  rw [opening, bind_of_ok started]
  cases read : scan Scan.u8 state with
  | error error next =>
      rw [bind_of_error read]
      exact .failed error next
  | ok byte next =>
      rw [bind_of_ok read]
      have slots := scan_slots read
      obtain ⟨tail, stream⟩ := rest_eq_of_scan_u8 read
      cases tagged : Tag.ofByte? byte with
      | none =>
          simp only [reserveFor]
          split <;> exact .failed _ _
      | some tag =>
          cases tag with
          | null => exact .atom (by simp) slots (by simp)
          | constant value =>
              obtain ⟨empty, plain, -⟩ := Parallel.atom_of_constant tagged
              exact .atom (by simpa using empty) slots (by simpa using plain)
          | reference =>
              apply opens_number slots
              intro index start
              exact opens_resolve stream (Tag.byte_of_tag tagged rfl)
          | internedText =>
              apply opens_number slots
              intro index start
              exact opens_resolveInterned
          | body form => exact opens_body stream tagged slots rfl

end Reading
end CodeScope

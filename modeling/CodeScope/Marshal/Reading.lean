import CodeScope.Marshal.Tag

/-!
# Reader state

A reader moves through one stream. It keeps the values that were given a slot, so that later parts
of the stream can refer to them, and the texts that were interned. A slot is reserved before the
body of its value is read, so slots are numbered in the order of their tags. While a list, a set or
a dictionary is being filled its slot yields a reference to it; any other value can be referred to
only when it is complete. A reader that fails stays in the state in which it failed.
-/

namespace CodeScope

/-- A place in the reference table. -/
inductive Slot where
  /-- The value is not complete and cannot be referred to. -/
  | pending
  /-- The value is a container that is being filled. -/
  | filling
  /-- The value is complete. -/
  | ready (value : Value)

/-- The state of a reader. -/
structure ReaderState where
  /-- Place in the stream. -/
  cursor : Cursor
  /-- Reference table. -/
  slots : Array Slot
  /-- Interned texts. -/
  interned : Array String
  /-- Number of values that have been begun and not ended. -/
  depth : Nat

namespace ReaderState

/-- The state before the first value of a stream. -/
def start (data : Bytes) : ReaderState := ⟨Cursor.start data, #[], #[], 0⟩

end ReaderState

/-- A part of a reader: it goes on from a state and ends in one, with a result or an error. -/
abbrev Reading := EStateM Error ReaderState

namespace Reading

/-- Read bytes from the stream. A read that fails leaves the reader where it was. -/
def scan {α : Type} (part : Scan α) : Reading α := fun state =>
  match part state.cursor with
  | .ok (value, cursor) => .ok value { state with cursor := cursor }
  | .error error => .error error state

/-- Give up with an error. -/
def fail {α : Type} (error : Error) : Reading α := fun state => .error error state

/-- Offset of the next byte. -/
def offset : Reading Nat := fun state => .ok state.cursor.offset state

/-- Number of bytes that are left. -/
def remaining : Reading Nat := fun state => .ok state.cursor.remaining state

/-- Reserve the next slot. -/
def reserve : Reading Nat := fun state =>
  .ok state.slots.size { state with slots := state.slots.push .pending }

/-- Reserve the next slot if the tag byte asks for one. -/
def reserveFor (byte : UInt8) : Reading (Option Nat) :=
  if 128 ≤ byte.toNat then some <$> reserve else pure none

/-- Put something into a slot, if there is one. -/
def setSlot (index : Option Nat) (slot : Slot) : Reading Unit := fun state =>
  match index with
  | some index => .ok () { state with slots := state.slots.setIfInBounds index slot }
  | none => .ok () state

/-- Record an interned text. -/
def intern (content : String) : Reading Unit := fun state =>
  .ok () { state with interned := state.interned.push content }

/-- What a reference to a slot stands for. -/
def resolve (index : UInt32) : Reading Value := fun state =>
  match state.slots[index.toNat]? with
  | some (.ready value) => .ok value state
  | some .filling => .ok (.reference index) state
  | some .pending => .error (.incompleteReference index) state
  | none => .error (.invalidReference index) state

/-- The interned text with a number. -/
def resolveInterned (index : UInt32) : Reading Value := fun state =>
  match state.interned[index.toNat]? with
  | some content => .ok (.text content true) state
  | none => .error (.invalidReference index) state

/-- A part that is one level deeper. The level ends with it, also where it fails. -/
def nested {α : Type} (part : Reading α) : Reading α := fun state =>
  match part { state with depth := state.depth + 1 } with
  | .ok value state => .ok value { state with depth := state.depth - 1 }
  | .error error state => .error error { state with depth := state.depth - 1 }

end Reading
end CodeScope

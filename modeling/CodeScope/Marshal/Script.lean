import CodeScope.Marshal.Reading

/-!
# Scripts

The body of a value is read by a script: a tree of requests to the reader, with a branch for every
answer. A script asks for bytes and for the values inside its own, but it neither sees the reference
table nor reads those values itself. What holds of every request therefore holds of every script.
-/

namespace CodeScope

/-- What a script asks for next. -/
inductive Script (α : Type) where
  /-- Nothing more. -/
  | done (result : α)
  /-- To give up. -/
  | fail (error : Error)
  /-- The next bytes. -/
  | takeBytes (count : Nat) (next : Bytes → Script α)
  /-- The offset of the next byte. -/
  | askOffset (next : Nat → Script α)
  /-- The number of bytes that are left. -/
  | askRemaining (next : Nat → Script α)
  /-- To open its value to references from inside. -/
  | markFilling (next : Script α)
  /-- To record an interned text. -/
  | recordText (content : String) (next : Script α)
  /-- The next value inside its own, or the empty tag. -/
  | askChild (next : Option Value → Script α)

namespace Script

/-- Go on with another script. -/
def bind {α β : Type} : Script α → (α → Script β) → Script β
  | done result, after => after result
  | fail error, _ => fail error
  | takeBytes count next, after => takeBytes count fun data => (next data).bind after
  | askOffset next, after => askOffset fun offset => (next offset).bind after
  | askRemaining next, after => askRemaining fun remaining => (next remaining).bind after
  | markFilling next, after => markFilling (next.bind after)
  | recordText content next, after => recordText content (next.bind after)
  | askChild next, after => askChild fun answer => (next answer).bind after

instance : Monad Script where
  pure := done
  bind := bind

/-- The next `count` bytes. -/
def bytes (count : Nat) : Script Bytes := takeBytes count done

/-- The number that the next `width` bytes write, the least significant first. -/
def number (width : Nat) : Script Nat := do
  return Bytes.littleEndian (← bytes width)

/-- A number of four bytes in two's complement. -/
def i32 : Script Int32 := do
  return Int32.ofNat (← number 4)

/-- Offset of the next byte. -/
def offset : Script Nat := askOffset done

/-- Number of bytes that are left. -/
def remaining : Script Nat := askRemaining done

/-- Open the value to references from inside. -/
def fill : Script Unit := markFilling (done ())

/-- Record an interned text. -/
def intern (content : String) : Script Unit := recordText content (done ())

/-- The next value inside, or nothing for the empty tag. -/
def child : Script (Option Value) := askChild done

/-- The next value inside, which must not be the empty tag. -/
def required : Script Value := do
  let offset ← offset
  match ← child with
  | some value => return value
  | none => fail (.malformedValue Tag.nullByte offset)

/-- Repeat a script a number of times, after the results in `read`, the last one first. -/
def timesAfter {α : Type} (part : Script α) : Nat → List α → Script (List α)
  | 0, read => return read.reverse
  | count + 1, read => do
      let value ← part
      timesAfter part count (value :: read)

/-- Repeat a script a number of times. -/
def times {α : Type} (part : Script α) (count : Nat) : Script (List α) :=
  timesAfter part count []

/--
Answer the requests of a script. `inside` reads the values inside its own, and `slot` is the slot
of its own value.
-/
def run {α : Type} (inside : Reading (Option Value)) (slot : Option Nat) : Script α → Reading α
  | done result => pure result
  | fail error => Reading.fail error
  | takeBytes count next => do
      let data ← Reading.scan (Scan.bytes count)
      run inside slot (next data)
  | askOffset next => do
      let offset ← Reading.offset
      run inside slot (next offset)
  | askRemaining next => do
      let remaining ← Reading.remaining
      run inside slot (next remaining)
  | markFilling next => do
      Reading.setSlot slot .filling
      run inside slot next
  | recordText content next => do
      Reading.intern content
      run inside slot next
  | askChild next => do
      let answer ← inside
      run inside slot (next answer)

end Script
end CodeScope

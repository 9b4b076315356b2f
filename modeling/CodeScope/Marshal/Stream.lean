import CodeScope.Marshal.Fields
import CodeScope.Marshal.Leaf

/-!
# Reading values

Values are read from their tag on. The reader of the values inside a value is a parameter; the whole
reader supplies itself with one level of nesting less, and fails where no level is left.
-/

namespace CodeScope
namespace Script

/-- A number of values. -/
def items (count : Nat) : Script (List Value) :=
  times required count

/--
Keys with their values up to the empty tag, after those in `read`, the last one first. There are
fewer than `rounds` of them.
-/
def entriesAfter : Nat → List (Value × Value) → Script (List (Value × Value))
  | 0, _ => do fail (.truncated 1 (← offset))
  | rounds + 1, read => do
      match ← child with
      | none => return read.reverse
      | some key =>
          let value ← required
          entriesAfter rounds ((key, value) :: read)

/--
Keys with their values up to the empty tag. Every round takes a byte or fails, so one round more
than there are bytes is never needed.
-/
def entries : Script (List (Value × Value)) := do
  entriesAfter ((← remaining) + 1) []

/-- The body of a value. -/
def body (profile : Profile) (site : TagSite) : BodyForm → Script Value
  | .int32 => Value.int32 <$> i32
  | .int64 => do return .int64 (Int64.ofNat (← number 8))
  | .long => Value.long <$> long site
  | .float form => Value.float <$> float site.offset form
  | .complex form => do
      let real ← float site.offset form
      let imaginary ← float site.offset form
      return .complex real imaginary
  | .bytes => Value.bytes <$> byteString site
  | .text form interned => do
      let content ← text site form
      if interned then
        intern content
      return .text content interned
  | .tuple true => do
      let size ← number 1
      Value.tuple <$> items size
  | .tuple false => do
      let size ← length site
      Value.tuple <$> items size
  | .list => do
      let size ← length site
      fill
      Value.list <$> items size
  | .set => do
      let size ← length site
      fill
      Value.set <$> items size
  | .frozenSet => do
      let size ← length site
      Value.frozenSet <$> items size
  | .dict => do
      fill
      Value.dict <$> entries
  | .code => CodeUnit.toValue <$> code profile site.offset

end Script

/-- What is left to be read of a value after its tag. -/
inductive Opening where
  /-- Nothing: the value is known, or the tag is the empty one. -/
  | settled (value : Option Value)
  /-- A body, for a value that may have a slot. -/
  | body (form : BodyForm) (site : TagSite) (slot : Option Nat)

namespace Reading

/--
A tag, with the number after it if it refers to something. A slot is reserved if it needs one.
-/
def opening : Reading Opening := do
  let offset ← offset
  let byte ← scan Scan.u8
  let site : TagSite := ⟨UInt8.ofNat (byte.toNat % 128), offset⟩
  match Tag.ofByte? byte with
  | some .null => return .settled none
  | some (.constant value) => return .settled (some value)
  | some .reference => do
      let index ← scan Scan.u32
      let value ← resolve index
      return .settled (some value)
  | some .internedText => do
      let index ← scan Scan.u32
      let value ← resolveInterned index
      return .settled (some value)
  | some (.body form) => do
      let slot ← reserveFor byte
      return .body form site slot
  | none => do
      let _ ← reserveFor byte
      fail site.malformed

/-- A value from its tag on; nothing for the empty tag. -/
def tagged (profile : Profile) (inside : Reading (Option Value)) : Reading (Option Value) := do
  match ← opening with
  | .settled value => return value
  | .body form site slot => do
      let value ← (Script.body profile site form).run inside slot
      setSlot slot (.ready value)
      return some value

/-- A value with at most `levels` levels of nesting; nothing for the empty tag. -/
def optional (profile : Profile) : Nat → Reading (Option Value)
  | 0 => do
      let offset ← offset
      fail (.nestedTooDeep offset)
  | levels + 1 => nested (tagged profile (optional profile levels))

/-- One value. -/
def value (profile : Profile) : Reading Value := fun state =>
  Script.required.run (optional profile (nestingLimit - state.depth)) none state

/-- One value after which the stream ends. -/
def topLevel (profile : Profile) : Reading Value := do
  let value ← value profile
  match ← remaining with
  | 0 => return value
  | left => fail (.trailingData left)

end Reading

namespace Value

/-- The one value of a stream that a version wrote. -/
def ofBytes (version : Version) (data : Bytes) : Except Error Value := do
  let profile ← Profile.ofVersion version
  match Reading.topLevel profile (ReaderState.start data) with
  | .ok value _ => return value
  | .error error _ => throw error

end Value
end CodeScope

/-!
# UTF-8

Decoding of bytes to characters, one byte at a time. A byte that cannot go on the sequence before
it ends that sequence, which is then malformed, and may start the next one. A malformed sequence
stands for one replacement character, so decoding never fails; a byte string is well formed if it
has none of them.
-/

namespace CodeScope
namespace Utf8

/-- A sequence of which some bytes have been read, and at least one is missing. -/
structure Sequence where
  /-- Number of bytes that must follow the next one. -/
  missing : Nat
  /-- Least value of the next byte. -/
  low : UInt8
  /-- Greatest value of the next byte. -/
  high : UInt8
  /-- Number that the bytes so far write. -/
  code : Nat
  deriving DecidableEq, Repr

/-- What a byte makes of the sequence that it belongs to. -/
inductive Step where
  /-- A whole character. -/
  | char (char : Char)
  /-- A sequence that is not complete. -/
  | opens (sequence : Sequence)
  /-- Nothing: the byte starts no sequence. -/
  | stray
  deriving Repr

/--
What a byte starts. The bounds on the byte after it exclude long forms of short sequences,
surrogates, and numbers above the greatest code point.
-/
def lead (byte : UInt8) : Step :=
  let code := byte.toNat
  if code < 0x80 then .char (Char.ofNat code)
  else if code < 0xC2 then .stray
  else if code < 0xE0 then .opens ⟨0, 0x80, 0xBF, code % 32⟩
  else if code = 0xE0 then .opens ⟨1, 0xA0, 0xBF, 0⟩
  else if code = 0xED then .opens ⟨1, 0x80, 0x9F, 13⟩
  else if code < 0xF0 then .opens ⟨1, 0x80, 0xBF, code % 16⟩
  else if code = 0xF0 then .opens ⟨2, 0x90, 0xBF, 0⟩
  else if code < 0xF4 then .opens ⟨2, 0x80, 0xBF, code % 8⟩
  else if code = 0xF4 then .opens ⟨2, 0x80, 0x8F, 4⟩
  else .stray

namespace Sequence

/-- Whether a byte can go on a sequence. -/
def admits (sequence : Sequence) (byte : UInt8) : Bool :=
  sequence.low ≤ byte && byte ≤ sequence.high

/-- What a sequence becomes with one more byte. -/
def extend (sequence : Sequence) (byte : UInt8) : Step :=
  let code := 64 * sequence.code + byte.toNat % 64
  match sequence.missing with
  | 0 => .char (Char.ofNat code)
  | missing + 1 => .opens ⟨missing, 0x80, 0xBF, code⟩

end Sequence

/-- The pieces that a step completes, and the sequence that it leaves open. -/
def Step.settle : Step → List (Option Char) × Option Sequence
  | .char value => ([some value], none)
  | .opens sequence => ([], some sequence)
  | .stray => ([none], none)

/-- The pieces that a byte completes after an open sequence, and the sequence that is open then. -/
def next : Option Sequence → UInt8 → List (Option Char) × Option Sequence
  | none, byte => (lead byte).settle
  | some sequence, byte =>
      if sequence.admits byte then
        (sequence.extend byte).settle
      else
        let (pieces, open?) := (lead byte).settle
        (none :: pieces, open?)

/--
The characters of a byte string after an open sequence, with nothing in the place of each malformed
sequence.
-/
def pieces : Option Sequence → List UInt8 → List (Option Char)
  | none, [] => []
  | some _, [] => [none]
  | open?, byte :: rest =>
      let (completed, open?) := next open? byte
      completed ++ pieces open? rest

/-- The characters of a byte string, each malformed sequence being a replacement character. -/
def decode (bytes : List UInt8) : List Char :=
  (pieces none bytes).map fun piece => piece.getD '\uFFFD'

/-- The characters of a well-formed byte string. -/
def decode? (bytes : List UInt8) : Option (List Char) :=
  (pieces none bytes).mapM id

end Utf8
end CodeScope

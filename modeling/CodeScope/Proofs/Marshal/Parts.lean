import CodeScope.Number.Literal
import CodeScope.Proofs.Marshal.Writer
import CodeScope.Text.Blank

/-!
# Parts of values

What is written for a value behind its tag has parts: bytes, and the values inside it where they
stand. The parts do not tell how the values inside are written, so the writer that shares values by
references and the one that never does have the same ones.
-/

namespace CodeScope
namespace Writer

/-- A part of a value behind its tag. -/
inductive Part where
  | bytes (data : Bytes)
  /-- A value inside, or the empty tag. -/
  | value (value : Option Value)
  /-- A text that can be referred to from here on. Nothing is written for that. -/
  | recorded (content : String)

namespace Part

/-- Values that stand one after the other. -/
def values (values : List Value) : List Part :=
  values.map fun value => .value (some value)

/-- Numbers of some bytes each that stand one after the other. -/
def numbers (width : Nat) (numbers : List Nat) : List Part :=
  numbers.map fun number => .bytes (Bytes.digits width number)

/-- Bytes with their number in front of them. -/
def sized (width : Nat) (data : Bytes) : List Part :=
  [.bytes (Bytes.digits width data.length), .bytes data]

end Part

/-- The tags of values that have items, with a length of four bytes in front of them. -/
def sequences : List (Char × (List Value → Value)) :=
  [('(', .tuple), ('[', .list), ('<', .set), ('>', .frozenSet)]

/-- A decimal literal of a number. -/
def IsLiteral (number : Binary64) (literal : Bytes) : Prop :=
  literal.length ≤ 255 ∧ ((Utf8.decode? literal).bind fun content =>
    Binary64.ofLiteral? (Blank.trim content)) = some number

/--
The bytes of the characters of a text, with the tag for a text that is not interned, the one for
one that is, and the width of the number of bytes.
-/
inductive Encodes (content : String) : Char → Char → Nat → Bytes → Prop
  | utf8 (size : (Bytes.utf8 content).length < 2 ^ 31) :
      Encodes content 'u' 't' 4 (Bytes.utf8 content)
  | latin1 (bytes : ∀ char ∈ content.toList, char.toNat ≤ 0xFF)
      (size : (Bytes.latin1 content).length < 2 ^ 31) :
      Encodes content 'a' 'A' 4 (Bytes.latin1 content)
  | shortLatin1 (bytes : ∀ char ∈ content.toList, char.toNat ≤ 0xFF)
      (size : (Bytes.latin1 content).length ≤ 255) :
      Encodes content 'z' 'Z' 1 (Bytes.latin1 content)

/-- The parts of a code unit, given the fields in front of the first line and behind it. -/
def codeParts (info : CodeInfo) (counts : List Nat) (front back : List Value) : List Part :=
  Part.numbers 4 counts ++ (.bytes (Bytes.digits 4 info.flags.bits.toNat) ::
    (Part.values front ++ (.bytes (Bytes.ofInt32 info.firstLine) :: Part.values back)))

/-- The tag of a value with a body, and the parts behind it. -/
inductive Shape (profile : Profile) : Char → Value → List Part → Prop
  | int32 (number : Int32) : Shape profile 'i' (.int32 number) [.bytes (Bytes.ofInt32 number)]
  | int64 (number : Int64) : Shape profile 'I' (.int64 number) [.bytes (Bytes.ofInt64 number)]
  | long {number : Int} {count : Int32} {digits : List Nat}
      (size : digits.length = count.toInt.natAbs) (bounded : ∀ digit ∈ digits, digit < 2 ^ 15)
      (same : count.toInt.sign * (Nat.ofDigits (2 ^ 15) digits : Nat) = number) :
      Shape profile 'l' (.long number) (.bytes (Bytes.ofInt32 count) :: Part.numbers 2 digits)
  | float (number : Binary64) :
      Shape profile 'g' (.float number) [.bytes (Bytes.digits 8 number.bits.toNat)]
  | decimal {number : Binary64} {literal : Bytes} (isLiteral : IsLiteral number literal) :
      Shape profile 'f' (.float number) (Part.sized 1 literal)
  | complex (real imaginary : Binary64) :
      Shape profile 'y' (.complex real imaginary)
        [.bytes (Bytes.digits 8 real.bits.toNat), .bytes (Bytes.digits 8 imaginary.bits.toNat)]
  | decimalComplex {real imaginary : Binary64} {first second : Bytes}
      (isReal : IsLiteral real first) (isImaginary : IsLiteral imaginary second) :
      Shape profile 'x' (.complex real imaginary) (Part.sized 1 first ++ Part.sized 1 second)
  | bytes {data : Bytes} (size : data.length < 2 ^ 31) :
      Shape profile 's' (.bytes data) (Part.sized 4 data)
  | text {content : String} {plain interned : Char} {width : Nat} {data : Bytes}
      (encoded : Encodes content plain interned width data) :
      Shape profile plain (.text content false) (Part.sized width data)
  | internedText {content : String} {plain interned : Char} {width : Nat} {data : Bytes}
      (encoded : Encodes content plain interned width data) :
      Shape profile interned (.text content true) (Part.sized width data ++ [.recorded content])
  | sequence {char : Char} {make : List Value → Value} {items : List Value}
      (named : (char, make) ∈ sequences) (size : items.length < 2 ^ 31) :
      Shape profile char (make items) (.bytes (Bytes.digits 4 items.length) :: Part.values items)
  | shortTuple {items : List Value} (size : items.length ≤ 255) :
      Shape profile ')' (.tuple items) (.bytes (Bytes.digits 1 items.length) :: Part.values items)
  | dict (entries : List (Value × Value)) :
      Shape profile '{' (.dict entries)
        ((entries.flatMap fun entry => Part.values [entry.1, entry.2]) ++ [.value none])
  | code {info : CodeInfo} {consts front back : List Value} {counts : List Nat}
      (version : info.version = profile.version)
      (fields : Fields profile info consts counts front back)
      (size : ∀ count ∈ counts, count < 2 ^ 31) :
      Shape profile 'c' (.code info consts) (codeParts info counts front back)

section Spelled

variable {profile : Profile} {child : Spelling (Option Value)}
  {before middle after : WriterState} {front back data : Bytes}

/-- Parts spelled one after the other, if `child` spells the values. -/
inductive Spelled (child : Spelling (Option Value)) : Spelling (List Part)
  | nil (state : WriterState) : Spelled child [] state [] state
  | bytes {parts : List Part} {before after : WriterState} {data rest : Bytes}
      (others : Spelled child parts before rest after) :
      Spelled child (.bytes data :: parts) before (data ++ rest) after
  | value {value : Option Value} {parts : List Part} {before middle after : WriterState}
      {front back : Bytes} (first : child value before front middle)
      (others : Spelled child parts middle back after) :
      Spelled child (.value value :: parts) before (front ++ back) after
  | recorded {content : String} {parts : List Part} {before after : WriterState} {data : Bytes}
      (others : Spelled child parts (before.record content) data after) :
      Spelled child (.recorded content :: parts) before data after

namespace Spelled

theorem append {parts others : List Part} (first : Spelled child parts before front middle)
    (second : Spelled child others middle back after) :
    Spelled child (parts ++ others) before (front ++ back) after := by
  induction first with
  | nil state => exact second
  | bytes rest induction =>
      rw [List.append_assoc]
      exact .bytes (induction second)
  | value inside rest induction =>
      rw [List.append_assoc]
      exact .value inside (induction second)
  | recorded rest induction => exact .recorded (induction second)

theorem lastBytes (data : Bytes) (state : WriterState) :
    Spelled child [.bytes data] state data state := by
  have spelled : Spelled child [.bytes data] state (data ++ []) state := .bytes (.nil state)
  rwa [List.append_nil] at spelled

theorem lastValue {value : Option Value} (spelled : child value before data after) :
    Spelled child [.value value] before data after := by
  have parts := Spelled.value spelled (.nil after)
  rwa [List.append_nil] at parts

theorem sized (width : Nat) (data : Bytes) (state : WriterState) :
    Spelled child (Part.sized width data) state (Bytes.digits width data.length ++ data) state :=
  .bytes (lastBytes data state)

theorem numbers (width : Nat) (numbers : List Nat) (state : WriterState) :
    Spelled child (Part.numbers width numbers) state (numbers.flatMap (Bytes.digits width))
      state := by
  induction numbers with
  | nil => exact .nil state
  | cons number rest induction => exact .bytes induction

theorem values {items : List Value} (spelled : Sequence child (items.map some) before data after) :
    Spelled child (Part.values items) before data after := by
  induction items generalizing before data with
  | nil =>
      cases spelled
      exact .nil _
  | cons item rest induction =>
      rcases spelled with _ | ⟨first, others⟩
      exact .value first (induction others)

theorem entries {entries : List (Value × Value)}
    (spelled : Sequence (fun (entry : Value × Value) =>
      Sequence child [some entry.1, some entry.2]) entries before data after) :
    Spelled child (entries.flatMap fun entry => Part.values [entry.1, entry.2]) before data
      after := by
  induction spelled with
  | nil state => exact .nil state
  | @cons entry rest before middle after front back first others induction =>
      have pair : Spelled child (Part.values [entry.1, entry.2]) before front middle :=
        values first
      exact pair.append induction

end Spelled

/-- A text with its parts. -/
theorem Characters.encodes {content : String} {plain interned : Char}
    (characters : Characters content plain interned data) :
    ∃ width encoded, data = Bytes.digits width encoded.length ++ encoded ∧
      Encodes content plain interned width encoded := by
  cases characters with
  | utf8 size => exact ⟨4, _, rfl, .utf8 size⟩
  | latin1 bytes size => exact ⟨4, _, rfl, .latin1 bytes size⟩
  | shortLatin1 bytes size => exact ⟨1, _, rfl, .shortLatin1 bytes size⟩

/-- The number of digits carries the sign of what they add up to. -/
theorem shape_long {digits : List Nat} {count number : Int}
    (bounded : ∀ digit ∈ digits, digit < 2 ^ 15) (size : digits.length < 2 ^ 31)
    (counted : count.natAbs = digits.length)
    (same : count.sign * (Nat.ofDigits (2 ^ 15) digits : Nat) = number) :
    Shape profile 'l' (.long number)
      (.bytes (Bytes.ofInt32 (Int32.ofInt count)) :: Part.numbers 2 digits) := by
  have kept : (Int32.ofInt count).toInt = count :=
    Int32.toInt_ofInt_of_le (by omega) (by omega)
  exact .long (by rw [kept, counted]) bounded (by rw [kept, same])

/-- What is spelled for a value behind its tag are the parts of the value. -/
theorem Body.shape {char : Char} {value : Value}
    (spelled : Body profile child char value before data after) :
    ∃ parts, Shape profile char value parts ∧ Spelled child parts before data after := by
  cases spelled with
  | int32 number state => exact ⟨_, .int32 number, .lastBytes _ _⟩
  | int64 number state => exact ⟨_, .int64 number, .lastBytes _ _⟩
  | @natural digits bounded size state =>
      refine ⟨_, shape_long bounded size (Int.natAbs_natCast _) ?_, .bytes (.numbers 2 digits _)⟩
      cases digits with
      | nil => rfl
      | cons digit rest =>
          rw [List.length_cons, Int.sign_natCast_of_ne_zero (Nat.succ_ne_zero _), Int.one_mul]
  | @negative digits bounded size state =>
      refine ⟨_, shape_long bounded size (Int.natAbs_neg _) ?_, .bytes (.numbers 2 digits _)⟩
      cases digits with
      | nil => rfl
      | cons digit rest =>
          rw [List.length_cons, Int.sign_neg, Int.sign_natCast_of_ne_zero (Nat.succ_ne_zero _),
            Int.neg_one_mul]
  | float number state => exact ⟨_, .float number, .lastBytes _ _⟩
  | complex real imaginary state => exact ⟨_, .complex real imaginary, .bytes (.lastBytes _ _)⟩
  | bytes size state => exact ⟨_, .bytes size, .sized 4 _ _⟩
  | text characters state =>
      obtain ⟨width, encoded, rfl, encodes⟩ := characters.encodes
      exact ⟨_, .text encodes, .sized width encoded _⟩
  | @internedText content plain interned data characters state =>
      obtain ⟨width, encoded, rfl, encodes⟩ := characters.encodes
      have recorded : Spelled child [.recorded content] before [] (before.record content) :=
        .recorded (.nil _)
      have parts := (Spelled.sized width encoded before).append recorded
      rw [List.append_nil] at parts
      exact ⟨_, .internedText encodes, parts⟩
  | tuple size inside => exact ⟨_, .sequence (by simp [sequences]) size, .bytes (.values inside)⟩
  | shortTuple size inside => exact ⟨_, .shortTuple size, .bytes (.values inside)⟩
  | list size inside => exact ⟨_, .sequence (by simp [sequences]) size, .bytes (.values inside)⟩
  | set size inside => exact ⟨_, .sequence (by simp [sequences]) size, .bytes (.values inside)⟩
  | frozenSet size inside =>
      exact ⟨_, .sequence (by simp [sequences]) size, .bytes (.values inside)⟩
  | dict inside terminated =>
      exact ⟨_, .dict _, (Spelled.entries inside).append (.lastValue terminated)⟩
  | code version fields size inFront behind =>
      simp only [List.append_assoc]
      exact ⟨_, .code version fields size, (Spelled.numbers 4 _ _).append
        (.bytes ((Spelled.values inFront).append (.bytes (.values behind))))⟩

end Spelled
end Writer
end CodeScope

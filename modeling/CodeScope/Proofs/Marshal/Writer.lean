import CodeScope.Proofs.Bytes.Encoding
import CodeScope.Value.Basic
import CodeScope.Version.Profile
import Mathlib.Data.Nat.Digits.Defs

/-!
# Streams of a writer

A writer spells a value as a stream of bytes. It may choose between the tags that can spell a value,
give any value a slot, and write a reference in the place of a value that it has already written. A
spelling therefore is a relation between a value and its bytes, which also relates the slots and
the interned texts before the bytes to those after them.
-/

namespace CodeScope
namespace Value

mutual

/-- A value without the places that its code units were read from. -/
def unplaced : Value → Value
  | tuple items => tuple (unplacedAll items)
  | list items => list (unplacedAll items)
  | dict entries => dict (unplacedEntries entries)
  | set items => set (unplacedAll items)
  | frozenSet items => frozenSet (unplacedAll items)
  | code info consts => code { info with site := 0 } (unplacedAll consts)
  | value => value

/-- Values without the places that their code units were read from. -/
def unplacedAll : List Value → List Value
  | [] => []
  | value :: rest => value.unplaced :: unplacedAll rest

/-- Entries without the places that their code units were read from. -/
def unplacedEntries : List (Value × Value) → List (Value × Value)
  | [] => []
  | (key, value) :: rest => (key.unplaced, value.unplaced) :: unplacedEntries rest

end

/-- Two values that differ at most in the places that their code units were read from. -/
def SameAs (left right : Value) : Prop :=
  left.unplaced = right.unplaced

end Value

/-- What a writer remembers of the values that it has written. -/
structure WriterState where
  /-- The values of the slots, with nothing in the slots of values that are not complete. -/
  slots : List (Option Value)
  /-- Interned texts. -/
  interned : List String

namespace WriterState

/-- The state before the first value. -/
def start : WriterState := ⟨[], []⟩

/-- The state after the next slot is given to a value that is not complete. -/
def reserve (state : WriterState) : WriterState :=
  { state with slots := state.slots ++ [none] }

/-- The state after the value of a slot is complete. -/
def complete (state : WriterState) (index : Nat) (value : Value) : WriterState :=
  { state with slots := state.slots.set index (some value) }

/-- The state after an interned text. -/
def record (state : WriterState) (content : String) : WriterState :=
  { state with interned := state.interned ++ [content] }

end WriterState

/--
A way of spelling: which bytes spell something after a state of the writer, and the state of the
writer after them.
-/
abbrev Spelling (α : Type) := α → WriterState → Bytes → WriterState → Prop

namespace Writer

/-- Things spelled one after the other. -/
inductive Sequence {α : Type} (spells : Spelling α) : Spelling (List α)
  | nil (state : WriterState) : Sequence spells [] state [] state
  | cons {head : α} {rest : List α} {before middle after : WriterState} {front back : Bytes}
      (first : spells head before front middle) (others : Sequence spells rest middle back after) :
      Sequence spells (head :: rest) before (front ++ back) after

/-- The byte of a tag. Bit 7 asks for a slot. -/
def tagByte (flagged : Bool) (char : Char) : UInt8 :=
  UInt8.ofNat (char.toNat + if flagged then 128 else 0)

/-- The values that a tag alone spells. -/
def constants : List (Char × Value) :=
  [('N', .none), ('F', .bool false), ('T', .bool true), ('S', .stopIteration), ('.', .ellipsis)]

/-- The bytes of a text after its tag, with its tag when it is not interned and when it is. -/
inductive Characters (content : String) : Char → Char → Bytes → Prop
  | utf8 (size : (Bytes.utf8 content).length < 2 ^ 31) :
      Characters content 'u' 't' (Bytes.digits 4 (Bytes.utf8 content).length ++ Bytes.utf8 content)
  | latin1 (bytes : ∀ char ∈ content.toList, char.toNat ≤ 0xFF)
      (size : (Bytes.latin1 content).length < 2 ^ 31) :
      Characters content 'a' 'A'
        (Bytes.digits 4 (Bytes.latin1 content).length ++ Bytes.latin1 content)
  | shortLatin1 (bytes : ∀ char ∈ content.toList, char.toNat ≤ 0xFF)
      (size : (Bytes.latin1 content).length ≤ 255) :
      Characters content 'z' 'Z'
        (Bytes.digits 1 (Bytes.latin1 content).length ++ Bytes.latin1 content)

/-- A tuple of names, each of them interned or not. -/
def IsNames (names : List String) (value : Value) : Prop :=
  ∃ items, value = .tuple items ∧ items.map Value.text? = names.map some

/-- A text, interned or not. -/
def IsText (content : String) (value : Value) : Prop :=
  value.text? = some content

/--
The fields of a code unit that is well formed for a version: its counts, the values between its flag
word and its first line, and the values after its first line.
-/
inductive Fields (profile : Profile) (info : CodeInfo) (consts : List Value) :
    List Nat → List Value → List Value → Prop
  | split {varnames cellvars freevars : List String}
      {names locals free cells filename name : Value}
      (layout : profile.layout = .split)
      (tables : info.locals = .split varnames cellvars freevars)
      (qualname : info.qualname = none)
      (exceptiontable : info.exceptiontable = [])
      (isNames : IsNames info.names names)
      (isLocals : IsNames varnames locals)
      (isFree : IsNames freevars free)
      (isCells : IsNames cellvars cells)
      (isFilename : IsText info.filename filename)
      (isName : IsText info.name name) :
      Fields profile info consts
        [info.argcount, info.posonlyargcount, info.kwonlyargcount, info.nlocals, info.stacksize]
        [.bytes info.code, .tuple consts, names, locals, free, cells, filename, name]
        [.bytes info.linetable]
  | unified {localNames : List String} {kinds : Bytes} {qualname : String}
      {names locals filename name qualified : Value}
      (layout : profile.layout = .unified)
      (tables : info.locals = .unified localNames kinds)
      (paired : kinds.length = localNames.length)
      (counted : info.nlocals = kinds.countP fun kind => VariableKind.localVar.isIn kind)
      (hasQualname : info.qualname = some qualname)
      (isNames : IsNames info.names names)
      (isLocals : IsNames localNames locals)
      (isFilename : IsText info.filename filename)
      (isName : IsText info.name name)
      (isQualname : IsText qualname qualified) :
      Fields profile info consts
        [info.argcount, info.posonlyargcount, info.kwonlyargcount, info.stacksize]
        [.bytes info.code, .tuple consts, names, locals, .bytes kinds, filename, name, qualified]
        [.bytes info.linetable, .bytes info.exceptiontable]

/-- The bytes of a value after its tag, if `child` spells the values inside it. -/
inductive Body (profile : Profile) (child : Spelling (Option Value)) : Char → Spelling Value
  | int32 (number : Int32) (state : WriterState) :
      Body profile child 'i' (.int32 number) state (Bytes.ofInt32 number) state
  | int64 (number : Int64) (state : WriterState) :
      Body profile child 'I' (.int64 number) state (Bytes.ofInt64 number) state
  | natural {digits : List Nat} (bounded : ∀ digit ∈ digits, digit < 2 ^ 15)
      (size : digits.length < 2 ^ 31) (state : WriterState) :
      Body profile child 'l' (.long (Nat.ofDigits (2 ^ 15) digits : Nat)) state
        (Bytes.ofInt32 (Int32.ofInt digits.length) ++ digits.flatMap (Bytes.digits 2)) state
  | negative {digits : List Nat} (bounded : ∀ digit ∈ digits, digit < 2 ^ 15)
      (size : digits.length < 2 ^ 31) (state : WriterState) :
      Body profile child 'l' (.long (-(Nat.ofDigits (2 ^ 15) digits : Nat))) state
        (Bytes.ofInt32 (Int32.ofInt (-digits.length)) ++ digits.flatMap (Bytes.digits 2)) state
  | float (number : Binary64) (state : WriterState) :
      Body profile child 'g' (.float number) state (Bytes.digits 8 number.bits.toNat) state
  | complex (real imaginary : Binary64) (state : WriterState) :
      Body profile child 'y' (.complex real imaginary) state
        (Bytes.digits 8 real.bits.toNat ++ Bytes.digits 8 imaginary.bits.toNat) state
  | bytes {data : Bytes} (size : data.length < 2 ^ 31) (state : WriterState) :
      Body profile child 's' (.bytes data) state (Bytes.digits 4 data.length ++ data) state
  | text {content : String} {plain interned : Char} {data : Bytes}
      (characters : Characters content plain interned data) (state : WriterState) :
      Body profile child plain (.text content false) state data state
  | internedText {content : String} {plain interned : Char} {data : Bytes}
      (characters : Characters content plain interned data) (state : WriterState) :
      Body profile child interned (.text content true) state data (state.record content)
  | tuple {items : List Value} {before after : WriterState} {data : Bytes}
      (size : items.length < 2 ^ 31) (inside : Sequence child (items.map some) before data after) :
      Body profile child '(' (.tuple items) before (Bytes.digits 4 items.length ++ data) after
  | shortTuple {items : List Value} {before after : WriterState} {data : Bytes}
      (size : items.length ≤ 255) (inside : Sequence child (items.map some) before data after) :
      Body profile child ')' (.tuple items) before (Bytes.digits 1 items.length ++ data) after
  | list {items : List Value} {before after : WriterState} {data : Bytes}
      (size : items.length < 2 ^ 31) (inside : Sequence child (items.map some) before data after) :
      Body profile child '[' (.list items) before (Bytes.digits 4 items.length ++ data) after
  | set {items : List Value} {before after : WriterState} {data : Bytes}
      (size : items.length < 2 ^ 31) (inside : Sequence child (items.map some) before data after) :
      Body profile child '<' (.set items) before (Bytes.digits 4 items.length ++ data) after
  | frozenSet {items : List Value} {before after : WriterState} {data : Bytes}
      (size : items.length < 2 ^ 31) (inside : Sequence child (items.map some) before data after) :
      Body profile child '>' (.frozenSet items) before (Bytes.digits 4 items.length ++ data) after
  | dict {entries : List (Value × Value)} {before middle after : WriterState} {data stop : Bytes}
      (inside : Sequence (fun entry => Sequence child [some entry.1, some entry.2]) entries before
        data middle)
      (terminated : child none middle stop after) :
      Body profile child '{' (.dict entries) before (data ++ stop) after
  | code {info : CodeInfo} {consts front back : List Value} {counts : List Nat}
      {before middle after : WriterState} {frontData backData : Bytes}
      (version : info.version = profile.version)
      (fields : Fields profile info consts counts front back)
      (size : ∀ count ∈ counts, count < 2 ^ 31)
      (inFront : Sequence child (front.map some) before frontData middle)
      (behind : Sequence child (back.map some) middle backData after) :
      Body profile child 'c' (.code info consts) before
        (counts.flatMap (Bytes.digits 4) ++ Bytes.digits 4 info.flags.bits.toNat ++ frontData ++
          Bytes.ofInt32 info.firstLine ++ backData) after

/--
The bytes of a value from its tag on, or of the empty tag. A value whose tag asks for a slot has the
slot from its tag on, and is complete in it after its bytes.
-/
inductive Tagged (profile : Profile) (child : Spelling (Option Value)) : Spelling (Option Value)
  | null (flagged : Bool) (state : WriterState) :
      Tagged profile child none state [tagByte flagged '0'] state
  | constant (flagged : Bool) {char : Char} {value : Value} (named : (char, value) ∈ constants)
      (state : WriterState) :
      Tagged profile child (some value) state [tagByte flagged char] state
  | reference (flagged : Bool) {index : Nat} {original value : Value} {state : WriterState}
      (size : index < 2 ^ 32) (complete : state.slots[index]? = some (some original))
      (identical : original.SameAs value) :
      Tagged profile child (some value) state (tagByte flagged 'r' :: Bytes.digits 4 index) state
  | internedText (flagged : Bool) {index : Nat} {content : String} {state : WriterState}
      (size : index < 2 ^ 32) (recorded : state.interned[index]? = some content) :
      Tagged profile child (some (.text content true)) state
        (tagByte flagged 'R' :: Bytes.digits 4 index) state
  | plain {char : Char} {value : Value} {before after : WriterState} {data : Bytes}
      (body : Body profile child char value before data after) :
      Tagged profile child (some value) before (tagByte false char :: data) after
  | flagged {char : Char} {value : Value} {before after : WriterState} {data : Bytes}
      (body : Body profile child char value before.reserve data after) :
      Tagged profile child (some value) before (tagByte true char :: data)
        (after.complete before.slots.length value)

/--
The bytes that a version writes for a value, or for the end of a dictionary, with at most `levels`
levels of nesting.
-/
def Spells (profile : Profile) : Nat → Spelling (Option Value)
  | 0 => fun _ _ _ _ => False
  | levels + 1 => Tagged profile (Spells profile levels)

end Writer
end CodeScope

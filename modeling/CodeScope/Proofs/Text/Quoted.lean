import CodeScope.Proofs.Text.Recovery
import CodeScope.Value.Repr

/-!
# Reading quoted text

A quoted text is read back as what it quotes: its first character is the quote that delimits it, and
what its escapes stand for does not depend on how it was written. Inside it the quote stands only
behind a backslash of its own, so the first quote that is not escaped is the last character.
-/

namespace CodeScope
namespace Hex

/-- The number below sixteen that a lower-case digit stands for. -/
def value? (char : Char) : Option Nat :=
  if '0' ≤ char ∧ char ≤ '9' then some (char.toNat - 48)
  else if 'a' ≤ char ∧ char ≤ 'f' then some (char.toNat - 87)
  else none

theorem value?_digit {value : Nat} (small : value < 16) : value? (digit value) = some value := by
  revert value
  decide

theorem visible_digit {value : Nat} (small : value < 16) :
    0x30 ≤ (digit value).toNat ∧ (digit value).toNat ≤ 0x66 ∧ digit value ≠ '\\' := by
  revert value
  decide

end Hex

namespace Quoted

/-- The character that a letter stands for behind a backslash. -/
def meaning? (quote letter : Char) : Option Char :=
  if letter = '\\' then some '\\'
  else if letter = 'n' then some '\n'
  else if letter = 'r' then some '\r'
  else if letter = 't' then some '\t'
  else if letter = quote then some quote
  else none

/-- The character whose number the first two digits of a text write. -/
def number? : List Char → Option Char
  | high :: low :: _ => do
      let high ← Hex.value? high
      let low ← Hex.value? low
      return Char.ofNat (16 * high + low)
  | _ => none

/--
The character that a text stands for behind a backslash, and how many of its characters do so. A
backslash in front of anything else is no escape.
-/
def escape? (quote : Char) : List Char → Option (Char × Nat)
  | [] => none
  | letter :: rest =>
      if letter = 'x' then (number? rest).map (·, 3) else (meaning? quote letter).map (·, 1)

/-- The text up to a quote that is not escaped, which must be the last character. -/
def readInside (quote : Char) : List Char → Option (List Char)
  | [] => none
  | char :: rest =>
      if char = '\\' then
        match escape? quote rest with
        | some (meant, length) => (meant :: ·) <$> readInside quote (rest.drop length)
        | none => (char :: ·) <$> readInside quote rest
      else if char = quote then
        if rest.isEmpty then some [] else none
      else (char :: ·) <$> readInside quote rest
termination_by text => text.length
decreasing_by all_goals simp only [List.length_drop, List.length_cons]; omega

/-- The text that a quoted text stands for. Its first character is the quote. -/
def read? : List Char → Option (List Char)
  | [] => none
  | quote :: rest => readInside quote rest

/-- Whether a character is escaped by the text before it: the last of an odd run of backslashes. -/
def Escapes (before : List Char) : Prop :=
  (before.reverse.takeWhile (· = '\\')).length % 2 = 1

/--
A text between two quotes of one kind. Inside, this quote is always escaped, and the last one is
not.
-/
def IsDelimited (literal : List Char) : Prop :=
  ∃ quote inside, literal = quote :: (inside ++ [quote]) ∧ ¬Escapes inside ∧
    ∀ before after, inside = before ++ quote :: after → Escapes before

/-- A character that shows, and is one of the seven-bit ones where only these are written. -/
def Shows (ascii : Bool) (char : Char) : Prop :=
  0x20 ≤ char.toNat ∧ char.toNat ≠ 0x7F ∧ (ascii = true → char.toNat < 0x7F)

/--
How a character is written between quotes: as it is, by a letter that stands for it, or by its two
digits.
-/
inductive Writes (ascii : Bool) (quote char : Char) : List Char → Prop
  | plain (shows : Shows ascii char) (notBackslash : char ≠ '\\') (notQuote : char ≠ quote) :
      Writes ascii quote char [char]
  | letter {letter : Char} (means : meaning? quote letter = some char) :
      Writes ascii quote char ['\\', letter]
  | digits (small : char.toNat < 256) : Writes ascii quote char
      ['\\', 'x', Hex.digit (char.toNat / 16), Hex.digit (char.toNat % 16)]

variable {ascii : Bool} {quote char : Char} {text rest : List Char}

/-- A character that has a byte, where only these can be escaped, is written in one of the ways. -/
theorem writes_escape (isQuote : quote = '\'' ∨ quote = '"')
    (byte : ascii = true → char.toNat < 256) :
    Writes ascii quote char (escape ascii quote char) := by
  simp only [escape]
  split
  · next same => exact .letter (by rw [same]; rfl)
  split
  · next same => exact .letter (by rw [same]; rfl)
  split
  · next same => exact .letter (by rw [same]; rfl)
  split
  · next same => exact .letter (by rw [same]; rfl)
  split
  · next same =>
      refine .letter ?_
      rw [same]
      rcases isQuote with rfl | rfl <;> rfl
  split
  · next hidden =>
      refine .digits ?_
      cases ascii with
      | false =>
          simp only [Bool.false_eq_true, false_and, or_false] at hidden
          omega
      | true => exact byte rfl
  · next notBackslash _ _ _ notQuote shown =>
      refine .plain ⟨by omega, by omega, ?_⟩ notBackslash notQuote
      rintro rfl
      simp only [true_and] at shown
      omega

theorem mem_of_meaning {letter : Char} (means : meaning? quote letter = some char) :
    letter ∈ ['\\', 'n', 'r', 't', quote] := by
  grind [meaning?]

theorem number?_digits (small : char.toNat < 256) :
    number? (Hex.digit (char.toNat / 16) :: Hex.digit (char.toNat % 16) :: rest) = some char := by
  have high : char.toNat / 16 < 16 := by omega
  have low : char.toNat % 16 < 16 := by omega
  have whole : 16 * (char.toNat / 16) + char.toNat % 16 = char.toNat := by omega
  simp only [number?, Hex.value?_digit high, Hex.value?_digit low, Option.bind_eq_bind,
    Option.bind_some, whole, Char.ofNat_toNat]
  rfl

/-- A character is read back from any way in which it is written. -/
theorem readInside_append {written : List Char} (isQuote : quote = '\'' ∨ quote = '"')
    (writes : Writes ascii quote char written) (rest : List Char) :
    readInside quote (written ++ rest) = (char :: ·) <$> readInside quote rest := by
  cases writes with
  | plain shows notBackslash notQuote =>
      rw [List.singleton_append, readInside, if_neg notBackslash, if_neg notQuote]
  | @letter letter means =>
      have other : letter ≠ 'x' := by
        rintro rfl
        rcases isQuote with rfl | rfl <;> cases means
      have escapes : escape? quote (letter :: rest) = some (char, 1) := by
        rw [escape?, if_neg other, means]
        rfl
      rw [List.cons_append, List.singleton_append, readInside, if_pos rfl, escapes]
      rfl
  | digits small =>
      have escapes : escape? quote ('x' :: Hex.digit (char.toNat / 16) ::
          Hex.digit (char.toNat % 16) :: rest) = some (char, 3) := by
        rw [escape?, if_pos rfl, number?_digits small]
        rfl
      simp only [List.cons_append, List.nil_append]
      rw [readInside, if_pos rfl, escapes]
      rfl

/-- What escapes nothing has no part in what the text behind it escapes. -/
theorem escapes_append_iff {front back : List Char} (settled : ¬Escapes front) :
    Escapes (front ++ back) ↔ Escapes back := by
  rw [Escapes] at settled
  rw [Escapes, Escapes, List.reverse_append, List.takeWhile_append]
  split
  · next all =>
      rw [List.length_append, all]
      omega
  · rfl

theorem Writes.not_escapes {written : List Char} (writes : Writes ascii quote char written) :
    ¬Escapes written := by
  cases writes with
  | plain shows notBackslash notQuote => simp [Escapes, notBackslash]
  | @letter letter means => by_cases same : letter = '\\' <;> simp [Escapes, same]
  | digits small =>
      have low : char.toNat % 16 < 16 := by omega
      simp [Escapes, (Hex.visible_digit low).2.2]

/-- A quote inside what is written for one character is behind a backslash of its own. -/
theorem Writes.escapes {written before after : List Char} (isQuote : quote = '\'' ∨ quote = '"')
    (writes : Writes ascii quote char written) (split : written = before ++ quote :: after) :
    Escapes before := by
  have backslash : '\\' ≠ quote := by rcases isQuote with rfl | rfl <;> decide
  cases writes with
  | plain shows notBackslash notQuote =>
      cases before with
      | nil => exact absurd (List.cons.inj split).1 notQuote
      | cons first before => simp at split
  | letter means =>
      rcases before with _ | ⟨first, _ | ⟨second, before⟩⟩
      · exact absurd (List.cons.inj split).1 backslash
      · obtain ⟨rfl, -⟩ := List.cons.inj split
        simp [Escapes]
      · simp at split
  | digits small =>
      have digit : ∀ {value : Nat}, value < 16 → Hex.digit value ≠ quote := by
        rintro value small rfl
        have shown := (Hex.visible_digit small).1
        rcases isQuote with same | same <;> simp [same] at shown
      have isOther : ∀ other ∈ ['\\', 'x', Hex.digit (char.toNat / 16),
          Hex.digit (char.toNat % 16)], other ≠ quote := by
        have letter : 'x' ≠ quote := by rcases isQuote with rfl | rfl <;> decide
        have high := @digit (char.toNat / 16) (by omega)
        have low := @digit (char.toNat % 16) (by omega)
        simp [backslash, letter, high, low]
      have member : quote ∈ before ++ quote :: after := by simp
      exact absurd rfl (isOther quote (split ▸ member))

theorem Writes.shows {written : List Char} (isQuote : quote = '\'' ∨ quote = '"')
    (writes : Writes ascii quote char written) : ∀ char ∈ written, Shows ascii char := by
  have plain : ∀ other ∈ ['\\', 'n', 'r', 't', 'x', '\'', '"'], Shows ascii other := by
    simp [Shows]
  cases writes with
  | plain shows notBackslash notQuote =>
      rintro other (_ | ⟨_, ⟨⟩⟩)
      exact shows
  | @letter letter means =>
      have member := mem_of_meaning means
      have shown : Shows ascii letter := by
        apply plain
        rcases isQuote with rfl | rfl <;> grind
      simpa using ⟨plain '\\' (by simp), shown⟩
  | digits small =>
      have digit : ∀ {value : Nat}, value < 16 → Shows ascii (Hex.digit value) := by
        intro value small
        obtain ⟨least, greatest, -⟩ := Hex.visible_digit small
        exact ⟨by omega, by omega, fun _ => by omega⟩
      have high := @digit (char.toNat / 16) (by omega)
      have low := @digit (char.toNat % 16) (by omega)
      simpa using ⟨plain '\\' (by simp), plain 'x' (by simp), high, low⟩

section Texts

variable (isQuote : quote = '\'' ∨ quote = '"')
  (bytes : ∀ char ∈ text, ascii = true → char.toNat < 256)
include isQuote bytes

theorem readInside_flatMap :
    readInside quote (text.flatMap (escape ascii quote) ++ [quote]) = some text := by
  induction text with
  | nil =>
      have notBackslash : quote ≠ '\\' := by rcases isQuote with rfl | rfl <;> decide
      rw [List.flatMap_nil, List.nil_append, readInside, if_neg notBackslash, if_pos rfl]
      rfl
  | cons char text induction =>
      rw [List.forall_mem_cons] at bytes
      rw [List.flatMap_cons, List.append_assoc,
        readInside_append isQuote (writes_escape isQuote bytes.1), induction bytes.2]
      rfl

theorem not_escapes_flatMap : ¬Escapes (text.flatMap (escape ascii quote)) := by
  induction text with
  | nil => simp [Escapes]
  | cons char text induction =>
      rw [List.forall_mem_cons] at bytes
      have settled := (writes_escape isQuote bytes.1).not_escapes
      rw [List.flatMap_cons, escapes_append_iff settled]
      exact induction bytes.2

/-- Every quote inside is escaped. -/
theorem escapes_of_flatMap {before after : List Char}
    (split : text.flatMap (escape ascii quote) = before ++ quote :: after) : Escapes before := by
  induction text generalizing before with
  | nil => simp at split
  | cons char text induction =>
      rw [List.forall_mem_cons] at bytes
      have writes := writes_escape isQuote bytes.1
      rw [List.flatMap_cons, List.append_eq_append_iff] at split
      rcases split with ⟨inside, rfl, split⟩ | ⟨inside, written, split⟩
      · exact (escapes_append_iff writes.not_escapes).mpr (induction bytes.2 split)
      · cases inside with
        | nil =>
            have first : Escapes [] := induction bytes.2 split.symm
            simp [Escapes] at first
        | cons head inside =>
            obtain ⟨rfl, -⟩ := List.cons.inj split
            exact writes.escapes isQuote written

theorem shows_flatMap : ∀ char ∈ text.flatMap (escape ascii quote), Shows ascii char := by
  intro char member
  obtain ⟨original, listed, member⟩ := List.mem_flatMap.mp member
  exact (writes_escape isQuote (bytes original listed)).shows isQuote char member

end Texts

/-- A literal that is read as a text, with no quote inside that could be taken for its end. -/
structure Quotes (literal text : List Char) : Prop where
  read : read? literal = some text
  delimited : IsDelimited literal

theorem delimiter_cases (text : List Char) : delimiter text = '\'' ∨ delimiter text = '"' := by
  rw [delimiter]
  split
  · exact .inr rfl
  · exact .inl rfl

section Literals

variable (bytes : ∀ char ∈ text, ascii = true → char.toNat < 256)
include bytes

theorem quotes_encode : Quotes (encode ascii text) text where
  read := readInside_flatMap (delimiter_cases text) bytes
  delimited := ⟨delimiter text, text.flatMap (escape ascii (delimiter text)), rfl,
    not_escapes_flatMap (delimiter_cases text) bytes,
    fun _ _ => escapes_of_flatMap (delimiter_cases text) bytes⟩

theorem shows_encode : ∀ char ∈ encode ascii text, Shows ascii char := by
  have quote : Shows ascii (delimiter text) := by
    rcases delimiter_cases text with same | same <;> rw [same] <;> simp [Shows]
  have inside := shows_flatMap (delimiter_cases text) bytes
  rw [encode, List.forall_mem_append, List.forall_mem_cons, List.forall_mem_singleton]
  exact ⟨⟨quote, inside⟩, quote⟩

/-- Texts with one literal are the same. -/
theorem encode_injective {other : List Char}
    (others : ∀ char ∈ other, ascii = true → char.toNat < 256)
    (same : encode ascii text = encode ascii other) : text = other := by
  have read := (quotes_encode bytes).read
  rw [same, (quotes_encode others).read] at read
  exact (Option.some.inj read).symm

end Literals
end Quoted

open Quoted

/-- The texts of texts and of byte strings tell what they hold. -/
structure QuotedRepr : Prop where
  /-- One reader of literals gives back every text. -/
  text : ∀ (content : String) (interned : Bool),
    Quotes (Value.text content interned).repr.toList content.toList
  /-- The text of a text has no control characters. -/
  textShows : ∀ (content : String) (interned : Bool),
    ∀ char ∈ (Value.text content interned).repr.toList, Shows false char
  /-- Behind its letter, the same reader gives back the bytes of every byte string. -/
  bytes : ∀ data : Bytes, ∃ literal characters,
    (Value.bytes data).repr.toList = 'b' :: literal ∧ Quotes literal characters ∧
      characters.map Char.toNat = data.map UInt8.toNat
  /-- The text of a byte string has only seven-bit characters that show. -/
  bytesShow : ∀ (data : Bytes), ∀ char ∈ (Value.bytes data).repr.toList, Shows true char
  /-- Texts that look the same are the same. -/
  text_injective : ∀ {content other : String} {interned flag : Bool},
    (Value.text content interned).repr = (Value.text other flag).repr → content = other
  /-- Byte strings that look the same are the same. -/
  bytes_injective : ∀ {data other : Bytes},
    (Value.bytes data).repr = (Value.bytes other).repr → data = other

theorem toList_repr_text (content : String) (interned : Bool) :
    (Value.text content interned).repr.toList = encode false content.toList := by
  rw [Value.repr, String.toList_ofList]

theorem toList_repr_bytes (data : Bytes) :
    (Value.bytes data).repr.toList = 'b' :: encode true (Latin1.decode data) := by
  have letter : "b".toList = ['b'] := rfl
  rw [Value.repr, String.toList_append, letter, String.toList_ofList, List.singleton_append]

theorem toNat_lt_of_mem_decode {data : Bytes} {char : Char} (member : char ∈ Latin1.decode data) :
    char.toNat < 256 := by
  have code : char.toNat ∈ data.map UInt8.toNat := by
    rw [← Latin1.map_toNat_decode]
    exact List.mem_map_of_mem member
  obtain ⟨byte, -, same⟩ := List.mem_map.mp code
  exact same ▸ byte.toNat_lt

theorem quotedRepr : QuotedRepr where
  text content interned := by
    rw [toList_repr_text]
    exact quotes_encode (by simp)
  textShows content interned := by
    rw [toList_repr_text]
    exact shows_encode (by simp)
  bytes data := ⟨_, _, toList_repr_bytes data,
    quotes_encode fun _ member _ => toNat_lt_of_mem_decode member, Latin1.map_toNat_decode data⟩
  bytesShow data := by
    rw [toList_repr_bytes, List.forall_mem_cons]
    exact ⟨by simp [Shows], shows_encode fun _ member _ => toNat_lt_of_mem_decode member⟩
  text_injective := by
    intro content other interned flag same
    have texts : encode false content.toList = encode false other.toList := by
      rw [← toList_repr_text content interned, same, toList_repr_text]
    exact String.toList_injective (encode_injective (by simp) (by simp) texts)
  bytes_injective := by
    intro data other same
    have literals := congrArg String.toList same
    rw [toList_repr_bytes, toList_repr_bytes, List.cons.injEq] at literals
    exact Latin1.decode_injective (encode_injective
      (fun _ member _ => toNat_lt_of_mem_decode member)
      (fun _ member _ => toNat_lt_of_mem_decode member) literals.2)

end CodeScope

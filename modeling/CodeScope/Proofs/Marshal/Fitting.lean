import CodeScope.Proofs.Marshal.Following
import CodeScope.Proofs.Marshal.Parts

/-!
# Scripts along the parts of a value

The script of a form of value goes along the parts that are written for that form: it takes the
bytes and asks for the values inside where they stand, and ends with the value behind the last of
them.
-/

namespace CodeScope
namespace Script

open Writer

/-- Digits below the base do not overlap, so joining them is adding them. -/
theorem ofLongDigits_eq {digits : List Nat} (bounded : ∀ digit ∈ digits, digit < 2 ^ 15) :
    ofLongDigits digits = Nat.ofDigits (2 ^ 15) digits := by
  rw [ofLongDigits, List.foldl_reverse]
  induction digits with
  | nil => rfl
  | cons digit rest induction =>
      rw [List.forall_mem_cons] at bounded
      rw [List.foldr_cons, induction bounded.2, longShift,
        ← Nat.shiftLeft_add_eq_or_of_lt bounded.1, Nat.shiftLeft_eq, Nat.ofDigits_cons,
        Nat.mul_comm, Nat.add_comm]

/-- The number of digits carries the sign of what they add up to. -/
theorem signed_ofLongDigits {digits : List Nat} {count : Int}
    (bounded : ∀ digit ∈ digits, digit < 2 ^ 15) (size : digits.length = count.natAbs) :
    (if count < 0 then -(ofLongDigits digits : Int) else ofLongDigits digits) =
      count.sign * (Nat.ofDigits (2 ^ 15) digits : Nat) := by
  rw [ofLongDigits_eq bounded]
  rcases Int.lt_trichotomy count 0 with negative | zero | positive
  · rw [if_pos negative, Int.sign_eq_neg_one_of_neg negative, Int.neg_one_mul]
  · rw [zero, Int.natAbs_zero, List.length_eq_zero_iff] at size
    rw [zero, size]
    rfl
  · rw [if_neg (Int.lt_asymm positive), Int.sign_eq_one_of_pos positive, Int.one_mul]

theorem namesOf_eq_ok {field : CodeField} {items : List Value} {names : List String}
    (texts : items.map Value.text? = names.map some) : namesOf field items = .ok names := by
  induction items generalizing names with
  | nil =>
      cases names with
      | nil => rfl
      | cons name rest => cases texts
  | cons item items induction =>
      cases names with
      | nil => cases texts
      | cons name rest =>
          simp only [List.map_cons, List.cons.injEq] at texts
          obtain ⟨interned, rfl⟩ := Value.text?_eq_some texts.1
          rw [namesOf, induction texts.2]
          rfl

variable {α β : Type}

/--
A script goes along some parts to a result that is accepted, whatever the offsets are. Asking for a
value inside takes one of at least `budget` bytes that follow. Where they are used up the script
need not go on, since a value inside has failed there.
-/
def Fits (accepts : α → Prop) : Nat → Script α → List Part → Prop
  | _, done result, parts => parts = [] ∧ accepts result
  | _, fail _, _ => False
  | budget, takeBytes count next, parts =>
      ∃ data rest, parts = .bytes data :: rest ∧ data.length = count ∧
        Fits accepts budget (next data) rest
  | budget, askOffset next, parts => ∀ offset, Fits accepts budget (next offset) parts
  | _, askRemaining next, parts => ∀ left, Fits accepts left (next left) parts
  | budget, markFilling next, parts => Fits accepts budget next parts
  | budget, recordText content next, parts =>
      ∃ rest, parts = .recorded content :: rest ∧ Fits accepts budget next rest
  | budget, askChild next, parts =>
      ∃ value rest, parts = .value value :: rest ∧
        ∀ copy : Option Value, copy.map Value.unplaced = value.map Value.unplaced →
          ∀ fewer < budget, Fits accepts fewer (next copy) rest

variable {accepts : α → Prop} {passes : β → Prop} {budget : Nat} {front back : List Part}

namespace Fits

theorem pure {result : α} (accepted : accepts result) :
    Fits accepts budget (Pure.pure result) [] :=
  ⟨rfl, accepted⟩

theorem bind {script : Script α} {next : α → Script β} (first : Fits accepts budget script front)
    (second : ∀ result, accepts result → ∀ fewer, Fits passes fewer (next result) back) :
    Fits passes budget (script >>= next) (front ++ back) := by
  induction script generalizing front budget with
  | done result =>
      obtain ⟨rfl, accepted⟩ := first
      exact second result accepted budget
  | fail error => exact first.elim
  | takeBytes count follow induction =>
      obtain ⟨data, rest, rfl, size, others⟩ := first
      exact ⟨data, rest ++ back, rfl, size, induction data others⟩
  | askOffset follow induction => exact fun offset => induction offset (first offset)
  | askRemaining follow induction => exact fun left => induction left (first left)
  | markFilling follow induction => exact induction first
  | recordText content follow induction =>
      obtain ⟨rest, rfl, others⟩ := first
      exact ⟨rest ++ back, rfl, induction others⟩
  | askChild follow induction =>
      obtain ⟨value, rest, rfl, others⟩ := first
      exact ⟨value, rest ++ back, rfl, fun copy same fewer less =>
        induction copy (others copy same fewer less)⟩

/-- A script whose first result is known. -/
theorem andThen {script : Script α} {value : α} {next : α → Script β}
    (first : Fits (· = value) budget script front)
    (second : ∀ fewer, Fits passes fewer (next value) back) :
    Fits passes budget (script >>= next) (front ++ back) := by
  refine first.bind ?_
  rintro result rfl fewer
  exact second fewer

theorem convert {script : Script α} {convert : α → β} (first : Fits accepts budget script front)
    (implies : ∀ result, accepts result → passes (convert result)) :
    Fits passes budget (convert <$> script) front := by
  rw [← List.append_nil front]
  exact first.bind fun result accepted fewer => pure (implies result accepted)

/-- A script whose last step takes nothing more. -/
theorem last {script : Script α} {next : α → Script β} (first : Fits accepts budget script front)
    (second : ∀ result, accepts result → ∀ fewer, Fits passes fewer (next result) []) :
    Fits passes budget (script >>= next) front := by
  rw [← List.append_nil front]
  exact first.bind second

theorem weaken {script : Script α} {admits : α → Prop} (first : Fits accepts budget script front)
    (implies : ∀ result, accepts result → admits result) : Fits admits budget script front := by
  induction script generalizing front budget with
  | done result => exact ⟨first.1, implies result first.2⟩
  | fail error => exact first
  | takeBytes count follow induction =>
      obtain ⟨data, rest, same, size, others⟩ := first
      exact ⟨data, rest, same, size, induction data others⟩
  | askOffset follow induction => exact fun offset => induction offset (first offset)
  | askRemaining follow induction => exact fun left => induction left (first left)
  | markFilling follow induction => exact induction first
  | recordText content follow induction =>
      obtain ⟨rest, same, others⟩ := first
      exact ⟨rest, same, induction others⟩
  | askChild follow induction =>
      obtain ⟨value, rest, same, others⟩ := first
      exact ⟨value, rest, same, fun copy equal fewer less =>
        induction copy (others copy equal fewer less)⟩

theorem child {value : Option Value} {next : Option Value → Script α}
    (others : ∀ copy : Option Value, copy.map Value.unplaced = value.map Value.unplaced →
      ∀ fewer < budget, Fits accepts fewer (next copy) back) :
    Fits accepts budget (Script.child >>= next) (.value value :: back) :=
  ⟨value, back, rfl, others⟩

theorem required {value : Value} {next : Value → Script α}
    (others : ∀ copy : Value, copy.SameAs value → ∀ fewer < budget,
      Fits accepts fewer (next copy) back) :
    Fits accepts budget (Script.required >>= next) (.value (some value) :: back) := by
  intro offset
  refine ⟨some value, back, rfl, fun answer same fewer less => ?_⟩
  cases answer with
  | none => cases same
  | some copy => exact others copy (Option.some.inj same) fewer less

section Numbers

theorem bytes (data : Bytes) :
    Fits (· = data) budget (Script.bytes data.length) [.bytes data] :=
  ⟨data, [], rfl, rfl, rfl, rfl⟩

theorem digits {width number : Nat} (small : number < 256 ^ width) :
    Fits (· = number) budget (Script.number width) [.bytes (Bytes.digits width number)] :=
  ⟨_, [], rfl, Bytes.length_digits width number, rfl, Bytes.littleEndian_digits_of_lt small⟩

theorem i32 (number : Int32) :
    Fits (· = number) budget Script.i32 [.bytes (Bytes.ofInt32 number)] :=
  ⟨_, [], rfl, Bytes.length_ofInt32 number, rfl, Bytes.ofNat_ofInt32 number⟩

/-- A count below 2³¹ is read as it is, though it is read as a signed number. -/
theorem signedCount {count : Nat} (small : count < 2 ^ 31) :
    Fits (fun number => number.toInt = (count : Int)) budget Script.i32
      [.bytes (Bytes.digits 4 count)] := by
  refine (digits (Nat.lt_trans small (by decide))).convert ?_
  rintro written rfl
  exact Int32.toInt_ofNat_of_lt small

theorem length {count : Nat} (small : count < 2 ^ 31) (site : TagSite) :
    Fits (· = count) budget (Script.length site) [.bytes (Bytes.digits 4 count)] := by
  refine (signedCount small).last fun written same fewer => ?_
  simp only [same]
  rw [if_neg (by omega)]
  exact pure (Int.toNat_natCast count)

theorem count {count : Nat} (small : count < 2 ^ 31) (field : CodeField) :
    Fits (· = count) budget (Script.count field) [.bytes (Bytes.digits 4 count)] := by
  refine (signedCount small).last fun written same fewer => ?_
  simp only [same]
  rw [if_neg (by omega)]
  exact pure (Int.toNat_natCast count)

theorem longDigit {digit : Nat} (small : digit < 2 ^ 15) (site : TagSite) :
    Fits (· = digit) budget (Script.longDigit site) [.bytes (Bytes.digits 2 digit)] := by
  refine (digits (Nat.lt_trans small (by decide))).last ?_
  rintro number rfl fewer
  have isDigit : number < Script.longBase := small
  rw [if_pos isDigit]
  exact pure rfl

theorem decimalFloat {number : Binary64} {literal : Bytes} (isLiteral : IsLiteral number literal)
    (offset : Nat) :
    Fits (· = number) budget (Script.decimalFloat offset) (Part.sized 1 literal) := by
  refine (digits (Nat.lt_succ_of_le isLiteral.1)).andThen fun _ => ?_
  refine (bytes literal).last ?_
  rintro data rfl fewer
  simp only [isLiteral.2]
  exact pure rfl

theorem binaryFloat (number : Binary64) (offset : Nat) :
    Fits (· = number) budget (Script.float offset .binary)
      [.bytes (Bytes.digits 8 number.bits.toNat)] := by
  refine (digits number.bits.toNat_lt).convert ?_
  rintro written rfl
  rw [UInt64.ofNat_toNat]

end Numbers

section Repetition

variable {γ δ : Type} {part : Script α} {parts : γ → List Part} {result : α → δ} {expected : γ → δ}

theorem timesAfter {items : List γ}
    (each : ∀ item ∈ items, ∀ budget,
      Fits (fun value => result value = expected item) budget part (parts item)) (read : List α) :
    Fits (fun results => results.map result = read.reverse.map result ++ items.map expected)
      budget (Script.timesAfter part items.length read) (items.flatMap parts) := by
  induction items generalizing budget read with
  | nil => exact pure (by rw [List.map_nil, List.append_nil])
  | cons item others induction =>
      rw [List.forall_mem_cons] at each
      refine (each.1 budget).bind fun value same fewer => ?_
      refine (induction each.2 (value :: read)).weaken fun results equal => ?_
      rw [equal, List.reverse_cons, List.map_append, List.map_singleton, same, List.append_assoc,
        List.map_cons, List.singleton_append]

theorem times {items : List γ}
    (each : ∀ item ∈ items, ∀ budget,
      Fits (fun value => result value = expected item) budget part (parts item)) :
    Fits (fun results => results.map result = items.map expected) budget
      (Script.times part items.length) (items.flatMap parts) :=
  timesAfter each []

end Repetition

section Strings

theorem byteString {data : Bytes} (size : data.length < 2 ^ 31) (site : TagSite) :
    Fits (· = data) budget (Script.byteString site) (Part.sized 4 data) :=
  (length size site).andThen fun _ => bytes data

/-- A text is read in the form that its tag names. -/
theorem text {content : String} {plain interned : Char} {width : Nat} {data : Bytes}
    (encoded : Encodes content plain interned width data) :
    ∃ form, Tag.ofChar? plain = some (.body (.text form false)) ∧
      Tag.ofChar? interned = some (.body (.text form true)) ∧
      ∀ (site : TagSite) (budget : Nat),
        Fits (· = content) budget (Script.text site form) (Part.sized width data) := by
  cases encoded with
  | utf8 size =>
      refine ⟨.utf8, rfl, rfl, fun site budget => (byteString size site).convert ?_⟩
      rintro taken rfl
      exact Bytes.decode_utf8 content
  | latin1 single size =>
      refine ⟨.latin1, rfl, rfl, fun site budget => (byteString size site).convert ?_⟩
      rintro taken rfl
      exact Bytes.decode_latin1 single
  | shortLatin1 single size =>
      refine ⟨.shortLatin1, rfl, rfl, fun site budget => ?_⟩
      refine (digits (Nat.lt_succ_of_le size)).andThen fun _ => (bytes _).convert ?_
      rintro taken rfl
      exact Bytes.decode_latin1 single

end Strings

theorem long {count : Int32} {digits : List Nat} (size : digits.length = count.toInt.natAbs)
    (bounded : ∀ digit ∈ digits, digit < 2 ^ 15) (site : TagSite) :
    Fits (· = count.toInt.sign * (Nat.ofDigits (2 ^ 15) digits : Nat)) budget (Script.long site)
      (.bytes (Bytes.ofInt32 count) :: Part.numbers 2 digits) := by
  have parts : Part.numbers 2 digits =
      digits.flatMap fun digit => [.bytes (Bytes.digits 2 digit)] := List.map_eq_flatMap
  rw [long_eq, parts]
  refine (i32 count).andThen fun _ => ?_
  rw [← size]
  refine (times fun digit member budget => longDigit (bounded digit member) site).convert ?_
  intro results same
  rw [List.map_id', List.map_id'] at same
  rw [same, signed_ofLongDigits bounded size]

section Values

theorem required_self (value : Value) :
    Fits (·.SameAs value) budget Script.required [.value (some value)] := by
  intro offset
  refine ⟨some value, [], rfl, fun answer same fewer less => ?_⟩
  cases answer with
  | none => cases same
  | some copy => exact pure (Option.some.inj same)

theorem items {items : List Value} :
    Fits (fun copies => Value.unplacedAll copies = Value.unplacedAll items) budget
      (Script.items items.length) (Part.values items) := by
  have parts : Part.values items = items.flatMap fun item => [.value (some item)] :=
    List.map_eq_flatMap
  rw [parts]
  refine (times fun item _ budget => required_self item).weaken fun copies same => ?_
  rw [Value.unplacedAll_eq_map, Value.unplacedAll_eq_map, same]

theorem entriesAfter {entries : List (Value × Value)} {rounds : Nat} (enough : budget < rounds)
    (read : List (Value × Value)) :
    Fits (fun copies => Value.unplacedEntries copies =
        Value.unplacedEntries read.reverse ++ Value.unplacedEntries entries) budget
      (Script.entriesAfter rounds read)
      ((entries.flatMap fun entry => Part.values [entry.1, entry.2]) ++ [.value none]) := by
  -- Every round asks for a value at least, so the rounds last as long as the bytes.
  induction entries generalizing budget rounds read with
  | nil =>
      obtain ⟨rounds, rfl⟩ := Nat.exists_eq_succ_of_ne_zero (Nat.ne_zero_of_lt enough)
      refine child fun answer same fewer less => ?_
      cases answer with
      | none => exact pure (by rw [Value.unplacedEntries, List.append_nil])
      | some copy => cases same
  | cons entry others induction =>
      obtain ⟨rounds, rfl⟩ := Nat.exists_eq_succ_of_ne_zero (Nat.ne_zero_of_lt enough)
      refine child fun answer sameKey fewer less => ?_
      cases answer with
      | none => cases sameKey
      | some key =>
          refine required fun value sameValue last lesser => ?_
          have enoughLeft : last < rounds := by omega
          refine (induction enoughLeft ((key, value) :: read)).weaken fun copies equal => ?_
          have sameKey : key.unplaced = entry.1.unplaced := Option.some.inj sameKey
          have sameValue : value.unplaced = entry.2.unplaced := sameValue
          rw [equal]
          simp only [Value.unplacedEntries_eq_map, List.reverse_cons, List.map_append,
            List.map_cons, List.map_nil, sameKey, sameValue, List.append_assoc,
            List.singleton_append]

theorem entries (entries : List (Value × Value)) :
    Fits (fun copies => Value.unplacedEntries copies = Value.unplacedEntries entries) budget
      Script.entries
      ((entries.flatMap fun entry => Part.values [entry.1, entry.2]) ++ [.value none]) :=
  fun left => entriesAfter (Nat.lt_succ_self left) []

theorem bytesField (content : Bytes) (field : CodeField) :
    Fits (· = content) budget (Script.bytesField field) [.value (some (.bytes content))] := by
  refine required fun copy same fewer less => ?_
  rw [same.bytes]
  exact pure rfl

theorem textField {content : String} {value : Value} (isText : IsText content value)
    (field : CodeField) :
    Fits (· = content) budget (Script.textField field) [.value (some value)] := by
  refine required fun copy same fewer less => ?_
  obtain ⟨interned, rfl⟩ := Value.text?_eq_some (same.text?.trans isText)
  exact pure rfl

theorem tupleField (items : List Value) (field : CodeField) :
    Fits (fun copies => copies.map Value.unplaced = items.map Value.unplaced) budget
      (Script.tupleField field) [.value (some (.tuple items))] := by
  refine required fun copy same fewer less => ?_
  obtain ⟨copies, rfl, equal⟩ := same.tuple
  exact pure equal

theorem namesField {names : List String} {value : Value} (isNames : IsNames names value)
    (field : CodeField) :
    Fits (· = names) budget (Script.namesField field) [.value (some value)] := by
  obtain ⟨items, rfl, texts⟩ := isNames
  refine (tupleField items field).last fun copies same fewer => ?_
  rw [namesOf_eq_ok ((Value.map_text?_of_unplaced same).trans texts)]
  exact pure rfl

end Values

section Code

variable {profile : Profile} {info : CodeInfo} {consts frontValues backValues : List Value}
  {counts : List Nat}

theorem splitCode (site : Nat) (separate : profile.layout = .split)
    (version : info.version = profile.version)
    (fields : Fields profile info consts counts frontValues backValues)
    (size : ∀ count ∈ counts, count < 2 ^ 31) :
    Fits (fun unit => unit.toValue.SameAs (.code info consts)) budget
      (Script.splitCode profile.version site)
      (codeParts info counts frontValues backValues) := by
  cases fields with
  | unified layout =>
      rw [separate] at layout
      cases layout
  | split layout tables qualname exceptiontable isNames isLocals isFree isCells isFilename isName =>
      simp only [List.forall_mem_cons] at size
      refine (count size.1 _).andThen fun _ => ?_
      refine (count size.2.1 _).andThen fun _ => ?_
      refine (count size.2.2.1 _).andThen fun _ => ?_
      refine (count size.2.2.2.1 _).andThen fun _ => ?_
      refine (count size.2.2.2.2.1 _).andThen fun _ => ?_
      refine (digits info.flags.bits.toNat_lt).andThen fun _ => ?_
      refine (bytesField _ _).andThen fun _ => ?_
      refine (tupleField _ _).bind fun copies sameConsts _ => ?_
      refine (namesField isNames _).andThen fun _ => ?_
      refine (namesField isLocals _).andThen fun _ => ?_
      refine (namesField isFree _).andThen fun _ => ?_
      refine (namesField isCells _).andThen fun _ => ?_
      refine (textField isFilename _).andThen fun _ => ?_
      refine (textField isName _).andThen fun _ => ?_
      refine (i32 info.firstLine).andThen fun _ => ?_
      refine (bytesField _ _).andThen fun _ => ?_
      refine pure ?_
      rw [← version, ← qualname, ← exceptiontable, ← tables, UInt32.ofNat_toNat]
      exact Value.sameAs_code sameConsts

theorem unifiedCode (site : Nat) (shared : profile.layout = .unified)
    (version : info.version = profile.version)
    (fields : Fields profile info consts counts frontValues backValues)
    (size : ∀ count ∈ counts, count < 2 ^ 31) :
    Fits (fun unit => unit.toValue.SameAs (.code info consts)) budget
      (Script.unifiedCode profile.version site)
      (codeParts info counts frontValues backValues) := by
  cases fields with
  | split layout =>
      rw [shared] at layout
      cases layout
  | unified layout tables paired counted hasQualname isNames isLocals isFilename isName
      isQualname =>
      simp only [List.forall_mem_cons] at size
      refine (count size.1 _).andThen fun _ => ?_
      refine (count size.2.1 _).andThen fun _ => ?_
      refine (count size.2.2.1 _).andThen fun _ => ?_
      refine (count size.2.2.2.1 _).andThen fun _ => ?_
      refine (digits info.flags.bits.toNat_lt).andThen fun _ => ?_
      refine (bytesField _ _).andThen fun _ => ?_
      refine (tupleField _ _).bind fun copies sameConsts _ => ?_
      refine (namesField isNames _).andThen fun _ => ?_
      refine (namesField isLocals _).andThen fun _ => ?_
      refine (bytesField _ _).andThen fun _ => ?_
      rw [if_neg (not_not_intro paired)]
      refine (textField isFilename _).andThen fun _ => ?_
      refine (textField isName _).andThen fun _ => ?_
      refine (textField isQualname _).andThen fun _ => ?_
      refine (i32 info.firstLine).andThen fun _ => ?_
      refine (bytesField _ _).andThen fun _ => ?_
      refine (bytesField _ _).andThen fun _ => ?_
      refine pure ?_
      rw [← version, ← hasQualname, ← counted, ← tables, UInt32.ofNat_toNat]
      exact Value.sameAs_code sameConsts

theorem code (site : Nat) (version : info.version = profile.version)
    (fields : Fields profile info consts counts frontValues backValues)
    (size : ∀ count ∈ counts, count < 2 ^ 31) :
    Fits (fun unit => unit.toValue.SameAs (.code info consts)) budget (Script.code profile site)
      (codeParts info counts frontValues backValues) := by
  cases layout : profile.layout with
  | split =>
      simp only [Script.code, layout]
      exact splitCode site layout version fields size
  | unified =>
      simp only [Script.code, layout]
      exact unifiedCode site layout version fields size

end Code

end Fits

/-- The script of a form of value goes along the parts of that form. -/
theorem fits_of_shape {profile : Profile} {char : Char} {value : Value} {parts : List Part}
    (shape : Shape profile char value parts) :
    ∃ form, Tag.ofChar? char = some (.body form) ∧
      ∀ site budget, Fits (·.SameAs value) budget (Script.body profile site form) parts := by
  cases shape with
  | int32 number =>
      refine ⟨.int32, rfl, fun site budget => (Fits.i32 number).convert ?_⟩
      rintro written rfl
      rfl
  | int64 number =>
      refine ⟨.int64, rfl, fun site budget => (Fits.bytes (Bytes.ofInt64 number)).convert ?_⟩
      rintro written rfl
      exact congrArg Value.int64 (Bytes.ofNat_ofInt64 number)
  | long size bounded same =>
      refine ⟨.long, rfl, fun site budget => (Fits.long size bounded site).convert ?_⟩
      rintro number rfl
      rw [same]
      rfl
  | float number =>
      refine ⟨.float .binary, rfl, fun site budget => ?_⟩
      refine (Fits.binaryFloat number site.offset).convert ?_
      rintro written rfl
      rfl
  | decimal isLiteral =>
      refine ⟨.float .decimal, rfl, fun site budget => ?_⟩
      refine (Fits.decimalFloat isLiteral site.offset).convert ?_
      rintro number rfl
      rfl
  | complex real imaginary =>
      refine ⟨.complex .binary, rfl, fun site budget => ?_⟩
      refine (Fits.binaryFloat real site.offset).andThen fun _ => ?_
      refine (Fits.binaryFloat imaginary site.offset).convert ?_
      rintro number rfl
      rfl
  | decimalComplex isReal isImaginary =>
      refine ⟨.complex .decimal, rfl, fun site budget => ?_⟩
      refine (Fits.decimalFloat isReal site.offset).andThen fun _ => ?_
      refine (Fits.decimalFloat isImaginary site.offset).convert ?_
      rintro number rfl
      rfl
  | bytes size =>
      refine ⟨.bytes, rfl, fun site budget => (Fits.byteString size site).convert ?_⟩
      rintro data rfl
      rfl
  | text encoded =>
      obtain ⟨form, named, -, fits⟩ := Fits.text encoded
      refine ⟨.text form false, named, fun site budget => (fits site budget).last ?_⟩
      rintro content rfl fewer
      exact Fits.pure rfl
  | internedText encoded =>
      obtain ⟨form, -, named, fits⟩ := Fits.text encoded
      refine ⟨.text form true, named, fun site budget => (fits site budget).andThen fun _ => ?_⟩
      exact ⟨[], rfl, Fits.pure rfl⟩
  | sequence named size =>
      simp only [sequences, List.mem_cons, Prod.mk.injEq, List.not_mem_nil, or_false] at named
      rcases named with ⟨rfl, rfl⟩ | ⟨rfl, rfl⟩ | ⟨rfl, rfl⟩ | ⟨rfl, rfl⟩
      · refine ⟨.tuple false, rfl, fun site budget => ?_⟩
        exact (Fits.length size site).andThen fun _ =>
          Fits.items.convert fun copies same => congrArg Value.tuple same
      · refine ⟨.list, rfl, fun site budget => ?_⟩
        exact (Fits.length size site).andThen fun _ =>
          Fits.items.convert fun copies same => congrArg Value.list same
      · refine ⟨.set, rfl, fun site budget => ?_⟩
        exact (Fits.length size site).andThen fun _ =>
          Fits.items.convert fun copies same => congrArg Value.set same
      · refine ⟨.frozenSet, rfl, fun site budget => ?_⟩
        exact (Fits.length size site).andThen fun _ =>
          Fits.items.convert fun copies same => congrArg Value.frozenSet same
  | shortTuple size =>
      refine ⟨.tuple true, rfl, fun site budget => ?_⟩
      exact (Fits.digits (Nat.lt_succ_of_le size)).andThen fun _ =>
        Fits.items.convert fun copies same => congrArg Value.tuple same
  | dict entries =>
      refine ⟨.dict, rfl, fun site budget => ?_⟩
      have along := @Fits.entries budget entries
      exact along.convert fun copies same => congrArg Value.dict same
  | code version fields size =>
      refine ⟨.code, rfl, fun site budget => ?_⟩
      exact (Fits.code site.offset version fields size).convert fun unit same => same

end Script
end CodeScope

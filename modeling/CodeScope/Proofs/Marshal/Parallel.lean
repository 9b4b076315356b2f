import CodeScope.Marshal.Stream
import CodeScope.Proofs.Value.Parts
import Mathlib.Algebra.Ring.Nat

/-!
# Parallel scripts

The same value may be read twice: by two versions, or from a stream and from a longer one. The two
scripts of its body are parallel: they ask for the same things, and as long as the answers are the
same up to the versions of code units, so is what they end with. What the values inside have in
common is kept track of on the way, so that a script is also parallel to itself whenever its value
has from its parts what they have.
-/

namespace CodeScope

/-- The variable tables of a code unit, and the fields that go with them, in a layout. -/
inductive CodeUnit.LaidOut (unit : CodeUnit) : CodeLayout → Prop
  | split {varnames cellvars freevars : List String}
      (tables : unit.locals = .split varnames cellvars freevars)
      (qualname : unit.qualname = none)
      (exceptiontable : unit.exceptiontable = []) : LaidOut unit .split
  | unified {names : List String} {kinds : Bytes} {qualname : String}
      (tables : unit.locals = .unified names kinds)
      (paired : kinds.length = names.length)
      (counted : unit.nlocals = kinds.countP fun kind => VariableKind.localVar.isIn kind)
      (qualname : unit.qualname = some qualname) : LaidOut unit .unified

/-- A code unit of a version, put together from values that have a property. -/
structure CodeUnit.Assembled (profile : Profile) (holds : Value → Prop) (unit : CodeUnit) :
    Prop where
  version : unit.version = profile.version
  layout : unit.LaidOut profile.layout
  counts : ∀ count ∈ [unit.argcount, unit.posonlyargcount, unit.kwonlyargcount, unit.stacksize],
    count < 2 ^ 31
  /-- The number of local variables is a count as well, or that of some bytes among the kinds. -/
  nlocals : unit.nlocals < 2 ^ 31 ∨
    ∃ kinds : Bytes, holds (.bytes kinds) ∧ unit.nlocals ≤ kinds.length
  consts : ∀ value ∈ unit.consts, holds value

namespace Value

/-- A byte string whose length is below 2³¹, or any other value. -/
def Fits : Value → Prop
  | bytes data => data.length < 2 ^ 31
  | _ => True

/--
A property that a value has because the values inside have one, and that these share with the values
inside them.
-/
structure Inherited (profile : Profile) (inner outer : Value → Prop) : Prop where
  parts : ∀ {value : Value}, inner value → ∀ part ∈ value.parts, inner part
  node : ∀ {value : Value}, value.code? = Option.none → value.Fits →
    (∀ part ∈ value.parts, inner part) → outer value
  unit : ∀ {unit : CodeUnit}, unit.Assembled profile inner → outer unit.toValue

theorem inherited_true (profile : Profile) :
    Inherited profile (fun _ => True) (fun _ => True) :=
  ⟨fun _ _ _ => trivial, fun _ _ _ => trivial, fun _ => trivial⟩

end Value

namespace Script

/--
Two scripts that ask for the same things and end alike. The values inside the first one have a
property, those inside the second one are the same up to a change of versions. If `longer` is true
the second script may find more bytes left, and anything may come of it where the first one gives up
for want of bytes.
-/
inductive Parallel (change : Version → Version) (inner : Value → Prop) (longer : Prop)
    {α β : Type} (ends : α → β → Prop) : Script α → Script β → Prop
  | done {left : α} {right : β} (ended : ends left right) :
      Parallel change inner longer ends (.done left) (.done right)
  | fail (error : Error) : Parallel change inner longer ends (.fail error) (.fail error)
  | starved (isLonger : longer) (needed : Nat) (right : Script β) :
      Parallel change inner longer ends
        (.askOffset fun offset => .fail (.truncated needed offset)) right
  | takeBytes {count : Nat} {left : Bytes → Script α} {right : Bytes → Script β}
      (next : ∀ data, data.length = count →
        Parallel change inner longer ends (left data) (right data)) :
      Parallel change inner longer ends (.takeBytes count left) (.takeBytes count right)
  | askOffset {left : Nat → Script α} {right : Nat → Script β}
      (next : ∀ offset, Parallel change inner longer ends (left offset) (right offset)) :
      Parallel change inner longer ends (.askOffset left) (.askOffset right)
  | askRemaining {left : Nat → Script α} {right : Nat → Script β}
      (next : ∀ few many, few ≤ many → (few < many → longer) →
        Parallel change inner longer ends (left few) (right many)) :
      Parallel change inner longer ends (.askRemaining left) (.askRemaining right)
  | markFilling {left : Script α} {right : Script β}
      (next : Parallel change inner longer ends left right) :
      Parallel change inner longer ends (.markFilling left) (.markFilling right)
  | recordText {content : String} {left : Script α} {right : Script β}
      (next : Parallel change inner longer ends left right) :
      Parallel change inner longer ends (.recordText content left) (.recordText content right)
  | askChild {left : Option Value → Script α} {right : Option Value → Script β}
      (next : ∀ answer : Option Value, (∀ value ∈ answer, inner value) →
        Parallel change inner longer ends (left answer) (right (answer.map (.relabel change)))) :
      Parallel change inner longer ends (.askChild left) (.askChild right)

variable {α β γ δ : Type} {accepts : α → Prop}

/-- A script that takes nothing but bytes is parallel to itself and ends with the same result. -/
def Steady (script : Script α) (accepts : α → Prop) : Prop :=
  ∀ (change : Version → Version) (inner : Value → Prop) (longer : Prop),
    Parallel change inner longer (fun left right => right = left ∧ accepts left) script script

namespace Parallel

variable {change : Version → Version} {inner outer : Value → Prop} {longer : Prop}
variable {ends : α → β → Prop} {passes : γ → δ → Prop}

theorem pure {left : α} {right : β} (ended : ends left right) :
    Parallel change inner longer ends (Pure.pure left) (Pure.pure right) :=
  .done ended

theorem bind {left : Script α} {right : Script β} {leftNext : α → Script γ}
    {rightNext : β → Script δ} (first : Parallel change inner longer ends left right)
    (second : ∀ one other, ends one other →
      Parallel change inner longer passes (leftNext one) (rightNext other)) :
    Parallel change inner longer passes (left >>= leftNext) (right >>= rightNext) := by
  induction first with
  | done ended => exact second _ _ ended
  | fail error => exact .fail error
  | starved isLonger needed right => exact .starved isLonger needed (right >>= rightNext)
  | takeBytes next induction => exact .takeBytes induction
  | askOffset next induction => exact .askOffset induction
  | askRemaining next induction => exact .askRemaining induction
  | markFilling next induction => exact .markFilling induction
  | recordText next induction => exact .recordText induction
  | askChild next induction => exact .askChild induction

theorem map {left : Script α} {right : Script β} {convert : α → γ} {convertRight : β → δ}
    (parallel : Parallel change inner longer ends left right)
    (implies : ∀ one other, ends one other → passes (convert one) (convertRight other)) :
    Parallel change inner longer passes (convert <$> left) (convertRight <$> right) :=
  parallel.bind fun one other ended => pure (implies one other ended)

/-- A steady script first. -/
theorem after {script : Script α} {left : α → Script γ} {right : α → Script δ}
    (steady : Steady script accepts)
    (second : ∀ value, accepts value → Parallel change inner longer passes (left value)
      (right value)) :
    Parallel change inner longer passes (script >>= left) (script >>= right) := by
  apply (steady change inner longer).bind
  intro one other ended
  obtain ⟨rfl, accepted⟩ := ended
  exact second _ accepted

end Parallel

namespace Steady

variable {passes : β → Prop}

theorem pure {result : α} (accepted : accepts result) : Steady (Pure.pure result) accepts :=
  fun _ _ _ => .done ⟨rfl, accepted⟩

theorem fail (error : Error) : Steady (Script.fail error) accepts :=
  fun _ _ _ => .fail error

theorem bind {script : Script α} {next : α → Script β} (first : Steady script accepts)
    (second : ∀ value, accepts value → Steady (next value) passes) :
    Steady (script >>= next) passes :=
  fun change inner longer =>
    Parallel.after first fun value accepted => second value accepted change inner longer

theorem map {script : Script α} {convert : α → β} (steady : Steady script accepts)
    (implies : ∀ value, accepts value → passes (convert value)) :
    Steady (convert <$> script) passes :=
  steady.bind fun value accepted => pure (implies value accepted)

theorem offset : Steady Script.offset fun _ => True :=
  fun _ _ _ => .askOffset fun _ => .done ⟨rfl, trivial⟩

theorem bytes (count : Nat) : Steady (Script.bytes count) fun data => data.length = count :=
  fun _ _ _ => .takeBytes fun _ size => .done ⟨rfl, size⟩

theorem number (width : Nat) : Steady (Script.number width) fun _ => True :=
  (bytes width).map fun _ _ => trivial

theorem i32 : Steady Script.i32 fun _ => True :=
  (number 4).map fun _ _ => trivial

theorem toNat_toInt_lt {number : Int32} (natural : ¬number.toInt < 0) :
    number.toInt.toNat < 2 ^ 31 := by
  have upper := number.toInt_lt
  omega

theorem length (site : TagSite) : Steady (Script.length site) (· < 2 ^ 31) := by
  apply i32.bind
  intro count _
  simp only
  split
  · exact fail _
  · next natural => exact pure (toNat_toInt_lt natural)

theorem count (field : CodeField) : Steady (Script.count field) (· < 2 ^ 31) := by
  apply i32.bind
  intro count _
  split
  · exact fail _
  · next natural => exact pure (toNat_toInt_lt natural)

theorem timesAfter {part : Script α} (steady : Steady part accepts) (count : Nat)
    (read : List α) : Steady (Script.timesAfter part count read) fun _ => True := by
  induction count generalizing read with
  | zero => exact pure trivial
  | succ count induction => exact steady.bind fun value _ => induction (value :: read)

theorem longDigit (site : TagSite) : Steady (Script.longDigit site) fun _ => True := by
  apply (number 2).bind
  intro digit _
  split
  · exact pure trivial
  · exact fail _

theorem long (site : TagSite) : Steady (Script.long site) fun _ => True := by
  apply i32.bind
  intro count _
  exact ((longDigit site).timesAfter _ []).bind fun _ _ => pure trivial

theorem decimalFloat (offset : Nat) : Steady (Script.decimalFloat offset) fun _ => True := by
  apply (number 1).bind
  intro size _
  apply (bytes size).bind
  intro data _
  split
  · exact pure trivial
  · exact fail _

theorem float (offset : Nat) (form : FloatForm) :
    Steady (Script.float offset form) fun _ => True := by
  cases form with
  | decimal => exact decimalFloat offset
  | binary => exact (number 8).map fun _ _ => trivial

theorem byteString (site : TagSite) :
    Steady (Script.byteString site) fun data => data.length < 2 ^ 31 := by
  apply (length site).bind
  intro size small
  apply (bytes size).bind
  intro data taken
  exact pure (taken ▸ small)

theorem text (site : TagSite) (form : TextForm) :
    Steady (Script.text site form) fun _ => True := by
  cases form with
  | utf8 => exact (byteString site).map fun _ _ => trivial
  | latin1 => exact (byteString site).map fun _ _ => trivial
  | shortLatin1 =>
      apply (number 1).bind
      intro size _
      exact (bytes size).map fun _ _ => trivial

end Steady

theorem namesOf_relabel {change : Version → Version} (field : CodeField) (items : List Value) :
    namesOf field (items.map (.relabel change)) = namesOf field items := by
  induction items with
  | nil => rfl
  | cons item rest induction =>
      cases item with
      | text content interned =>
          have same : namesOf field ((Value.text content interned :: rest).map (.relabel change)) =
              (content :: ·) <$> namesOf field (rest.map (.relabel change)) := rfl
          rw [same, induction]
          rfl
      | _ => rfl

namespace Parallel

variable {change : Version → Version} {inner outer : Value → Prop} {longer : Prop}

theorem child :
    Parallel change inner longer
      (fun left right => right = left.map (.relabel change) ∧ ∀ value ∈ left, inner value)
      Script.child Script.child :=
  .askChild fun _ admitted => .done ⟨rfl, admitted⟩

theorem required :
    Parallel change inner longer (fun left right => right = left.relabel change ∧ inner left)
      Script.required Script.required := by
  apply after Steady.offset
  intro offset _
  apply child.bind
  intro answer other same
  obtain ⟨rfl, admitted⟩ := same
  cases answer with
  | none => exact .fail _
  | some value => exact pure ⟨rfl, admitted value rfl⟩

theorem itemsAfter (count : Nat) {read : List Value} (holds : ∀ value ∈ read, inner value) :
    Parallel change inner longer
      (fun left right => right = left.map (.relabel change) ∧ ∀ value ∈ left, inner value)
      (timesAfter Script.required count read)
      (timesAfter Script.required count (read.map (.relabel change))) := by
  induction count generalizing read with
  | zero =>
      refine pure ⟨List.map_reverse.symm, ?_⟩
      intro value member
      exact holds value (List.mem_reverse.mp member)
  | succ count induction =>
      apply required.bind
      intro value other same
      obtain ⟨rfl, admitted⟩ := same
      exact induction (List.forall_mem_cons.mpr ⟨admitted, holds⟩)

theorem items (count : Nat) :
    Parallel change inner longer
      (fun left right => right = left.map (.relabel change) ∧ ∀ value ∈ left, inner value)
      (Script.items count) (Script.items count) :=
  itemsAfter count (List.forall_mem_nil _)

/-- A script that gives up after fewer rounds than another one gives up for want of bytes. -/
theorem entriesAfter {few many : Nat} (fewer : few ≤ many) (short : few < many → longer)
    {read : List (Value × Value)} (holds : ∀ entry ∈ read, inner entry.1 ∧ inner entry.2) :
    Parallel change inner longer
      (fun left right =>
        right = left.map (fun entry => (entry.1.relabel change, entry.2.relabel change)) ∧
          ∀ entry ∈ left, inner entry.1 ∧ inner entry.2)
      (Script.entriesAfter few read)
      (Script.entriesAfter many
        (read.map fun entry => (entry.1.relabel change, entry.2.relabel change))) := by
  induction few generalizing many read with
  | zero =>
      -- Rounds are bytes: one that is left over belongs to a stream with more bytes.
      rcases Nat.eq_zero_or_pos many with rfl | positive
      · exact .askOffset fun offset => .fail _
      · exact .starved (short positive) 1 _
  | succ few induction =>
      obtain ⟨many, rfl⟩ := Nat.exists_eq_succ_of_ne_zero (Nat.ne_of_gt (Nat.zero_lt_of_lt fewer))
      apply child.bind
      intro answer other same
      obtain ⟨rfl, admitted⟩ := same
      cases answer with
      | none =>
          refine pure ⟨List.map_reverse.symm, ?_⟩
          intro entry member
          exact holds entry (List.mem_reverse.mp member)
      | some key =>
          apply required.bind
          intro value otherValue sameValue
          obtain ⟨rfl, admittedValue⟩ := sameValue
          have shorter : few < many → longer := fun less => short (Nat.succ_lt_succ less)
          have holdsMore : ∀ entry ∈ (key, value) :: read, inner entry.1 ∧ inner entry.2 :=
            List.forall_mem_cons.mpr ⟨⟨admitted key rfl, admittedValue⟩, holds⟩
          exact induction (Nat.le_of_succ_le_succ fewer) shorter holdsMore

theorem entries :
    Parallel change inner longer
      (fun left right =>
        right = left.map (fun entry => (entry.1.relabel change, entry.2.relabel change)) ∧
          ∀ entry ∈ left, inner entry.1 ∧ inner entry.2)
      Script.entries Script.entries := by
  refine .askRemaining fun few many fewer short => ?_
  have shorter : few + 1 < many + 1 → longer := fun less => short (Nat.lt_of_succ_lt_succ less)
  exact entriesAfter (Nat.succ_le_succ fewer) shorter (List.forall_mem_nil _)

section Fields

variable (field : CodeField)

theorem bytesField :
    Parallel change inner longer (fun left right => right = left ∧ inner (.bytes left))
      (Script.bytesField field) (Script.bytesField field) := by
  apply required.bind
  intro value other same
  obtain ⟨rfl, admitted⟩ := same
  cases value with
  | bytes data => exact pure ⟨rfl, admitted⟩
  | _ => exact .fail _

theorem textField :
    Parallel change inner longer (fun left right => right = left) (Script.textField field)
      (Script.textField field) := by
  apply required.bind
  intro value other same
  obtain ⟨rfl, -⟩ := same
  cases value with
  | text content interned => exact pure rfl
  | bytes data => exact pure rfl
  | _ => exact .fail _

variable (hereditary : ∀ {value : Value}, inner value → ∀ part ∈ value.parts, inner part)
include hereditary

theorem tupleField :
    Parallel change inner longer
      (fun left right => right = left.map (.relabel change) ∧ ∀ value ∈ left, inner value)
      (Script.tupleField field) (Script.tupleField field) := by
  apply required.bind
  intro value other same
  obtain ⟨rfl, admitted⟩ := same
  cases value with
  | tuple items => exact pure ⟨Value.relabelAll_eq_map items, hereditary admitted⟩
  | list items => exact pure ⟨Value.relabelAll_eq_map items, hereditary admitted⟩
  | none => exact pure ⟨rfl, List.forall_mem_nil _⟩
  | _ => exact .fail _

theorem namesField :
    Parallel change inner longer (fun left right => right = left) (Script.namesField field)
      (Script.namesField field) := by
  apply (tupleField field hereditary).bind
  intro items other same
  obtain ⟨rfl, -⟩ := same
  rw [namesOf_relabel]
  cases namesOf field items with
  | ok names => exact pure rfl
  | error error => exact .fail error

end Fields

section Code

variable {left right : Profile} (site : Nat)
  (hereditary : ∀ {value : Value}, inner value → ∀ part ∈ value.parts, inner part)
  (changed : change left.version = right.version)
include hereditary changed

/-- How two code units that are put together alike end. -/
def UnitEnds (change : Version → Version) (inner : Value → Prop) (profile : Profile)
    (left right : CodeUnit) : Prop :=
  right.toValue = left.toValue.relabel change ∧ left.Assembled profile inner

theorem splitCode (layout : left.layout = .split) :
    Parallel change inner longer (UnitEnds change inner left)
      (Script.splitCode left.version site) (Script.splitCode right.version site) := by
  refine after (Steady.count _) fun argcount smallArgcount => ?_
  refine after (Steady.count _) fun posonlyargcount smallPosonlyargcount => ?_
  refine after (Steady.count _) fun kwonlyargcount smallKwonlyargcount => ?_
  refine after (Steady.count _) fun nlocals smallNlocals => ?_
  refine after (Steady.count _) fun stacksize smallStacksize => ?_
  refine after (Steady.number 4) fun flags _ => ?_
  refine (bytesField _).bind fun code _ sameCode => ?_
  refine (tupleField _ hereditary).bind fun consts _ sameConsts => ?_
  refine (namesField _ hereditary).bind fun names _ sameNames => ?_
  refine (namesField _ hereditary).bind fun varnames _ sameVarnames => ?_
  refine (namesField _ hereditary).bind fun freevars _ sameFreevars => ?_
  refine (namesField _ hereditary).bind fun cellvars _ sameCellvars => ?_
  refine (textField _).bind fun filename _ sameFilename => ?_
  refine (textField _).bind fun name _ sameName => ?_
  refine after Steady.i32 fun firstLine _ => ?_
  refine (bytesField _).bind fun linetable _ sameLinetable => ?_
  obtain ⟨rfl, -⟩ := sameCode
  obtain ⟨rfl, holdsConsts⟩ := sameConsts
  obtain ⟨rfl, -⟩ := sameLinetable
  subst sameNames sameVarnames sameFreevars sameCellvars sameFilename sameName
  refine pure ⟨?_, ?_⟩
  · simp only [CodeUnit.toValue, Value.relabel, Value.relabelAll_eq_map, changed]
  · exact {
      version := rfl
      layout := layout ▸ .split rfl rfl rfl
      counts := by
        simpa using ⟨smallArgcount, smallPosonlyargcount, smallKwonlyargcount, smallStacksize⟩
      nlocals := .inl smallNlocals
      consts := holdsConsts }

theorem unifiedCode (layout : left.layout = .unified) :
    Parallel change inner longer (UnitEnds change inner left)
      (Script.unifiedCode left.version site) (Script.unifiedCode right.version site) := by
  refine after (Steady.count _) fun argcount smallArgcount => ?_
  refine after (Steady.count _) fun posonlyargcount smallPosonlyargcount => ?_
  refine after (Steady.count _) fun kwonlyargcount smallKwonlyargcount => ?_
  refine after (Steady.count _) fun stacksize smallStacksize => ?_
  refine after (Steady.number 4) fun flags _ => ?_
  refine (bytesField _).bind fun code _ sameCode => ?_
  refine (tupleField _ hereditary).bind fun consts _ sameConsts => ?_
  refine (namesField _ hereditary).bind fun names _ sameNames => ?_
  refine (namesField _ hereditary).bind fun localNames _ sameLocalNames => ?_
  refine (bytesField _).bind fun kinds _ sameKinds => ?_
  obtain ⟨rfl, -⟩ := sameCode
  obtain ⟨rfl, holdsConsts⟩ := sameConsts
  obtain ⟨rfl, holdsKinds⟩ := sameKinds
  subst sameNames sameLocalNames
  split
  · exact .fail _
  · next paired =>
      refine (textField _).bind fun filename _ sameFilename => ?_
      refine (textField _).bind fun name _ sameName => ?_
      refine (textField _).bind fun qualname _ sameQualname => ?_
      refine after Steady.i32 fun firstLine _ => ?_
      refine (bytesField _).bind fun linetable _ sameLinetable => ?_
      refine (bytesField _).bind fun exceptiontable _ sameExceptiontable => ?_
      obtain ⟨rfl, -⟩ := sameLinetable
      obtain ⟨rfl, -⟩ := sameExceptiontable
      subst sameFilename sameName sameQualname
      refine pure ⟨?_, ?_⟩
      · simp only [CodeUnit.toValue, Value.relabel, Value.relabelAll_eq_map, changed]
      · exact {
          version := rfl
          layout := layout ▸ .unified rfl (Decidable.not_not.mp paired) rfl rfl
          counts := by
            simpa using ⟨smallArgcount, smallPosonlyargcount, smallKwonlyargcount, smallStacksize⟩
          nlocals := .inr ⟨_, holdsKinds, List.countP_le_length⟩
          consts := holdsConsts }

theorem code (layouts : left.layout = right.layout) :
    Parallel change inner longer (UnitEnds change inner left)
      (Script.code left site) (Script.code right site) := by
  rw [Script.code, Script.code, ← layouts]
  cases layout : left.layout with
  | split => exact splitCode site hereditary changed layout
  | unified => exact unifiedCode site hereditary changed layout

end Code

end Parallel

section Body

variable {change : Version → Version} {inner outer : Value → Prop} {longer : Prop}
variable {left right : Profile} (inherited : Value.Inherited left inner outer)
include inherited

/-- A steady script whose result makes a value without parts. -/
theorem Steady.atom {script : Script α} {convert : α → Value} (steady : Steady script accepts)
    (empty : ∀ result, (convert result).parts = [])
    (plain : ∀ result, (convert result).code? = none)
    (fits : ∀ result, accepts result → (convert result).Fits) :
    Parallel change inner longer
      (fun one other => other = one.relabel change ∧ outer one)
      (convert <$> script) (convert <$> script) := by
  apply (steady change inner longer).map
  intro result other ended
  obtain ⟨rfl, accepted⟩ := ended
  refine ⟨(Value.relabel_of_atom (empty other) (plain other)).symm, ?_⟩
  apply inherited.node (plain other) (fits other accepted)
  rw [empty other]
  exact List.forall_mem_nil _

theorem Parallel.itemsOf {convert : List Value → Value} (count : Nat)
    (relabels : ∀ items, (convert items).relabel change = convert (items.map (.relabel change)))
    (parts : ∀ items, (convert items).parts = items)
    (plain : ∀ items, (convert items).code? = none ∧ (convert items).Fits) :
    Parallel change inner longer (fun one other => other = one.relabel change ∧ outer one)
      (convert <$> Script.items count) (convert <$> Script.items count) := by
  apply (Parallel.items count).map
  intro items other ended
  obtain ⟨rfl, holds⟩ := ended
  refine ⟨(relabels items).symm, inherited.node (plain items).1 (plain items).2 ?_⟩
  rw [parts items]
  exact holds

/--
The scripts of two bodies of the same form are parallel if code units have the same layout for both.
-/
theorem parallel_body (layouts : left.layout = right.layout)
    (changed : change left.version = right.version) (site : TagSite) (form : BodyForm) :
    Parallel change inner longer (fun one other => other = one.relabel change ∧ outer one)
      (body left site form) (body right site form) := by
  cases form with
  | int32 =>
      exact Steady.i32.atom inherited (fun _ => rfl) (fun _ => rfl) fun _ _ => trivial
  | int64 =>
      have steady : Steady (Int64.ofNat <$> number 8) fun _ => True :=
        (Steady.number 8).map fun _ _ => trivial
      exact steady.atom inherited (fun _ => rfl) (fun _ => rfl) fun _ _ => trivial
  | long =>
      exact (Steady.long site).atom inherited (fun _ => rfl) (fun _ => rfl) fun _ _ => trivial
  | float form =>
      exact (Steady.float site.offset form).atom inherited (fun _ => rfl) (fun _ => rfl)
        fun _ _ => trivial
  | complex form =>
      refine .after (Steady.float site.offset form) fun real _ => ?_
      exact (Steady.float site.offset form).atom inherited (fun _ => rfl) (fun _ => rfl)
        fun _ _ => trivial
  | bytes =>
      exact (Steady.byteString site).atom inherited (fun _ => rfl) (fun _ => rfl)
        fun _ small => small
  | text form interned =>
      refine .after (Steady.text site form) fun content _ => ?_
      have ended : (Value.text content interned).relabel change = .text content interned ∧
          outer (.text content interned) :=
        ⟨rfl, inherited.node rfl trivial (List.forall_mem_nil _)⟩
      cases interned with
      | false => exact .done ended
      | true => exact .recordText (.done ended)
  | tuple short =>
      have inside : ∀ count, Parallel change inner longer
          (fun one other => other = one.relabel change ∧ outer one)
          (Value.tuple <$> items count) (Value.tuple <$> items count) :=
        fun count => .itemsOf inherited count
          (fun items => congrArg Value.tuple (Value.relabelAll_eq_map items)) (fun _ => rfl)
          fun _ => ⟨rfl, trivial⟩
      cases short with
      | true => exact .after (Steady.number 1) fun count _ => inside count
      | false => exact .after (Steady.length site) fun count _ => inside count
  | list =>
      refine .after (Steady.length site) fun count _ => .markFilling ?_
      exact .itemsOf inherited count
        (fun items => congrArg Value.list (Value.relabelAll_eq_map items)) (fun _ => rfl)
        fun _ => ⟨rfl, trivial⟩
  | set =>
      refine .after (Steady.length site) fun count _ => .markFilling ?_
      exact .itemsOf inherited count
        (fun items => congrArg Value.set (Value.relabelAll_eq_map items)) (fun _ => rfl)
        fun _ => ⟨rfl, trivial⟩
  | frozenSet =>
      refine .after (Steady.length site) fun count _ => ?_
      exact .itemsOf inherited count
        (fun items => congrArg Value.frozenSet (Value.relabelAll_eq_map items)) (fun _ => rfl)
        fun _ => ⟨rfl, trivial⟩
  | dict =>
      refine .markFilling ?_
      apply Parallel.entries.map
      intro entries other ended
      obtain ⟨rfl, holds⟩ := ended
      refine ⟨by rw [Value.relabel, Value.relabelEntries_eq_map], inherited.node rfl trivial ?_⟩
      intro part member
      obtain ⟨entry, listed, isPart⟩ := Value.mem_parts_dict.mp member
      rcases isPart with rfl | rfl
      · exact (holds entry listed).1
      · exact (holds entry listed).2
  | code =>
      apply (Parallel.code site.offset inherited.parts changed layouts).map
      intro unit other ended
      exact ⟨ended.1, inherited.unit ended.2⟩

end Body

end Script
end CodeScope

import CodeScope.Proofs.Marshal.Script

/-!
# Properties of all readers

The scripts of numbers, byte strings and texts are put together from requests for bytes and from
errors. A property that these have, and that scripts in sequence have if each of them has it, is one
of all these scripts, and of the script of a code unit if that of a value has it. The reader is put
together from a few parts in the same way: it takes bytes, looks at its own place, changes its
tables and reads what a reference stands for.
-/

namespace CodeScope
namespace Script

/--
A property that requests for bytes have, and giving up with certain errors, and that is kept when
scripts are put together.
-/
structure Compositional (accepts : Error → Prop) (holds : ∀ {α : Type}, Script α → Prop) :
    Prop where
  pure : ∀ {α : Type} (result : α), holds (Pure.pure result)
  fail : ∀ {α : Type} {error : Error}, accepts error → holds (Script.fail error : Script α)
  bind : ∀ {α β : Type} {script : Script α} {next : α → Script β}, holds script →
    (∀ value, holds (next value)) → holds (script >>= next)
  bytes : ∀ count : Nat, holds (Script.bytes count)

theorem exists_notName_of_namesOf {field : CodeField} {items : List Value} {error : Error}
    (failed : namesOf field items = .error error) :
    ∃ kind, error = .malformedCode field (.notName kind) := by
  fun_induction namesOf field items with
  | case1 => cases failed
  | case2 content interned rest induction =>
      cases others : namesOf field rest with
      | ok names =>
          rw [others] at failed
          cases failed
      | error other =>
          rw [others] at failed
          cases failed
          exact induction others
  | case3 item rest notText =>
      cases failed
      exact ⟨_, rfl⟩

namespace Compositional

variable {accepts : Error → Prop} {holds : ∀ {α : Type}, Script α → Prop}
variable (compositional : Compositional accepts holds) {α β : Type}
include compositional

theorem map {script : Script α} (convert : α → β) (inner : holds script) :
    holds (convert <$> script) :=
  compositional.bind inner fun value => compositional.pure (convert value)

theorem timesAfter {part : Script α} (inner : holds part) (count : Nat) (read : List α) :
    holds (Script.timesAfter part count read) := by
  induction count generalizing read with
  | zero => exact compositional.pure _
  | succ count induction => exact compositional.bind inner fun value => induction (value :: read)

theorem times {part : Script α} (inner : holds part) (count : Nat) :
    holds (Script.times part count) :=
  compositional.timesAfter inner count []

theorem number (width : Nat) : holds (Script.number width) :=
  compositional.map Bytes.littleEndian (compositional.bytes width)

theorem i32 : holds Script.i32 :=
  compositional.map Int32.ofNat (compositional.number 4)

theorem count {field : CodeField}
    (negative : ∀ count, accepts (.malformedCode field (.negativeCount count))) :
    holds (Script.count field) := by
  apply compositional.bind compositional.i32
  intro count
  split
  · exact compositional.fail (negative count)
  · exact compositional.pure _

theorem decimalFloat {offset : Nat} (malformed : accepts (.malformedValue 0x66 offset)) :
    holds (Script.decimalFloat offset) := by
  apply compositional.bind (compositional.number 1)
  intro size
  apply compositional.bind (compositional.bytes size)
  intro data
  split
  · exact compositional.pure _
  · exact compositional.fail malformed

theorem float {offset : Nat} {form : FloatForm}
    (malformed : form = .decimal → accepts (.malformedValue 0x66 offset)) :
    holds (Script.float offset form) := by
  cases form with
  | decimal => exact compositional.decimalFloat (malformed rfl)
  | binary => exact compositional.map _ (compositional.number 8)

section Sites

variable {site : TagSite} (malformed : accepts site.malformed)
include malformed

theorem length : holds (Script.length site) := by
  apply compositional.bind compositional.i32
  intro count
  simp only
  split
  · exact compositional.fail malformed
  · exact compositional.pure _

theorem longDigit : holds (Script.longDigit site) := by
  apply compositional.bind (compositional.number 2)
  intro digit
  split
  · exact compositional.pure _
  · exact compositional.fail malformed

theorem long : holds (Script.long site) := by
  apply compositional.bind compositional.i32
  intro count
  exact compositional.map _ (compositional.times (compositional.longDigit malformed) _)

theorem byteString : holds (Script.byteString site) :=
  compositional.bind (compositional.length malformed) compositional.bytes

theorem text (form : TextForm) : holds (Script.text site form) := by
  cases form with
  | utf8 => exact compositional.map _ (compositional.byteString malformed)
  | latin1 => exact compositional.map _ (compositional.byteString malformed)
  | shortLatin1 =>
      apply compositional.bind (compositional.number 1)
      intro size
      exact compositional.map _ (compositional.bytes size)

end Sites

section Fields

variable (required : holds Script.required)
variable (malformed : ∀ field fault, accepts (.malformedCode field fault))
include required malformed

theorem bytesField (field : CodeField) : holds (Script.bytesField field) := by
  apply compositional.bind required
  intro value
  split
  · exact compositional.pure _
  · exact compositional.fail (malformed _ _)

theorem textField (field : CodeField) : holds (Script.textField field) := by
  apply compositional.bind required
  intro value
  split
  · exact compositional.pure _
  · exact compositional.pure _
  · exact compositional.fail (malformed _ _)

theorem tupleField (field : CodeField) : holds (Script.tupleField field) := by
  apply compositional.bind required
  intro value
  split
  · exact compositional.pure _
  · exact compositional.pure _
  · exact compositional.pure _
  · exact compositional.fail (malformed _ _)

theorem namesField (field : CodeField) : holds (Script.namesField field) := by
  apply compositional.bind (compositional.tupleField required malformed field)
  intro items
  split
  · exact compositional.pure _
  · next error failed =>
      obtain ⟨kind, rfl⟩ := exists_notName_of_namesOf failed
      exact compositional.fail (malformed _ _)

theorem splitCode (version : Version) (site : Nat) : holds (Script.splitCode version site) := by
  have count := fun field => compositional.count fun count => malformed field (.negativeCount count)
  have nameTable := compositional.namesField required malformed
  have text := compositional.textField required malformed
  refine compositional.bind (count _) fun argcount => ?_
  refine compositional.bind (count _) fun posonlyargcount => ?_
  refine compositional.bind (count _) fun kwonlyargcount => ?_
  refine compositional.bind (count _) fun nlocals => ?_
  refine compositional.bind (count _) fun stacksize => ?_
  refine compositional.bind (compositional.number 4) fun flags => ?_
  refine compositional.bind (compositional.bytesField required malformed _) fun code => ?_
  refine compositional.bind (compositional.tupleField required malformed _) fun consts => ?_
  refine compositional.bind (nameTable _) fun names => ?_
  refine compositional.bind (nameTable _) fun varnames => ?_
  refine compositional.bind (nameTable _) fun freevars => ?_
  refine compositional.bind (nameTable _) fun cellvars => ?_
  refine compositional.bind (text _) fun filename => ?_
  refine compositional.bind (text _) fun name => ?_
  refine compositional.bind compositional.i32 fun firstLine => ?_
  refine compositional.bind (compositional.bytesField required malformed _) fun linetable => ?_
  exact compositional.pure _

theorem unifiedCode (version : Version) (site : Nat) : holds (Script.unifiedCode version site) := by
  have count := fun field => compositional.count fun count => malformed field (.negativeCount count)
  have bytes := compositional.bytesField required malformed
  have nameTable := compositional.namesField required malformed
  have text := compositional.textField required malformed
  refine compositional.bind (count _) fun argcount => ?_
  refine compositional.bind (count _) fun posonlyargcount => ?_
  refine compositional.bind (count _) fun kwonlyargcount => ?_
  refine compositional.bind (count _) fun stacksize => ?_
  refine compositional.bind (compositional.number 4) fun flags => ?_
  refine compositional.bind (bytes _) fun code => ?_
  refine compositional.bind (compositional.tupleField required malformed _) fun consts => ?_
  refine compositional.bind (nameTable _) fun names => ?_
  refine compositional.bind (nameTable _) fun localNames => ?_
  refine compositional.bind (bytes _) fun kinds => ?_
  split
  · exact compositional.fail (malformed _ _)
  · refine compositional.bind (text _) fun filename => ?_
    refine compositional.bind (text _) fun name => ?_
    refine compositional.bind (text _) fun qualname => ?_
    refine compositional.bind compositional.i32 fun firstLine => ?_
    refine compositional.bind (bytes _) fun linetable => ?_
    exact compositional.bind (bytes _) fun exceptiontable => compositional.pure _

theorem code (profile : Profile) (site : Nat) : holds (Script.code profile site) := by
  rw [Script.code]
  split
  · exact compositional.splitCode required malformed profile.version site
  · exact compositional.unifiedCode required malformed profile.version site

end Fields

end Compositional
end Script

namespace Reading

/-- A property that the parts of the reader have, and that is kept when they are put together. -/
structure Compositional (holds : ∀ {α : Type}, Reading α → Prop) : Prop where
  pure : ∀ {α : Type} (value : α), holds (Pure.pure value)
  fail : ∀ {α : Type} (error : Error), holds (Reading.fail error : Reading α)
  bind : ∀ {α β : Type} {part : Reading α} {after : α → Reading β}, holds part →
    (∀ value, holds (after value)) → holds (part >>= after)
  /-- The choice of a part may depend on the state. -/
  choice : ∀ {α : Type} {part : ReaderState → Reading α}, (∀ state, holds (part state)) →
    holds fun state => part state state
  nested : ∀ {α : Type} {part : Reading α}, holds part → holds (Reading.nested part)
  bytes : ∀ count : Nat, holds (scan (Scan.bytes count))
  offset : holds Reading.offset
  remaining : holds Reading.remaining
  reserve : holds Reading.reserve
  setSlot : ∀ (index : Option Nat) (slot : Slot), holds (Reading.setSlot index slot)
  intern : ∀ content : String, holds (Reading.intern content)
  resolve : ∀ index : UInt32, holds (Reading.resolve index)
  resolveInterned : ∀ index : UInt32, holds (Reading.resolveInterned index)

namespace Compositional

variable {holds : ∀ {α : Type}, Reading α → Prop} (compositional : Compositional holds)
variable {α β : Type}
include compositional

theorem map {part : Reading α} (convert : α → β) (inner : holds part) :
    holds (convert <$> part) := by
  rw [map_eq_pure_bind]
  exact compositional.bind inner fun value => compositional.pure (convert value)

theorem littleEndian (width : Nat) : holds (scan (Scan.littleEndian width)) := by
  rw [scan_littleEndian]
  exact compositional.map _ (compositional.bytes width)

theorem u8 : holds (scan Scan.u8) := by
  rw [Scan.u8, scan_map]
  exact compositional.map _ (compositional.littleEndian 1)

theorem u32 : holds (scan Scan.u32) := by
  rw [Scan.u32, scan_map]
  exact compositional.map _ (compositional.littleEndian 4)

theorem reserveFor (byte : UInt8) : holds (Reading.reserveFor byte) := by
  rw [Reading.reserveFor]
  split
  · exact compositional.map some compositional.reserve
  · exact compositional.pure none

theorem run {inside : Reading (Option Value)} (inner : holds inside) (slot : Option Nat)
    (script : Script α) : holds (script.run inside slot) := by
  induction script with
  | done result => exact compositional.pure result
  | fail error => exact compositional.fail error
  | takeBytes count next induction => exact compositional.bind (compositional.bytes count) induction
  | askOffset next induction => exact compositional.bind compositional.offset induction
  | askRemaining next induction => exact compositional.bind compositional.remaining induction
  | markFilling next induction =>
      exact compositional.bind (compositional.setSlot slot .filling) fun _ => induction
  | recordText content next induction =>
      exact compositional.bind (compositional.intern content) fun _ => induction
  | askChild next induction => exact compositional.bind inner induction

theorem opening : holds Reading.opening := by
  refine compositional.bind compositional.offset fun offset => ?_
  refine compositional.bind compositional.u8 fun byte => ?_
  simp only
  split
  · exact compositional.pure _
  · exact compositional.pure _
  · refine compositional.bind compositional.u32 fun index => ?_
    exact compositional.bind (compositional.resolve index) fun value => compositional.pure _
  · refine compositional.bind compositional.u32 fun index => ?_
    exact compositional.bind (compositional.resolveInterned index) fun value =>
      compositional.pure _
  · exact compositional.bind (compositional.reserveFor byte) fun slot => compositional.pure _
  · exact compositional.bind (compositional.reserveFor byte) fun slot => compositional.fail _

theorem tagged (profile : Profile) {inside : Reading (Option Value)} (inner : holds inside) :
    holds (Reading.tagged profile inside) := by
  apply compositional.bind compositional.opening
  intro opened
  cases opened with
  | settled value => exact compositional.pure value
  | body form site slot =>
      refine compositional.bind (compositional.run inner slot _) fun value => ?_
      exact compositional.bind (compositional.setSlot slot _) fun _ => compositional.pure _

/-- The property is one of the reader of a value, with any number of levels of nesting. -/
theorem optional (profile : Profile) (levels : Nat) : holds (Reading.optional profile levels) := by
  induction levels with
  | zero => exact compositional.bind compositional.offset fun offset => compositional.fail _
  | succ levels induction => exact compositional.nested (compositional.tagged profile induction)

theorem value (profile : Profile) : holds (Reading.value profile) := by
  have read : ∀ state : ReaderState,
      holds (Script.required.run (Reading.optional profile (nestingLimit - state.depth)) none) :=
    fun state => compositional.run (compositional.optional profile _) none Script.required
  have chosen := compositional.choice read
  exact chosen

end Compositional
end Reading
end CodeScope

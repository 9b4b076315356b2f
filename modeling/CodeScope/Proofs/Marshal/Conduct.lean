import CodeScope.Proofs.Marshal.Composition
import CodeScope.Proofs.Marshal.Session
import CodeScope.Proofs.Marshal.Slots

/-!
# The conduct of scripts

A script opens its value to references before it asks for the first value inside, if its form can
hold itself, and never otherwise. The references inside its result come from the values that it
asked for.
-/

namespace CodeScope
namespace Script

/-- An answer whose references all name slots that satisfy a property. -/
def Admits (allowed : Nat → Prop) (answer : Option Value) : Prop :=
  ∀ value, answer = some value → value.RefersWithin allowed

/--
A script asks for values inside only when its own value is open to references exactly if `shared`
says so. If the answers are admitted, it ends as `ends` says. `marked` tells whether its value is
open at first.
-/
def Conducts {α : Type} (allowed : Nat → Prop) (shared : Bool) :
    Script α → Bool → (Bool → α → Prop) → Prop
  | done result, marked, ends => ends marked result
  | fail _, _, _ => True
  | takeBytes _ next, marked, ends => ∀ data, (next data).Conducts allowed shared marked ends
  | askOffset next, marked, ends => ∀ offset, (next offset).Conducts allowed shared marked ends
  | askRemaining next, marked, ends => ∀ left, (next left).Conducts allowed shared marked ends
  | markFilling next, _, ends => next.Conducts allowed shared true ends
  | recordText _ next, marked, ends => next.Conducts allowed shared marked ends
  | askChild next, marked, ends =>
      marked = shared ∧
        ∀ answer, Admits allowed answer → (next answer).Conducts allowed shared marked ends

variable {α β : Type} {allowed : Nat → Prop} {shared marked : Bool}

theorem conducts_bind {script : Script α} {next : α → Script β} {ends : Bool → β → Prop} :
    (script >>= next).Conducts allowed shared marked ends ↔
      script.Conducts allowed shared marked fun marked value =>
        (next value).Conducts allowed shared marked ends := by
  induction script generalizing marked with
  | done result => exact Iff.rfl
  | fail error => exact Iff.rfl
  | takeBytes count further induction => exact forall_congr' fun data => induction data
  | askOffset further induction => exact forall_congr' fun offset => induction offset
  | askRemaining further induction => exact forall_congr' fun left => induction left
  | markFilling further induction => exact induction
  | recordText content further induction => exact induction
  | askChild further induction =>
      exact and_congr_right fun _ => forall_congr' fun answer => forall_congr' fun _ =>
        induction answer

theorem Conducts.weaken {script : Script α} {strong weak : Bool → α → Prop}
    (conducts : script.Conducts allowed shared marked strong)
    (implies : ∀ marked value, strong marked value → weak marked value) :
    script.Conducts allowed shared marked weak := by
  induction script generalizing marked with
  | done result => exact implies marked result conducts
  | fail error => trivial
  | takeBytes count next induction => exact fun data => induction data (conducts data)
  | askOffset next induction => exact fun offset => induction offset (conducts offset)
  | askRemaining next induction => exact fun left => induction left (conducts left)
  | markFilling next induction => exact induction conducts
  | recordText content next induction => exact induction conducts
  | askChild next induction =>
      exact ⟨conducts.1, fun answer admitted => induction answer (conducts.2 answer admitted)⟩

/-- A script that asks for no value inside and does not open its own. -/
def Quiet (script : Script α) : Prop :=
  ∀ (allowed : Nat → Prop) (shared marked : Bool),
    script.Conducts allowed shared marked fun after _ => after = marked

namespace Quiet

theorem pure (result : α) : Quiet (Pure.pure result : Script α) := fun _ _ _ => rfl

theorem fail (error : Error) : Quiet (Script.fail error : Script α) := fun _ _ _ => trivial

theorem bytes (count : Nat) : Quiet (Script.bytes count) := fun _ _ _ _ => rfl

theorem offset : Quiet Script.offset := fun _ _ _ _ => rfl

theorem remaining : Quiet Script.remaining := fun _ _ _ _ => rfl

theorem bind {script : Script α} {next : α → Script β} (first : Quiet script)
    (second : ∀ value, Quiet (next value)) : Quiet (script >>= next) := by
  intro allowed shared marked
  rw [conducts_bind]
  apply (first allowed shared marked).weaken
  intro after value same
  subst same
  exact second value allowed shared after

theorem compositional : Compositional (fun _ => True) Quiet where
  pure := pure
  fail := fun {_ error} _ => fail error
  bind := bind
  bytes := bytes

theorem number (width : Nat) : Quiet (Script.number width) := compositional.number width

theorem i32 : Quiet Script.i32 := compositional.i32

theorem count (field : CodeField) : Quiet (Script.count field) :=
  compositional.count fun _ => trivial

theorem length (site : TagSite) : Quiet (Script.length site) := compositional.length trivial

theorem float (offset : Nat) (form : FloatForm) : Quiet (Script.float offset form) :=
  compositional.float fun _ => trivial

end Quiet

/-- A script that asks for values inside while its own is as `shared` says, and leaves it so. -/
def Yields (allowed : Nat → Prop) (shared : Bool) (script : Script α) (accepts : α → Prop) : Prop :=
  script.Conducts allowed shared shared fun after value => after = shared ∧ accepts value

namespace Yields

variable {accepts : α → Prop} {passes : β → Prop}

theorem pure {result : α} (accepted : accepts result) :
    Yields allowed shared (Pure.pure result) accepts :=
  ⟨rfl, accepted⟩

theorem fail (error : Error) : Yields allowed shared (Script.fail error : Script α) accepts :=
  trivial

theorem bind {script : Script α} {next : α → Script β}
    (first : Yields allowed shared script accepts)
    (second : ∀ value, accepts value → Yields allowed shared (next value) passes) :
    Yields allowed shared (script >>= next) passes := by
  rw [Yields, conducts_bind]
  apply Conducts.weaken first
  intro after value ended
  rw [ended.1]
  exact second value ended.2

theorem ofQuiet {script : Script α} (quiet : Quiet script) :
    Yields allowed shared script fun _ => True := by
  apply (quiet allowed shared shared).weaken
  intro after value same
  exact ⟨same, trivial⟩

/-- A quiet script first. -/
theorem after {script : Script α} {next : α → Script β} (quiet : Quiet script)
    (second : ∀ value, Yields allowed shared (next value) passes) :
    Yields allowed shared (script >>= next) passes :=
  (ofQuiet quiet).bind fun value _ => second value

theorem child : Yields allowed shared Script.child (Admits allowed) :=
  ⟨rfl, fun _ admitted => ⟨rfl, admitted⟩⟩

theorem required :
    Yields allowed shared Script.required fun value => value.RefersWithin allowed := by
  apply after Quiet.offset
  intro offset
  apply child.bind
  intro answer admitted
  cases answer with
  | none => exact fail _
  | some value => exact pure (admitted value rfl)

theorem itemsAfter (count : Nat) {read : List Value}
    (refers : ∀ value ∈ read, value.RefersWithin allowed) :
    Yields allowed shared (Script.timesAfter Script.required count read) fun values =>
      ∀ value ∈ values, value.RefersWithin allowed := by
  induction count generalizing read with
  | zero =>
      apply pure
      intro value member
      exact refers value (List.mem_reverse.mp member)
  | succ count induction =>
      apply required.bind
      intro value admitted
      apply induction
      intro other member
      rcases List.mem_cons.mp member with same | earlier
      · rw [same]
        exact admitted
      · exact refers other earlier

theorem items (count : Nat) : Yields allowed shared (Script.items count) fun values =>
    ∀ value ∈ values, value.RefersWithin allowed := by
  apply itemsAfter
  intro value member
  simp at member

theorem entriesAfter (rounds : Nat) {read : List (Value × Value)}
    (refers : ∀ entry ∈ read, entry.1.RefersWithin allowed ∧ entry.2.RefersWithin allowed) :
    Yields allowed shared (Script.entriesAfter rounds read) fun entries =>
      ∀ entry ∈ entries, entry.1.RefersWithin allowed ∧ entry.2.RefersWithin allowed := by
  induction rounds generalizing read with
  | zero => exact after Quiet.offset fun offset => fail _
  | succ rounds induction =>
      apply child.bind
      intro answer admitted
      cases answer with
      | none =>
          apply pure
          intro entry member
          exact refers entry (List.mem_reverse.mp member)
      | some key =>
          apply required.bind
          intro value refersValue
          apply induction
          intro entry member
          rcases List.mem_cons.mp member with same | earlier
          · rw [same]
            exact ⟨admitted key rfl, refersValue⟩
          · exact refers entry earlier

theorem entries : Yields allowed shared Script.entries fun entries =>
    ∀ entry ∈ entries, entry.1.RefersWithin allowed ∧ entry.2.RefersWithin allowed := by
  apply after Quiet.remaining
  intro left
  apply entriesAfter
  intro entry member
  simp at member

theorem bytesField (field : CodeField) :
    Yields allowed shared (Script.bytesField field) fun _ => True := by
  apply required.bind
  intro value refers
  split
  · exact pure trivial
  · exact fail _

theorem textField (field : CodeField) :
    Yields allowed shared (Script.textField field) fun _ => True := by
  apply required.bind
  intro value refers
  split
  · exact pure trivial
  · exact pure trivial
  · exact fail _

theorem tupleField (field : CodeField) :
    Yields allowed shared (Script.tupleField field) fun values =>
      ∀ value ∈ values, value.RefersWithin allowed := by
  apply required.bind
  intro value refers
  split
  · next items =>
      apply pure
      intro item member slot named
      exact refers slot (Value.mem_referencesAll.mpr ⟨item, member, named⟩)
  · next items =>
      apply pure
      intro item member slot named
      exact refers slot (Value.mem_referencesAll.mpr ⟨item, member, named⟩)
  · apply pure
    intro item member
    simp at member
  · exact fail _

theorem namesField (field : CodeField) :
    Yields allowed shared (Script.namesField field) fun _ => True := by
  apply (tupleField field).bind
  intro items refers
  split
  · exact pure trivial
  · exact fail _

theorem splitCode (version : Version) (site : Nat) :
    Yields allowed shared (Script.splitCode version site) fun unit =>
      ∀ value ∈ unit.consts, value.RefersWithin allowed := by
  refine after (Quiet.count _) fun argcount => ?_
  refine after (Quiet.count _) fun posonlyargcount => ?_
  refine after (Quiet.count _) fun kwonlyargcount => ?_
  refine after (Quiet.count _) fun nlocals => ?_
  refine after (Quiet.count _) fun stacksize => ?_
  refine after (Quiet.number 4) fun flags => ?_
  refine (bytesField _).bind fun code _ => ?_
  refine (tupleField _).bind fun consts refers => ?_
  refine (namesField _).bind fun names _ => ?_
  refine (namesField _).bind fun varnames _ => ?_
  refine (namesField _).bind fun freevars _ => ?_
  refine (namesField _).bind fun cellvars _ => ?_
  refine (textField _).bind fun filename _ => ?_
  refine (textField _).bind fun name _ => ?_
  refine after Quiet.i32 fun firstLine => ?_
  refine (bytesField _).bind fun linetable _ => ?_
  exact pure refers

theorem unifiedCode (version : Version) (site : Nat) :
    Yields allowed shared (Script.unifiedCode version site) fun unit =>
      ∀ value ∈ unit.consts, value.RefersWithin allowed := by
  refine after (Quiet.count _) fun argcount => ?_
  refine after (Quiet.count _) fun posonlyargcount => ?_
  refine after (Quiet.count _) fun kwonlyargcount => ?_
  refine after (Quiet.count _) fun stacksize => ?_
  refine after (Quiet.number 4) fun flags => ?_
  refine (bytesField _).bind fun code _ => ?_
  refine (tupleField _).bind fun consts refers => ?_
  refine (namesField _).bind fun names _ => ?_
  refine (namesField _).bind fun localNames _ => ?_
  refine (bytesField _).bind fun kinds _ => ?_
  split
  · exact fail _
  · refine (textField _).bind fun filename _ => ?_
    refine (textField _).bind fun name _ => ?_
    refine (textField _).bind fun qualname _ => ?_
    refine after Quiet.i32 fun firstLine => ?_
    refine (bytesField _).bind fun linetable _ => ?_
    refine (bytesField _).bind fun exceptiontable _ => ?_
    exact pure refers

theorem code (profile : Profile) (site : Nat) :
    Yields allowed shared (Script.code profile site) fun unit =>
      ∀ value ∈ unit.consts, value.RefersWithin allowed := by
  rw [Script.code]
  split
  · exact splitCode profile.version site
  · exact unifiedCode profile.version site

end Yields

/--
What a value that its body ends with is like. `after` tells whether it was open to references.
-/
def Ends (allowed : Nat → Prop) (after : Bool) (value : Value) : Prop :=
  value.RefersWithin allowed ∧ value.isReference = false ∧
    (after = true → value.canHoldItself = true)

theorem ends_of_empty {value : Value} (empty : value.references = [])
    (direct : value.isReference = false) : Ends allowed false value := by
  refine ⟨?_, direct, ?_⟩
  · intro slot member
    rw [empty] at member
    simp at member
  · intro opened
    simp at opened

/-- A quiet script of a value without references. -/
theorem Quiet.conducts {script : Script α} {convert : α → Value} (quiet : Quiet script)
    (empty : ∀ result, (convert result).references = [])
    (direct : ∀ result, (convert result).isReference = false) :
    (convert <$> script).Conducts allowed shared false (Ends allowed) := by
  have ended : (convert <$> script) = script >>= fun result => Pure.pure (convert result) := rfl
  rw [ended, conducts_bind]
  apply (quiet allowed shared false).weaken
  intro after result same
  rw [same]
  exact ends_of_empty (empty result) (direct result)

theorem Yields.conducts {script : Script α} {accepts : α → Prop} {convert : α → Value}
    (yields : Yields allowed shared script accepts)
    (refers : ∀ result, accepts result → (convert result).RefersWithin allowed)
    (direct : ∀ result, (convert result).isReference = false)
    (holds : ∀ result, shared = true → (convert result).canHoldItself = true) :
    (convert <$> script).Conducts allowed shared shared (Ends allowed) := by
  have ended : (convert <$> script) = script >>= fun result => Pure.pure (convert result) := rfl
  rw [ended, conducts_bind]
  apply Conducts.weaken yields
  intro after result accepted
  refine ⟨refers result accepted.2, direct result, ?_⟩
  intro isOpen
  exact holds result (accepted.1.symm.trans isOpen)

/-- Quiet scripts, after which a value may be opened to references. -/
theorem conducts_after {script : Script α} {next : α → Script β} {ends : Bool → β → Prop}
    (quiet : Quiet script)
    (second : ∀ value, (next value).Conducts allowed shared marked ends) :
    (script >>= next).Conducts allowed shared marked ends := by
  rw [conducts_bind]
  apply (quiet allowed shared marked).weaken
  intro after value same
  rw [same]
  exact second value

theorem refersWithin_all {values : List Value} {value : Value}
    (same : value.references = Value.referencesAll values)
    (refers : ∀ item ∈ values, item.RefersWithin allowed) : value.RefersWithin allowed := by
  intro slot member
  rw [same] at member
  obtain ⟨item, listed, named⟩ := Value.mem_referencesAll.mp member
  exact refers item listed slot named

theorem refersWithin_dict {entries : List (Value × Value)}
    (refers : ∀ entry ∈ entries, entry.1.RefersWithin allowed ∧ entry.2.RefersWithin allowed) :
    (Value.dict entries).RefersWithin allowed := by
  intro slot member
  obtain ⟨entry, listed, named⟩ := Value.mem_referencesEntries.mp member
  rcases named with inKey | inValue
  · exact (refers entry listed).1 slot inKey
  · exact (refers entry listed).2 slot inValue

/-- The body of a value in any form opens it when the form says so, and before what is inside. -/
theorem conducts_body (profile : Profile) (site : TagSite) (form : BodyForm) :
    (body profile site form).Conducts allowed form.canHoldItself false (Ends allowed) := by
  cases form with
  | int32 => exact Quiet.i32.conducts (fun _ => rfl) (fun _ => rfl)
  | int64 =>
      exact (Quiet.compositional.map Int64.ofNat (Quiet.number 8)).conducts (fun _ => rfl)
        (fun _ => rfl)
  | long =>
      exact (Quiet.compositional.long trivial).conducts (fun _ => rfl) (fun _ => rfl)
  | float form => exact (Quiet.float site.offset form).conducts (fun _ => rfl) (fun _ => rfl)
  | complex form =>
      apply conducts_after (Quiet.float site.offset form)
      intro real
      exact (Quiet.float site.offset form).conducts (fun _ => rfl) (fun _ => rfl)
  | bytes =>
      exact (Quiet.compositional.byteString trivial).conducts (fun _ => rfl) (fun _ => rfl)
  | text form interned =>
      apply conducts_after (Quiet.compositional.text trivial form)
      intro content
      have ended : Ends allowed false (Value.text content interned) := ends_of_empty rfl rfl
      cases interned with
      | false => exact ended
      | true => exact ended
  | tuple short =>
      have inside : ∀ count, (Value.tuple <$> items count).Conducts allowed false false
          (Ends allowed) := by
        intro count
        exact (Yields.items count).conducts (fun _ => refersWithin_all rfl) (fun _ => rfl)
          (fun _ isShared => nomatch isShared)
      cases short with
      | true => exact conducts_after (Quiet.number 1) inside
      | false => exact conducts_after (Quiet.length site) inside
  | list =>
      apply conducts_after (Quiet.length site)
      intro count
      show (Value.list <$> items count).Conducts allowed true true (Ends allowed)
      exact (Yields.items count).conducts (fun _ => refersWithin_all rfl) (fun _ => rfl)
        (fun _ _ => rfl)
  | set =>
      apply conducts_after (Quiet.length site)
      intro count
      show (Value.set <$> items count).Conducts allowed true true (Ends allowed)
      exact (Yields.items count).conducts (fun _ => refersWithin_all rfl) (fun _ => rfl)
        (fun _ _ => rfl)
  | frozenSet =>
      apply conducts_after (Quiet.length site)
      intro count
      exact (Yields.items count).conducts (fun _ => refersWithin_all rfl) (fun _ => rfl)
        (fun _ isShared => nomatch isShared)
  | dict =>
      show (Value.dict <$> entries).Conducts allowed true true (Ends allowed)
      exact Yields.entries.conducts (fun _ => refersWithin_dict) (fun _ => rfl) (fun _ _ => rfl)
  | code =>
      exact (Yields.code profile site.offset).conducts (fun _ => refersWithin_all rfl)
        (fun _ => rfl)
        (fun _ isShared => nomatch isShared)

end Script
end CodeScope

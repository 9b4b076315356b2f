import CodeScope.Proofs.Marshal.Decoding
import CodeScope.Proofs.Marshal.Opening
import CodeScope.Proofs.Marshal.Session
import Mathlib.Data.List.Chain

/-!
# Levels of loaded values

The limit on nesting is one on the reader, which goes no deeper into a value that a reference stands
for. A value that is written in place has at most as many levels as the reader may go deep. One that
a reference puts there has those that it was read with, so every reference can add as many again.
-/

namespace CodeScope
namespace Value

/-- Values of so few levels: there are no more values inside one another, the outermost included. -/
def NestedWithin : Nat → Value → Prop
  | 0, _ => False
  | levels + 1, value => ∀ part ∈ value.parts, part.NestedWithin levels

variable {few many : Nat} {value : Value}

theorem NestedWithin.mono (nested : value.NestedWithin few) (fewer : few ≤ many) :
    value.NestedWithin many := by
  induction few generalizing many value with
  | zero => exact nested.elim
  | succ few induction =>
      obtain ⟨many, rfl⟩ := Nat.exists_eq_succ_of_ne_zero (Nat.ne_of_gt (Nat.zero_lt_of_lt fewer))
      intro part member
      exact induction (nested part member) (Nat.le_of_succ_le_succ fewer)

theorem NestedWithin.part (nested : value.NestedWithin few) :
    ∀ part ∈ value.parts, part.NestedWithin few := by
  cases few with
  | zero => exact nested.elim
  | succ few =>
      intro part member
      exact (nested part member).mono (Nat.le_succ few)

theorem nestedWithin_of_atom (atom : value.parts = []) (levels : Nat) :
    value.NestedWithin (levels + 1) := by
  intro part member
  rw [atom] at member
  cases member

/-- A path from a value into its parts is no longer than the value has levels. -/
theorem NestedWithin.length_le {path : List Value} (nested : value.NestedWithin few)
    (isPath : List.IsChain Holds (value :: path)) : (value :: path).length ≤ few := by
  induction path generalizing few value with
  | nil =>
      cases few with
      | zero => exact nested.elim
      | succ few => exact Nat.succ_le_succ (Nat.zero_le few)
  | cons part path induction =>
      obtain ⟨member, isPath⟩ := List.isChain_cons_cons.mp isPath
      cases few with
      | zero => exact nested.elim
      | succ few => exact Nat.succ_le_succ (induction (nested part member) isPath)

/-- A value has one level more than its parts. -/
theorem inherited_nestedWithin (profile : Profile) (levels : Nat) :
    Inherited profile (NestedWithin levels) (NestedWithin (levels + 1)) where
  parts nested := nested.part
  node _ _ parts := parts
  unit assembled := assembled.consts

end Value

namespace Reading

/-- What is stored has the levels of a value in place, and those that references have added. -/
def StoresWithin (limit : Nat) (state : ReaderState) (references : Nat) : Prop :=
  state.Stores (Value.NestedWithin (limit * (references + 1)))

theorem StoresWithin.mono {limit few many : Nat} {state : ReaderState}
    (stores : StoresWithin limit state few) (fewer : few ≤ many) :
    StoresWithin limit state many := by
  intro index value stored
  exact (stores _ _ stored).mono (Nat.mul_le_mul_left _ (Nat.succ_le_succ fewer))

/-- Number of references among the events of a part of a reader. -/
def referencesIn (events : ReaderState → List Event) (state : ReaderState) : Nat :=
  (events state).countP (Event.isTag 'r')

/--
A part of a reader that stores values of no more levels than its references add. What it results in
is accepted for the number of all references so far.
-/
def Deepens {α : Type} (limit : Nat) (part : Reading α) (events : ReaderState → List Event)
    (accepts : Nat → α → Prop) : Prop :=
  ∀ (state next : ReaderState) (before : Nat) (value : α), StoresWithin limit state before →
    part state = .ok value next →
      StoresWithin limit next (before + referencesIn events state) ∧
        accepts (before + referencesIn events state) value

/-- The levels of an answer, if the reader may go some levels deep. -/
def AnswersWithin (limit levels references : Nat) (answer : Option Value) : Prop :=
  ∀ value ∈ answer, value.NestedWithin (levels + limit * references)

variable {α β : Type} {limit levels total : Nat} {inside : Reading (Option Value)}

theorem AnswersWithin.mono {few many : Nat} {answer : Option Value}
    (within : AnswersWithin limit levels few answer) (fewer : few ≤ many) :
    AnswersWithin limit levels many answer := by
  intro value isAnswer
  apply (within value isAnswer).mono
  exact Nat.add_le_add_left (Nat.mul_le_mul_left _ fewer) levels

/--
A script whose values inside have few levels ends as it does for such values, if the references in
its run are among those that these levels allow for.
-/
theorem deepens_run {within : ReaderState → List Event} {left : Script α} {right : Script β}
    {ends : α → β → Prop} {slot : Option Nat}
    (parallel : Script.Parallel id (Value.NestedWithin (levels + limit * total)) False ends
      left right)
    (deepens : Deepens limit inside within (AnswersWithin limit levels)) {state next : ReaderState}
    {before : Nat} {value : α} (stores : StoresWithin limit state before)
    (counted : before + referencesIn (left.events inside within slot) state ≤ total)
    (read : left.run inside slot state = .ok value next) :
    StoresWithin limit next (before + referencesIn (left.events inside within slot) state) ∧
      ∃ other, ends value other := by
  -- `before` counts up along the run, while the levels of the values inside are bounded by `total`
  -- throughout: a reference that comes later may be to a value with as many levels.
  induction parallel generalizing state before with
  | done ended =>
      cases read
      exact ⟨stores, _, ended⟩
  | fail error => cases read
  | starved isLonger needed right => exact isLonger.elim
  | takeBytes _ induction =>
      obtain ⟨data, middle, taken, read⟩ := bind_eq_ok read
      simp only [referencesIn, Script.events, eventsAfter, taken] at counted ⊢
      exact induction data (length_of_scan_bytes taken) (stores.ofSlots (scan_slots taken)) counted
        read
  | askOffset _ induction =>
      obtain ⟨offset, middle, asked, read⟩ := bind_eq_ok read
      simp only [referencesIn, Script.events, eventsAfter, asked] at counted ⊢
      cases asked
      exact induction _ stores counted read
  | askRemaining _ induction =>
      obtain ⟨few, middle, asked, read⟩ := bind_eq_ok read
      simp only [referencesIn, Script.events, eventsAfter, asked] at counted ⊢
      cases asked
      exact induction _ _ (Nat.le_refl _) (fun less => (Nat.lt_irrefl _ less).elim) stores counted
        read
  | markFilling _ induction =>
      obtain ⟨_, middle, marked, read⟩ := bind_eq_ok read
      simp only [referencesIn, Script.events, eventsAfter, marked] at counted ⊢
      have filling : ∀ value, Slot.filling = .ready value →
          value.NestedWithin (limit * (before + 1)) := by simp
      exact induction (stores_of_setSlot stores filling marked) counted read
  | recordText _ induction =>
      obtain ⟨_, middle, recorded, read⟩ := bind_eq_ok read
      simp only [referencesIn, Script.events, eventsAfter, recorded] at counted ⊢
      cases recorded
      exact induction (stores.ofSlots rfl) counted read
  | askChild _ induction =>
      obtain ⟨answer, middle, answered, read⟩ := bind_eq_ok read
      obtain ⟨storesMiddle, admitted⟩ := deepens state middle before answer stores answered
      simp only [referencesIn, Script.events, eventsAfter, answered, List.countP_append,
        ← Nat.add_assoc] at counted admitted ⊢
      have inner : AnswersWithin limit levels total answer :=
        admitted.mono (Nat.le_of_add_right_le counted)
      exact induction answer inner storesMiddle counted read

/-- A body that a tag leaves makes a value of one level more than the values inside may have. -/
theorem deepens_body {profile : Profile} {within : ReaderState → List Event} {form : BodyForm}
    {site : TagSite} {slot : Option Nat} (enough : levels + 1 ≤ limit)
    (deepens : Deepens limit inside within (AnswersWithin limit levels)) :
    Deepens limit ((Script.body profile site form).run inside slot >>= fun value =>
        setSlot slot (.ready value) >>= fun _ => pure (some value))
      ((Script.body profile site form).events inside within slot)
      (AnswersWithin limit (levels + 1)) := by
  intro state next before answer stores read
  generalize counted :
    before + referencesIn ((Script.body profile site form).events inside within slot) state = total
  obtain ⟨value, middle, ran, read⟩ := bind_eq_ok read
  obtain ⟨_, last, completed, read⟩ := bind_eq_ok read
  have parallel : Script.Parallel id (Value.NestedWithin (levels + limit * total)) False
      (fun one other => other = one.relabel id ∧
        one.NestedWithin (levels + limit * total + 1))
      (Script.body profile site form) (Script.body profile site form) :=
    Script.parallel_body (Value.inherited_nestedWithin profile _) rfl rfl site form
  obtain ⟨storesMiddle, other, -, nested⟩ :=
    deepens_run parallel deepens stores (Nat.le_of_eq counted) ran
  rw [counted] at storesMiddle
  have small : levels + limit * total + 1 ≤ limit * (total + 1) := by
    rw [Nat.mul_succ]
    omega
  have kept : ∀ stored, Slot.ready value = .ready stored →
      stored.NestedWithin (limit * (total + 1)) := by
    intro stored same
    cases same
    exact nested.mono small
  cases read
  refine ⟨stores_of_setSlot storesMiddle kept completed, ?_⟩
  intro stored isValue
  cases isValue
  rwa [Nat.add_right_comm]

theorem deepens_tagged {profile : Profile} {within : OpenValue → ReaderState → List Event}
    (enough : levels + 1 ≤ limit) (enclosing : List OpenValue)
    (deepens : ∀ value, Deepens limit inside (within value) (AnswersWithin limit levels)) :
    Deepens limit (tagged profile inside)
      (fun state => .tag enclosing state ::
        opening.eventsAfter (Opening.events profile inside within) state)
      (AnswersWithin limit (levels + 1)) := by
  intro state next before answer stores read
  obtain ⟨opened, middle, started, read⟩ := bind_eq_ok read
  have opens := opens_opening state
  rw [started] at opens
  have counted : referencesIn (fun state => .tag enclosing state ::
      opening.eventsAfter (Opening.events profile inside within) state) state =
      referencesIn (Opening.events profile inside within opened) middle +
        if (Event.tag enclosing state).isTag 'r' then 1 else 0 := by
    simp only [referencesIn, eventsAfter, started, List.countP_cons]
  cases opens with
  | atom atomic slots =>
      cases read
      refine ⟨StoresWithin.mono (stores.ofSlots slots) (Nat.le_add_right _ _), ?_⟩
      intro value isAnswer
      rw [Nat.add_right_comm]
      exact Value.nestedWithin_of_atom (atomic value isAnswer) _
  | @stored byte tail index value _ stream isReference stored slots =>
      cases read
      have isTag : (Event.tag enclosing state).isTag 'r' = true :=
        Event.isTag_of_stream stream isReference
      rw [if_pos isTag] at counted
      -- The stored value may have `before + 1` times the limit: this tag pays for one more.
      have one : before + 1 ≤ before + referencesIn _ state :=
        Nat.add_le_add_left (counted ▸ Nat.le_add_left 1 _) before
      refine ⟨StoresWithin.mono (stores.ofSlots slots) (Nat.le_add_right _ _), ?_⟩
      intro other isAnswer
      cases isAnswer
      apply (stores _ _ stored).mono
      exact Nat.le_add_left_of_le (Nat.mul_le_mul_left _ one)
  | @body byte tail form site slot _ stream tagged slots =>
      have storesMiddle : StoresWithin limit middle before := by
        rcases slots with same | reserved
        · exact stores.ofSlots same
        · have pushed : ReaderState.Stores { state with slots := state.slots.push .pending }
              (Value.NestedWithin (limit * (before + 1))) := stores.reserve
          exact pushed.ofSlots reserved
      obtain ⟨storesNext, nested⟩ :=
        deepens_body enough (deepens ⟨slot, form⟩) middle next before answer storesMiddle read
      have fewer : before + referencesIn ((Script.body profile site form).events inside
          (within ⟨slot, form⟩) slot) middle ≤ before + referencesIn _ state :=
        Nat.add_le_add_left (counted ▸ Nat.le_add_right _ _) before
      exact ⟨storesNext.mono fewer, nested.mono fewer⟩

theorem deepens_nested {part : Reading α} {events : ReaderState → List Event}
    {accepts : Nat → α → Prop} (deepens : Deepens limit part events accepts) :
    Deepens limit (nested part) (fun state => events { state with depth := state.depth + 1 })
      accepts := by
  intro state next before value stores read
  obtain ⟨inner, deeper, rfl⟩ := nested_eq_ok read
  have storesDeeper : StoresWithin limit { state with depth := state.depth + 1 } before :=
    stores.ofSlots rfl
  obtain ⟨storesInner, accepted⟩ := deepens _ inner before value storesDeeper deeper
  exact ⟨storesInner.ofSlots rfl, accepted⟩

/-- A reader with some levels reads values with so many, and those that references add. -/
theorem deepens_optional (profile : Profile) (enclosing : List OpenValue)
    (enough : levels ≤ limit) :
    Deepens limit (optional profile levels) (optionalEvents profile levels enclosing)
      (AnswersWithin limit levels) := by
  induction levels generalizing enclosing with
  | zero =>
      intro state next before value stores read
      cases read
  | succ levels induction =>
      have inside := fun value : OpenValue =>
        induction (value :: enclosing) (Nat.le_of_succ_le enough)
      exact deepens_nested (deepens_tagged enough enclosing inside)

theorem deepens_value (profile : Profile) :
    Deepens nestingLimit (Reading.value profile) (valueEvents profile) fun references value =>
      value.NestedWithin (nestingLimit * (references + 1)) := by
  intro state next before value stores read
  generalize counted : before + referencesIn (valueEvents profile) state = total
  have few : nestingLimit - state.depth ≤ nestingLimit := Nat.sub_le _ _
  have parallel : Script.Parallel id
      (Value.NestedWithin (nestingLimit - state.depth + nestingLimit * total)) False
      (fun one other => other = one.relabel id ∧
        one.NestedWithin (nestingLimit - state.depth + nestingLimit * total))
      Script.required Script.required := .required
  obtain ⟨storesNext, other, -, nested⟩ :=
    deepens_run parallel (deepens_optional profile [] few) stores (Nat.le_of_eq counted) read
  refine ⟨counted ▸ storesNext, nested.mono ?_⟩
  rw [Nat.mul_succ]
  omega

end Reading

namespace Value

/-- Nothing inside so many tuples of one item. -/
def nestedTuples : Nat → Value
  | 0 => none
  | count + 1 => tuple [nestedTuples count]

/-- The values inside `nestedTuples`, from the outermost to the innermost. -/
def tuplesInside : Nat → List Value
  | 0 => []
  | count + 1 => nestedTuples count :: tuplesInside count

/-- The bytes of `nestedTuples`. -/
def nestedTupleBytes : Nat → Bytes
  | 0 => [0x4E]
  | count + 1 => 0x29 :: 1 :: nestedTupleBytes count

/-- A tuple of `nestedTuples` and a tuple of the same by a reference. -/
def tuplesByReference (count : Nat) : Bytes :=
  0x29 :: 2 :: ((0xA9 :: 1 :: nestedTupleBytes count) ++ [0x29, 1, 0x72, 0, 0, 0, 0])

theorem length_tuplesInside (count : Nat) : (tuplesInside count).length = count := by
  induction count with
  | zero => rfl
  | succ count induction => rw [tuplesInside, List.length_cons, induction]

theorem isChain_tuplesInside (count : Nat) :
    List.IsChain Holds (nestedTuples count :: tuplesInside count) := by
  induction count with
  | zero => exact List.isChain_singleton _
  | succ count induction => exact List.isChain_cons_cons.mpr ⟨List.mem_cons_self, induction⟩

/-- There are no code units in tuples of tuples, so the same values are equal. -/
theorem eq_nestedTuples_of_sameAs {count : Nat} {copy : Value}
    (same : copy.SameAs (nestedTuples count)) : copy = nestedTuples count := by
  induction count generalizing copy with
  | zero => cases copy <;> simp_all [SameAs, unplaced, nestedTuples]
  | succ count induction =>
      obtain ⟨copies, rfl, others⟩ := same.tuple
      obtain ⟨part, rest, rfl, first, last⟩ := List.map_eq_cons_iff.mp others
      cases List.map_eq_nil_iff.mp last
      rw [induction first, nestedTuples]

section Spelling

open Writer

theorem spells_nestedTuples (profile : Profile) (count : Nat) (state : WriterState) :
    Spells profile (count + 1) (some (nestedTuples count)) state (nestedTupleBytes count)
      state := by
  induction count with
  | zero =>
      have named : ('N', Value.none) ∈ constants := List.mem_cons_self
      exact .constant false named state
  | succ count induction =>
      have inside := Sequence.cons induction (.nil state)
      rw [List.append_nil] at inside
      have small : [nestedTuples count].length ≤ 255 := by simp
      exact .plain (.shortTuple small inside)

theorem spells_tuplesByReference (profile : Profile) (count : Nat) :
    ∃ after, Spells profile (count + 3)
      (some (.tuple [nestedTuples (count + 1), nestedTuples (count + 2)])) .start
      (tuplesByReference count) after := by
  have item := Sequence.cons (spells_nestedTuples profile count WriterState.start.reserve)
    (.nil _)
  rw [List.append_nil] at item
  have small : [nestedTuples count].length ≤ 255 := by simp
  have first : Spells profile (count + 2) (some (nestedTuples (count + 1))) .start
      (0xA9 :: 1 :: nestedTupleBytes count) ⟨[some (nestedTuples (count + 1))], []⟩ :=
    .flagged (.shortTuple small item)
  have copy : Spells profile (count + 1) (some (nestedTuples (count + 1)))
      ⟨[some (nestedTuples (count + 1))], []⟩ [0x72, 0, 0, 0, 0]
      ⟨[some (nestedTuples (count + 1))], []⟩ :=
    .reference false (show 0 < 2 ^ 32 by decide) rfl rfl
  have short : [nestedTuples (count + 1)].length ≤ 255 := by simp
  have second : Spells profile (count + 2) (some (nestedTuples (count + 2)))
      ⟨[some (nestedTuples (count + 1))], []⟩ [0x29, 1, 0x72, 0, 0, 0, 0]
      ⟨[some (nestedTuples (count + 1))], []⟩ :=
    .plain (.shortTuple short (.cons copy (.nil _)))
  have both : [nestedTuples (count + 1), nestedTuples (count + 2)].length ≤ 255 := by simp
  exact ⟨_, .plain (.shortTuple both (.cons first (.cons second (.nil _))))⟩

end Spelling

/-- The second of two tuples has one level more than the first one that it refers to. -/
theorem ofBytes_tuplesByReference {version : Version} {profile : Profile} (count : Nat)
    (supported : Profile.ofVersion version = .ok profile) (enough : count + 3 ≤ nestingLimit) :
    ofBytes version (tuplesByReference count) =
      .ok (tuple [nestedTuples (count + 1), nestedTuples (count + 2)]) := by
  obtain ⟨after, spelled⟩ := spells_tuplesByReference profile count
  have stream : (ReaderState.start (tuplesByReference count)).cursor.rest =
      tuplesByReference count ++ [] := (List.append_nil _).symm
  rcases Writer.value_of_spells spelled (Writer.follows_start _) stream with
    ⟨copy, next, read, same, -, left⟩ | ⟨tooMany, -⟩
  · obtain ⟨copies, rfl, others⟩ := same.tuple
    obtain ⟨first, rest, rfl, sameFirst, others⟩ := List.map_eq_cons_iff.mp others
    obtain ⟨second, rest, rfl, sameSecond, last⟩ := List.map_eq_cons_iff.mp others
    cases List.map_eq_nil_iff.mp last
    rw [eq_nestedTuples_of_sameAs sameFirst, eq_nestedTuples_of_sameAs sameSecond] at read
    apply ofBytes_of_ok supported
    rw [Reading.topLevel_of_value read, if_pos left]
  · exact absurd enough (Nat.not_le_of_lt tooMany)

/-- The path into the second of two tuples, down to the innermost value. -/
theorem isChain_tuplesByReference (count : Nat) :
    List.IsChain Holds (tuple [nestedTuples (count + 1), nestedTuples (count + 2)] ::
      nestedTuples (count + 2) :: tuplesInside (count + 2)) := by
  have holds : Holds (tuple [nestedTuples (count + 1), nestedTuples (count + 2)])
      (nestedTuples (count + 2)) := List.mem_cons_of_mem _ List.mem_cons_self
  exact List.isChain_cons_cons.mpr ⟨holds, isChain_tuplesInside (count + 2)⟩

end Value

/--
A path into a loaded value is no longer than the reader goes deep, and as much again for every
reference in the stream: without references the limit of the reader is one on the value.
-/
theorem path_length_le_of_ofBytes {version : Version} {profile : Profile} {data : Bytes}
    {value : Value} {path : List Value} (supported : Profile.ofVersion version = .ok profile)
    (loaded : Value.ofBytes version data = .ok value)
    (isPath : List.IsChain Value.Holds (value :: path)) :
    (value :: path).length ≤ nestingLimit *
      ((Call.events profile [.topLevel] (.start data)).countP (Event.isTag 'r') + 1) := by
  obtain ⟨other, next, same, read⟩ := Value.ofBytes_eq_ok loaded
  cases supported.symm.trans same
  obtain ⟨readValue, -⟩ := Reading.topLevel_eq_ok read
  obtain ⟨-, nested⟩ :=
    Reading.deepens_value profile _ _ 0 value (ReaderState.stores_start data) readValue
  have counted : (Call.events profile [.topLevel] (.start data)).countP (Event.isTag 'r') =
      0 + Reading.referencesIn (Reading.valueEvents profile) (.start data) := by
    simp [Call.events, Call.read, Reading.eventsAfter, read, Reading.referencesIn,
      Event.isTag]
  rw [counted]
  exact nested.length_le isPath

theorem path_length_le_of_ofBytes_byReference :
    Profile.ofVersion ⟨3, 8⟩ = .ok Profile.version38 ∧
      ∃ (value : Value) (path : List Value),
        Value.ofBytes ⟨3, 8⟩ (Value.tuplesByReference 0) = .ok value ∧
        List.IsChain Value.Holds (value :: path) ∧ (value :: path).length = 4 ∧
        (value :: path).length ≤ nestingLimit * ((Call.events Profile.version38 [.topLevel]
          (.start (Value.tuplesByReference 0))).countP (Event.isTag 'r') + 1) := by
  have supported : Profile.ofVersion ⟨3, 8⟩ = .ok Profile.version38 := rfl
  have loaded := Value.ofBytes_tuplesByReference 0 supported (by decide)
  have isPath := Value.isChain_tuplesByReference 0
  exact ⟨supported, _, _, loaded, isPath, rfl, path_length_le_of_ofBytes supported loaded isPath⟩

/-- The limit of the reader alone is not one on the value, if sub-values come by a reference. -/
theorem exists_path_longer_than_nestingLimit :
    ∃ (value : Value) (path : List Value),
      Value.ofBytes ⟨3, 8⟩ (Value.tuplesByReference 1997) = .ok value ∧
      List.IsChain Value.Holds (value :: path) ∧ nestingLimit < (value :: path).length := by
  have supported : Profile.ofVersion ⟨3, 8⟩ = .ok Profile.version38 := rfl
  have loaded := Value.ofBytes_tuplesByReference 1997 supported (Nat.le_refl nestingLimit)
  have isPath := Value.isChain_tuplesByReference 1997
  refine ⟨_, _, loaded, isPath, ?_⟩
  rw [List.length_cons, List.length_cons, Value.length_tuplesInside]
  decide

end CodeScope

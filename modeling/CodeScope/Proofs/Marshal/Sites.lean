import CodeScope.Proofs.Marshal.Nesting
import CodeScope.Proofs.Marshal.Opening
import CodeScope.Proofs.Marshal.Places
import Mathlib.Logic.ExistsUnique
import Mathlib.Logic.Relation

/-!
# Where code units stem from

A code unit comes into being where the tag of a code unit is read. It may then be put into other
places by references, but each copy is the unit that was read there. The offset of the tag is kept
with the unit, and no other tag has it; so units have the same site exactly if they stem from the
same tag, however equal they are otherwise.
-/

namespace CodeScope
namespace Script

/-- Every result of a script is accepted, whatever the answers are. -/
def Returns {α : Type} (accepts : α → Prop) : Script α → Prop
  | done result => accepts result
  | fail _ => True
  | takeBytes _ next => ∀ data, (next data).Returns accepts
  | askOffset next => ∀ offset, (next offset).Returns accepts
  | askRemaining next => ∀ left, (next left).Returns accepts
  | markFilling next => next.Returns accepts
  | recordText _ next => next.Returns accepts
  | askChild next => ∀ answer, (next answer).Returns accepts

namespace Returns

variable {α β : Type} {accepts : β → Prop}

theorem bind {script : Script α} {next : α → Script β}
    (returns : script.Returns fun value => (next value).Returns accepts) :
    (script >>= next).Returns accepts := by
  induction script with
  | done result => exact returns
  | fail error => trivial
  | takeBytes count further induction => exact fun data => induction data (returns data)
  | askOffset further induction => exact fun offset => induction offset (returns offset)
  | askRemaining further induction => exact fun left => induction left (returns left)
  | markFilling further induction => exact induction returns
  | recordText content further induction => exact induction returns
  | askChild further induction => exact fun answer => induction answer (returns answer)

theorem ofForall (script : Script β) (accepted : ∀ result, accepts result) :
    script.Returns accepts := by
  induction script with
  | done result => exact accepted result
  | fail error => trivial
  | takeBytes count further induction => exact induction
  | askOffset further induction => exact induction
  | askRemaining further induction => exact induction
  | markFilling further induction => exact induction
  | recordText content further induction => exact induction
  | askChild further induction => exact induction

/-- It is enough to look at the last script of a sequence. -/
theorem after (script : Script α) {next : α → Script β}
    (returns : ∀ value, (next value).Returns accepts) : (script >>= next).Returns accepts :=
  bind (ofForall script returns)

theorem map {script : Script α} {convert : α → β} (accepted : ∀ result, accepts (convert result)) :
    (convert <$> script).Returns accepts :=
  after script accepted

theorem run {inside : Reading (Option Value)} {slot : Option Nat} {script : Script β}
    (returns : script.Returns accepts) {state next : ReaderState} {value : β}
    (read : script.run inside slot state = .ok value next) : accepts value := by
  induction script generalizing state with
  | done result =>
      cases read
      exact returns
  | fail error => cases read
  | takeBytes count further induction =>
      obtain ⟨data, middle, -, read⟩ := Reading.bind_eq_ok read
      exact induction data (returns data) read
  | askOffset further induction =>
      obtain ⟨offset, middle, -, read⟩ := Reading.bind_eq_ok read
      exact induction offset (returns offset) read
  | askRemaining further induction =>
      obtain ⟨left, middle, -, read⟩ := Reading.bind_eq_ok read
      exact induction left (returns left) read
  | markFilling further induction =>
      obtain ⟨_, middle, -, read⟩ := Reading.bind_eq_ok read
      exact induction returns read
  | recordText content further induction =>
      obtain ⟨_, middle, -, read⟩ := Reading.bind_eq_ok read
      exact induction returns read
  | askChild further induction =>
      obtain ⟨answer, middle, -, read⟩ := Reading.bind_eq_ok read
      exact induction answer (returns answer) read

/-- A code unit is placed at the site that it is read for. -/
theorem code {accepts : CodeUnit → Prop} (profile : Profile) {site : Nat}
    (accepted : ∀ unit : CodeUnit, unit.site = site → accepts unit) :
    (Script.code profile site).Returns accepts := by
  rw [Script.code]
  split
  · rw [splitCode]
    repeat refine after _ fun _ => ?_
    exact accepted _ rfl
  · rw [unifiedCode]
    repeat refine after _ fun _ => ?_
    split
    · trivial
    · repeat refine after _ fun _ => ?_
      exact accepted _ rfl

/-- A body makes a code unit only in the form of one, and places it at its own tag. -/
theorem body (profile : Profile) (site : TagSite) (form : BodyForm) :
    (Script.body profile site form).Returns fun value =>
      ∀ unit : CodeUnit, value.code? = some unit → form = .code ∧ unit.site = site.offset := by
  cases form with
  | int32 | int64 | long | float form | bytes | dict => exact map (by simp [Value.code?])
  | complex form | list | set | frozenSet => exact after _ fun _ => map (by simp [Value.code?])
  | text form interned =>
      refine after _ fun content => ?_
      have plain : ∀ unit : CodeUnit, (Value.text content interned).code? = some unit →
          BodyForm.text form interned = .code ∧ unit.site = site.offset := by
        simp [Value.code?]
      cases interned with
      | false => exact plain
      | true => exact plain
  | tuple short =>
      cases short with
      | false => exact after _ fun size => map (by simp [Value.code?])
      | true => exact after _ fun size => map (by simp [Value.code?])
  | code =>
      apply bind
      apply code profile
      intro unit placed other same
      cases same
      exact ⟨rfl, placed⟩

end Returns
end Script

/-- A code unit that is what the reader reads from the tag of an event on. -/
structure Event.Gives (profile : Profile) (event : Event) (unit : CodeUnit) : Prop where
  isTag : event.isTag 'c' = true
  read : ∃ levels next, Reading.tagged profile (Reading.optional profile levels) event.state =
    .ok (some unit.toValue) next

/-- A code unit that is read at the event with a number. -/
def CodeUnit.StemsFrom (profile : Profile) (events : List Event) (unit : CodeUnit)
    (index : Nat) : Prop :=
  ∃ event, events[index]? = some event ∧ event.Gives profile unit

/-- Two code units that stem from the same tag. -/
def CodeUnit.SameObject (profile : Profile) (events : List Event) (one other : CodeUnit) :
    Prop :=
  ∃ index, one.StemsFrom profile events index ∧ other.StemsFrom profile events index

namespace Value

/-- All code units inside a value have a property. -/
def Sourced (stems : CodeUnit → Prop) (value : Value) : Prop :=
  ∀ unit : CodeUnit, Relation.ReflTransGen Holds value unit.toValue → stems unit

variable {stems : CodeUnit → Prop} {value : Value}

theorem Sourced.ofParts (own : ∀ unit : CodeUnit, value.code? = some unit → stems unit)
    (parts : ∀ part ∈ value.parts, part.Sourced stems) : value.Sourced stems := by
  intro unit within
  rcases within.cases_head with same | ⟨part, member, within⟩
  · exact own unit (same ▸ rfl)
  · exact parts part member unit within

/-- A property of the code units inside the parts of a value says nothing about the value itself. -/
theorem inherited_sourced (profile : Profile) :
    Inherited profile (Sourced stems) fun value => ∀ part ∈ value.parts, part.Sourced stems where
  parts sourced _ member unit within := sourced unit (within.head member)
  node _ _ parts := parts
  unit assembled := assembled.consts

end Value

namespace Reading

variable {profile : Profile} {stems : CodeUnit → Prop} {α β : Type}

/--
A part of a reader that stores values with code units from its events only, where those of its own
events and of the stored values have a property. What it results in is accepted.
-/
def Sources (profile : Profile) (stems : CodeUnit → Prop) (part : Reading α)
    (events : ReaderState → List Event) (accepts : α → Prop) : Prop :=
  ∀ (state next : ReaderState) (value : α), state.Stores (Value.Sourced stems) →
    (∀ event ∈ events state, ∀ unit : CodeUnit, event.Gives profile unit → stems unit) →
      part state = .ok value next → next.Stores (Value.Sourced stems) ∧ accepts value

namespace Sources

variable {part : Reading α} {events : ReaderState → List Event} {accepts : α → Prop}
  {passes : β → Prop}

/-- A part without events that stores nothing. -/
theorem ofSlots (kept : ∀ (state next : ReaderState) (value : α), part state = .ok value next →
      next.slots = state.slots ∧ accepts value) :
    Sources profile stems part (fun _ => []) accepts := by
  intro state next value stores _ read
  obtain ⟨same, accepted⟩ := kept state next value read
  exact ⟨stores.ofSlots same, accepted⟩

/-- A part without events that stores nothing, whatever it results in. -/
theorem quiet (kept : ∀ (state next : ReaderState) (value : α), part state = .ok value next →
      next.slots = state.slots) : Sources profile stems part (fun _ => []) fun _ => True :=
  ofSlots fun state next value read => ⟨kept state next value read, trivial⟩

theorem setSlot {index : Option Nat} {slot : Slot}
    (kept : ∀ value, slot = .ready value → value.Sourced stems) :
    Sources profile stems (Reading.setSlot index slot) (fun _ => []) fun _ => True :=
  fun _ _ _ stores _ set => ⟨stores_of_setSlot stores kept set, trivial⟩

theorem bind {next : α → Reading β} {further : α → ReaderState → List Event}
    (first : Sources profile stems part events accepts)
    (second : ∀ value, accepts value → Sources profile stems (next value) (further value) passes) :
    Sources profile stems (part >>= next)
      (fun state => events state ++ part.eventsAfter further state) passes := by
  intro state last result stores given read
  obtain ⟨value, middle, inner, read⟩ := bind_eq_ok read
  simp only [eventsAfter, inner, List.forall_mem_append] at given
  obtain ⟨storesMiddle, accepted⟩ := first state middle value stores given.1 inner
  exact second value accepted middle last result storesMiddle given.2 read

/-- A script whose values inside stem from events ends as it does for such values. -/
theorem run {inside : Reading (Option Value)} {within : ReaderState → List Event}
    {left : Script α} {right : Script β} {ends : α → β → Prop} {slot : Option Nat}
    (parallel : Script.Parallel id (Value.Sourced stems) False ends left right)
    (sources : Sources profile stems inside within fun answer =>
      ∀ value ∈ answer, value.Sourced stems) :
    Sources profile stems (left.run inside slot) (left.events inside within slot) fun value =>
      ∃ other, ends value other := by
  induction parallel with
  | done ended => exact ofSlots fun _ _ _ read => by cases read; exact ⟨rfl, _, ended⟩
  | fail error => exact ofSlots fun _ _ _ read => by cases read
  | starved isLonger needed right => exact isLonger.elim
  | takeBytes _ induction =>
      exact (ofSlots fun _ _ _ read => ⟨scan_slots read, length_of_scan_bytes read⟩).bind induction
  | askOffset _ induction =>
      exact (quiet fun _ _ _ read => by cases read; rfl).bind fun offset _ => induction offset
  | askRemaining _ induction =>
      exact (quiet fun _ _ _ read => by cases read; rfl).bind fun left _ =>
        induction left left (Nat.le_refl _) fun less => (Nat.lt_irrefl _ less).elim
  | markFilling _ induction => exact (setSlot (by simp)).bind fun _ _ => induction
  | recordText _ induction =>
      exact (quiet fun _ _ _ read => by cases read; rfl).bind fun _ _ => induction
  | askChild _ induction => exact sources.bind fun answer admitted => induction answer admitted

/-- The code unit that a tag makes stems from its own event, and what is inside from other ones. -/
theorem tagged {levels : Nat} {within : OpenValue → ReaderState → List Event}
    (enclosing : List OpenValue)
    (sources : ∀ value, Sources profile stems (Reading.optional profile levels) (within value)
      fun answer => ∀ value ∈ answer, value.Sourced stems) :
    Sources profile stems (Reading.tagged profile (Reading.optional profile levels))
      (fun state => .tag enclosing state ::
        opening.eventsAfter (Opening.events profile (Reading.optional profile levels) within) state)
      fun answer => ∀ value ∈ answer, value.Sourced stems := by
  intro state next answer stores given whole
  obtain ⟨given, givenInside⟩ := List.forall_mem_cons.mp given
  obtain ⟨opened, middle, started, read⟩ := bind_eq_ok whole
  have opens := opens_opening state
  rw [started] at opens
  simp only [eventsAfter, started] at givenInside
  cases opens with
  | atom atomic slots plain =>
      cases read
      refine ⟨stores.ofSlots slots, fun value isAnswer => .ofParts ?_ ?_⟩
      · simp [plain value isAnswer]
      · simp [atomic value isAnswer]
  | stored stream isReference stored slots =>
      cases read
      refine ⟨stores.ofSlots slots, fun value isAnswer => ?_⟩
      cases isAnswer
      exact stores _ _ stored
  | @body byte tail form site slot _ stream isBody slots placed =>
      have storesMiddle : middle.Stores (Value.Sourced stems) := by
        rcases slots with same | reserved
        · exact stores.ofSlots same
        · exact ReaderState.Stores.ofSlots stores.reserve reserved
      obtain ⟨value, last, ran, read⟩ := bind_eq_ok read
      obtain ⟨_, final, completed, read⟩ := bind_eq_ok read
      cases read
      have parallel : Script.Parallel id (Value.Sourced stems) False
          (fun one other => other = one.relabel id ∧ ∀ part ∈ one.parts, part.Sourced stems)
          (Script.body profile site form) (Script.body profile site form) :=
        Script.parallel_body (Value.inherited_sourced profile) rfl rfl site form
      obtain ⟨storesLast, other, -, parts⟩ :=
        run parallel (sources ⟨slot, form⟩) middle last value storesMiddle givenInside ran
      have sourced : value.Sourced stems := by
        refine .ofParts (fun unit isUnit => ?_) parts
        obtain ⟨rfl, -⟩ := (Script.Returns.body profile site form).run ran unit isUnit
        cases value with
        | code info consts =>
            cases isUnit
            exact given _ ⟨Event.isTag_of_stream stream (Tag.byte_of_tag isBody rfl), _, _, whole⟩
        | _ => cases isUnit
      refine ⟨stores_of_setSlot storesLast ?_ completed, ?_⟩
      · intro stored same
        cases same
        exact sourced
      · intro stored isValue
        cases isValue
        exact sourced

theorem nested {part : Reading α} {events : ReaderState → List Event} {accepts : α → Prop}
    (sources : Sources profile stems part events accepts) :
    Sources profile stems (Reading.nested part)
      (fun state => events { state with depth := state.depth + 1 }) accepts := by
  intro state next value stores given read
  obtain ⟨inner, deeper, rfl⟩ := nested_eq_ok read
  have storesDeeper : ReaderState.Stores { state with depth := state.depth + 1 }
      (Value.Sourced stems) := stores.ofSlots rfl
  obtain ⟨storesInner, accepted⟩ := sources _ inner value storesDeeper given deeper
  exact ⟨storesInner.ofSlots rfl, accepted⟩

theorem optional (levels : Nat) (enclosing : List OpenValue) :
    Sources profile stems (Reading.optional profile levels)
      (optionalEvents profile levels enclosing) fun answer =>
        ∀ value ∈ answer, value.Sourced stems := by
  induction levels generalizing enclosing with
  | zero =>
      intro state next value _ _ read
      cases read
  | succ levels induction => exact (tagged enclosing fun value => induction _).nested

theorem value : Sources profile stems (Reading.value profile) (valueEvents profile)
    (Value.Sourced stems) := by
  intro state next value stores given read
  have parallel : Script.Parallel id (Value.Sourced stems) False
      (fun one other => other = one.relabel id ∧ one.Sourced stems) Script.required
      Script.required := .required
  obtain ⟨storesNext, other, -, sourced⟩ :=
    run parallel (optional (nestingLimit - state.depth) []) state next value stores given read
  exact ⟨storesNext, sourced⟩

end Sources
end Reading

namespace Event

variable {profile : Profile} {event : Event} {unit other : CodeUnit}

/-- The site of a code unit is the offset of the tag that it is read at. -/
theorem Gives.site_eq (gives : event.Gives profile unit) : unit.site = event.offset := by
  obtain ⟨levels, next, read⟩ := gives.read
  obtain ⟨opened, middle, started, read⟩ := Reading.bind_eq_ok read
  have opens := Reading.opens_opening event.state
  rw [started] at opens
  cases opens with
  | atom atomic slots plain =>
      cases read
      cases plain _ rfl
  | @stored byte tail index value _ stream isReference stored slots =>
      have isCode := Event.byte_of_isTag gives.isTag stream
      exact absurd (isReference.symm.trans isCode) (by decide)
  | body stream isBody slots placed =>
      obtain ⟨value, last, ran, read⟩ := Reading.bind_eq_ok read
      obtain ⟨_, final, completed, read⟩ := Reading.bind_eq_ok read
      cases read
      obtain ⟨-, site⟩ := (Script.Returns.body profile _ _).run ran unit rfl
      exact site.trans placed

/-- Only one code unit is read at a tag, whatever limit on nesting there is. -/
theorem Gives.unique (one : event.Gives profile unit) (another : event.Gives profile other) :
    unit = other := by
  obtain ⟨few, next, read⟩ := one.read
  obtain ⟨many, last, readOther⟩ := another.read
  have same : some unit.toValue = some other.toValue := by
    rcases Nat.le_total few many with fewer | more
    · exact (Reading.Shallower.optional fewer).tagged.eq_of_ok read readOther
    · exact ((Reading.Shallower.optional more).tagged.eq_of_ok readOther read).symm
  exact CodeUnit.toValue_injective (Option.some.inj same)

end Event

namespace CodeUnit

variable {profile : Profile} {stream : Bytes} {value : Value} {next : ReaderState}
  {one other : CodeUnit}

theorem StemsFrom.unique {events : List Event} {index : Nat}
    (stems : one.StemsFrom profile events index)
    (stemsOther : other.StemsFrom profile events index) : one = other := by
  obtain ⟨event, found, gives⟩ := stems
  obtain ⟨same, foundSame, givesOther⟩ := stemsOther
  cases found.symm.trans foundSame
  exact gives.unique givesOther

variable (read : Reading.topLevel profile (.start stream) = .ok value next)
include read

/-- Every code unit of a stream that is loaded stems from an event of it. -/
theorem exists_stemsFrom {unit : CodeUnit}
    (within : Relation.ReflTransGen Value.Holds value unit.toValue) :
    ∃ index, unit.StemsFrom profile (Call.events profile [.topLevel] (.start stream)) index := by
  obtain ⟨readValue, -⟩ := Reading.topLevel_eq_ok read
  have given : ∀ event ∈ Reading.valueEvents profile (.start stream), ∀ unit : CodeUnit,
      event.Gives profile unit → ∃ index,
        unit.StemsFrom profile (Call.events profile [.topLevel] (.start stream)) index := by
    intro event member unit gives
    obtain ⟨index, found⟩ := List.getElem?_of_mem (List.mem_append_left _ member)
    exact ⟨index, event, found, gives⟩
  obtain ⟨-, sourced⟩ :=
    Reading.Sources.value _ next value (ReaderState.stores_start stream) given readValue
  exact sourced unit within

/-- Code units have one site exactly if they stem from one event. -/
theorem StemsFrom.site_eq_iff {index position : Nat}
    (stems : one.StemsFrom profile (Call.events profile [.topLevel] (.start stream)) index)
    (stemsOther :
      other.StemsFrom profile (Call.events profile [.topLevel] (.start stream)) position) :
    one.site = other.site ↔ index = position := by
  constructor
  · intro same
    obtain ⟨event, found, gives⟩ := stems
    obtain ⟨another, foundOther, givesOther⟩ := stemsOther
    obtain ⟨last, between⟩ := Event.between_of_topLevel read
    apply between.index_inj found foundOther
    rw [← gives.site_eq, ← givesOther.site_eq, same]
  · intro same
    subst same
    rw [stems.unique stemsOther]

theorem existsUnique_stemsFrom {unit : CodeUnit}
    (within : Relation.ReflTransGen Value.Holds value unit.toValue) :
    ∃! index, unit.StemsFrom profile (Call.events profile [.topLevel] (.start stream)) index := by
  obtain ⟨index, stems⟩ := exists_stemsFrom read within
  exact ⟨index, stems, fun other stemsOther => (stemsOther.site_eq_iff read stems).mp rfl⟩

theorem sameObject_iff (within : Relation.ReflTransGen Value.Holds value one.toValue)
    (withinOther : Relation.ReflTransGen Value.Holds value other.toValue) :
    one.SameObject profile (Call.events profile [.topLevel] (.start stream)) other ↔
      one.site = other.site := by
  constructor
  · intro ⟨index, stems, stemsOther⟩
    rw [stems.unique stemsOther]
  · intro same
    obtain ⟨index, stems⟩ := exists_stemsFrom read within
    obtain ⟨position, stemsOther⟩ := exists_stemsFrom read withinOther
    cases (stems.site_eq_iff read stemsOther).mp same
    exact ⟨index, stems, stemsOther⟩

end CodeUnit
end CodeScope

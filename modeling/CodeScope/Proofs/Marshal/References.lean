import CodeScope.Proofs.Marshal.Chain
import CodeScope.Proofs.Marshal.Conduct

/-!
# References of a session

Through all the events of a session the reference table only grows, a complete value stays in its
slot, and the slots that are not complete are those of the values that are open. What a reference
stands for is therefore determined by the values around it.
-/

namespace CodeScope
namespace Reading

variable {profile : Profile} {state : ReaderState} {stack : List (Option Nat × Bool)}
variable {inside : Reading (Option Value)} {within : ReaderState → List Event}

/-- A reader of the values inside others whose slots are those of a stack. -/
def Conforms (inside : Reading (Option Value)) (within : ReaderState → List Event)
    (stack : List (Option Nat × Bool)) : Prop :=
  ∀ state : ReaderState, state.Balanced stack → state.Sound →
    Runs inside within state fun answer next =>
      next.Balanced stack ∧ next.Sound ∧ Script.Admits next.Shared answer

theorem scan_slots {α : Type} {part : Scan α} {value : α} {next : ReaderState}
    (read : scan part state = .ok value next) : next.slots = state.slots := by
  simp only [scan] at read
  split at read
  · cases read
    rfl
  · cases read

theorem runs_fill {slot : Option Nat} {marked : Bool}
    (balanced : state.Balanced ((slot, marked) :: stack)) (sound : state.Sound) :
    Runs (setSlot slot .filling) (fun _ => []) state fun _ next =>
      next.Balanced ((slot, true) :: stack) ∧ next.Sound := by
  cases slot with
  | none =>
      have opened : state.Balanced ((none, true) :: stack) :=
        ReaderState.balanced_none.mpr (ReaderState.balanced_none.mp balanced)
      exact Runs.ofOk rfl (by simp) (.refl state) ⟨opened, sound⟩
  | some own =>
      have size : (state.withSlot own .filling).slots.size = state.slots.size := by
        simp [ReaderState.withSlot]
      have ended := And.intro balanced.fill (sound.fill balanced)
      exact Runs.ofOk rfl (by simp) (.nil (.fill balanced) size) ended

/--
How a script ends: its own value is still not complete, and what the script ends with refers only to
what may be shared then.
-/
def Ending {α : Type} (slot : Option Nat) (shared : Bool) (stack : List (Option Nat × Bool))
    (marked : Bool) (script : Script α) (value : α) (next : ReaderState) : Prop :=
  next.Sound ∧ ∃ after, next.Balanced ((slot, after) :: stack) ∧
    ∀ (allowed : Nat → Prop) (ends : Bool → α → Prop),
      (∀ index, next.Shared index → allowed index) →
        script.Conducts allowed shared marked ends → ends after value

section Script

variable {α : Type} {slot : Option Nat} {shared marked further : Bool} {script rest : Script α}

/-- A script ends as what is left of it does. -/
theorem Ending.ofRest {value : α} {next : ReaderState}
    (ending : Ending slot shared stack further rest value next)
    (conducts : ∀ (allowed : Nat → Prop) (ends : Bool → α → Prop),
      (∀ index, next.Shared index → allowed index) → script.Conducts allowed shared marked ends →
        rest.Conducts allowed shared further ends) :
    Ending slot shared stack marked script value next := by
  obtain ⟨sound, after, balanced, result⟩ := ending
  refine ⟨sound, after, balanced, ?_⟩
  intro allowed ends covers whole
  exact result allowed ends covers (conducts allowed ends covers whole)

/-- A request that leaves the table as it is, and what is left of the script after it. -/
theorem runs_quietly {β : Type} {part : Reading β} {next : β → Script α}
    (kept : ∀ answer middle, part state = .ok answer middle → middle.slots = state.slots)
    (balanced : state.Balanced ((slot, marked) :: stack)) (sound : state.Sound)
    (afterwards : ∀ answer middle, middle.Balanced ((slot, marked) :: stack) → middle.Sound →
      Runs ((next answer).run inside slot) ((next answer).events inside within slot) middle
        (Ending slot shared stack marked (next answer)))
    (conducts : ∀ answer (allowed : Nat → Prop) (ends : Bool → α → Prop),
      script.Conducts allowed shared marked ends →
        (next answer).Conducts allowed shared marked ends) :
    Runs (part >>= fun answer => (next answer).run inside slot)
      (part.eventsAfter fun answer => (next answer).events inside within slot) state
      (Ending slot shared stack marked script) := by
  apply (Runs.quiet kept).bind
  intro answer middle same
  apply (afterwards answer middle (balanced.ofSlots same) (sound.ofSlots same)).weaken
  intro value last extended ending
  exact ending.ofRest fun allowed ends _ whole => conducts answer allowed ends whole

/-- A script runs from a table in which its own value is not complete to another such table. -/
theorem runs_script (conforms : Conforms inside within ((slot, shared) :: stack))
    (conducts : script.Conducts (fun _ => True) shared marked fun _ _ => True)
    (balanced : state.Balanced ((slot, marked) :: stack)) (sound : state.Sound) :
    Runs (script.run inside slot) (script.events inside within slot) state
      (Ending slot shared stack marked script) := by
  -- The own value is on the stack throughout; only `markFilling` changes how it stands there.
  induction script generalizing marked state with
  | done result =>
      refine Runs.ofOk rfl (by simp [Script.events]) (.refl state) ⟨sound, marked, balanced, ?_⟩
      intro allowed ends covers ended
      exact ended
  | fail error => exact Runs.ofError rfl (by simp [Script.events]) (.refl state)
  | takeBytes count next induction =>
      apply runs_quietly (fun answer middle => scan_slots) balanced sound
      · intro data middle
        exact induction data (conducts data)
      · intro data allowed ends whole
        exact whole data
  | askOffset next induction =>
      apply runs_quietly (fun answer middle read => by cases read; rfl) balanced sound
      · intro offset middle
        exact induction offset (conducts offset)
      · intro offset allowed ends whole
        exact whole offset
  | askRemaining next induction =>
      apply runs_quietly (fun answer middle read => by cases read; rfl) balanced sound
      · intro left middle
        exact induction left (conducts left)
      · intro left allowed ends whole
        exact whole left
  | recordText content next induction =>
      apply runs_quietly (fun answer middle read => by cases read; rfl) balanced sound
      · intro _ middle
        exact induction conducts
      · intro _ allowed ends whole
        exact whole
  | markFilling next induction =>
      apply (runs_fill balanced sound).bind
      intro _ middle opened
      exact induction conducts opened.1 opened.2
  | askChild next induction =>
      obtain ⟨same, rest⟩ := conducts
      subst same
      apply (conforms state balanced sound).bind
      intro answer middle inner
      obtain ⟨balancedMiddle, soundMiddle, admitted⟩ := inner
      have free : Script.Admits (fun _ => True) answer := fun _ _ _ _ => trivial
      apply (induction answer (rest answer free) balancedMiddle soundMiddle).weaken
      intro value last extended ending
      apply ending.ofRest
      intro allowed ends covers whole
      apply whole.2
      intro inner isAnswer index member
      exact covers _ (extended.shared (admitted inner isAnswer index member))

end Script

section Opening

/-- What can come of a tag, and how many slots it reserves. -/
inductive Opened (state : ReaderState) : EStateM.Result Error ReaderState Opening → Prop
  | failed (error : Error) (next : ReaderState) : Opened state (.error error next)
  | settled {answer : Option Value} {next : ReaderState} (slots : next.slots = state.slots)
      (reserved : Event.reservedBy state.cursor.rest = 0)
      (admitted : Script.Admits state.Shared answer) : Opened state (.ok (.settled answer) next)
  | plain {form : BodyForm} {site : TagSite} {next : ReaderState}
      (slots : next.slots = state.slots) (reserved : Event.reservedBy state.cursor.rest = 0) :
      Opened state (.ok (.body form site none) next)
  | flagged {form : BodyForm} {site : TagSite} {next : ReaderState}
      (slots : next.slots = state.reserved.slots)
      (reserved : Event.reservedBy state.cursor.rest = 1) :
      Opened state (.ok (.body form site (some state.slots.size)) next)

theorem admits_direct {allowed : Nat → Prop} {value : Value} (empty : value.references = []) :
    Script.Admits allowed (some value) := by
  intro other same slot member
  cases same
  rw [empty] at member
  simp at member

theorem admits_resolved {index : UInt32} {value : Value} {start next : ReaderState}
    (sound : state.Sound) (same : start.slots = state.slots)
    (read : resolve index start = .ok value next) :
    next.slots = start.slots ∧ Script.Admits state.Shared (some value) := by
  simp only [resolve, same] at read
  split at read
  · next stored complete =>
      cases read
      refine ⟨rfl, ?_⟩
      intro other found
      cases found
      exact sound.refers complete
  · next filling =>
      cases read
      refine ⟨rfl, ?_⟩
      intro other found slot member
      cases found
      simp only [Value.references, List.mem_singleton] at member
      rw [member]
      exact .inl filling
  · cases read
  · cases read

theorem admits_resolvedInterned {allowed : Nat → Prop} {index : UInt32} {value : Value}
    {start next : ReaderState} (read : resolveInterned index start = .ok value next) :
    next.slots = start.slots ∧ Script.Admits allowed (some value) := by
  simp only [resolveInterned] at read
  split at read
  · cases read
    exact ⟨rfl, admits_direct rfl⟩
  · cases read

theorem references_constant {byte : UInt8} {value : Value}
    (tagged : Tag.ofByte? byte = some (.constant value)) : value.references = [] := by
  unfold Tag.ofByte? Tag.ofChar? at tagged
  split at tagged <;> simp only [Option.some.injEq, Tag.constant.injEq, reduceCtorEq] at tagged
  all_goals
    subst tagged
    rfl

/-- The number after a tag that refers to something, and what comes of it. -/
theorem opened_reference {state middle : ReaderState} {follow : UInt32 → Reading Value}
    (slots : middle.slots = state.slots) (reserved : Event.reservedBy state.cursor.rest = 0)
    (admitted : ∀ (index : UInt32) (value : Value) (start next : ReaderState),
      start.slots = state.slots → follow index start = .ok value next →
        next.slots = start.slots ∧ Script.Admits state.Shared (some value)) :
    Opened state ((scan Scan.u32 >>= fun index => follow index >>= fun value =>
      pure (.settled (some value))) middle) := by
  cases number : scan Scan.u32 middle with
  | error error next =>
      rw [bind_of_error number]
      exact .failed error next
  | ok index start =>
      rw [bind_of_ok number]
      have same : start.slots = state.slots := (scan_slots number).trans slots
      cases read : follow index start with
      | error error next =>
          rw [bind_of_error read]
          exact .failed error next
      | ok value next =>
          rw [bind_of_ok read]
          obtain ⟨kept, admitted⟩ := admitted index value start next same read
          exact .settled (kept.trans same) reserved admitted

/-- A byte that is read is the first one of those that are left. -/
theorem rest_eq_of_scan_u8 {byte : UInt8} {next : ReaderState}
    (read : scan Scan.u8 state = .ok byte next) : ∃ tail, state.cursor.rest = byte :: tail := by
  cases rest : state.cursor.rest with
  | nil =>
      have failed : scan (Scan.bytes 1) state =
          .error (.truncated 1 state.cursor.offset) state := by
        simp [scan, Scan.bytes, Cursor.take, rest]
      rw [Scan.u8, scan_map, scan_littleEndian] at read
      simp [Functor.map, EStateM.map, failed] at read
  | cons first tail =>
      rw [scan_u8_of_stream rest] at read
      cases read
      exact ⟨tail, rfl⟩

theorem opened_opening (sound : state.Sound) : Opened state (opening state) := by
  have started : offset state = .ok state.cursor.offset state := rfl
  rw [opening, bind_of_ok started]
  cases read : scan Scan.u8 state with
  | error error next =>
      rw [bind_of_error read]
      exact .failed error next
  | ok byte next =>
      rw [bind_of_ok read]
      have slots := scan_slots read
      obtain ⟨tail, front⟩ := rest_eq_of_scan_u8 read
      have unowned : Tag.ownsSlot (Tag.ofByte? byte) = false →
          Event.reservedBy state.cursor.rest = 0 := by
        intro unowned
        simp [front, Event.reservedBy, unowned]
      cases tagged : Tag.ofByte? byte with
      | none =>
          by_cases flagged : 128 ≤ byte.toNat
          · simp only [reserveFor, flagged, if_true]
            exact .failed _ _
          · simp only [reserveFor, flagged, if_false]
            exact .failed _ _
      | some tag =>
          rw [tagged] at unowned
          cases tag with
          | null =>
              refine .settled slots (unowned rfl) ?_
              intro value same
              simp at same
          | constant value =>
              exact .settled slots (unowned rfl) (admits_direct (references_constant tagged))
          | reference =>
              apply opened_reference slots (unowned rfl)
              intro index value start last same resolved
              exact admits_resolved sound same resolved
          | internedText =>
              apply opened_reference slots (unowned rfl)
              intro index value start last same resolved
              exact admits_resolvedInterned resolved
          | body form =>
              by_cases flagged : 128 ≤ byte.toNat
              · have owned : Event.reservedBy state.cursor.rest = 1 := by
                  simp [front, Event.reservedBy, tagged, flagged, Tag.ownsSlot]
                simp only [reserveFor, flagged, if_true]
                have reserving : (some <$> reserve) next = .ok (some state.slots.size)
                    { next with slots := next.slots.push .pending } := by
                  rw [← slots]
                  rfl
                rw [bind_of_ok reserving]
                refine .flagged ?_ owned
                rw [slots]
                rfl
              · have unowned : Event.reservedBy state.cursor.rest = 0 := by
                  simp [front, Event.reservedBy, flagged]
                simp only [reserveFor, flagged, if_false]
                exact .plain slots unowned

end Opening

/-- There is a state after a tag with as many slots more as the tag reserves. -/
theorem exists_reserved (state : ReaderState) :
    ∃ after : ReaderState, after.Extends state ∧
      after.slots.size = state.slots.size + Event.reservedBy state.cursor.rest := by
  have few : Event.reservedBy state.cursor.rest = 0 ∨ Event.reservedBy state.cursor.rest = 1 := by
    unfold Event.reservedBy
    split
    · split
      · exact .inr rfl
      · exact .inl rfl
    · exact .inl rfl
  rcases few with none | one
  · exact ⟨state, .ofSlots rfl, by rw [none, Nat.add_zero]⟩
  · refine ⟨state.reserved, .reserved state, ?_⟩
    rw [one, ReaderState.reserved, Array.size_push]

theorem runs_complete {slot : Option Nat} {shared : Bool} {value : Value}
    (balanced : state.Balanced ((slot, shared) :: stack)) (sound : state.Sound)
    (ended : Script.Ends state.Shared shared value) :
    Runs (setSlot slot (.ready value) >>= fun _ => pure (some value)) (fun _ => []) state
      fun answer next => next.Balanced stack ∧ next.Sound ∧ Script.Admits next.Shared answer := by
  obtain ⟨refers, direct, holds⟩ := ended
  cases slot with
  | none =>
      refine Runs.ofOk rfl (by simp) (.refl state)
        ⟨ReaderState.balanced_none.mp balanced, sound, ?_⟩
      intro other same
      cases same
      exact refers
  | some own =>
      have size : (state.withSlot own (.ready value)).slots.size = state.slots.size := by
        simp [ReaderState.withSlot]
      have extended := ReaderState.Extends.complete balanced holds
      refine Runs.ofOk rfl (by simp) (.nil extended size)
        ⟨balanced.complete, sound.complete balanced holds refers direct, ?_⟩
      intro other same slot member
      cases same
      exact extended.shared (refers slot member)

theorem conducts_freely (profile : Profile) (site : TagSite) (form : BodyForm) :
    (Script.body profile site form).Conducts (fun _ => True) form.canHoldItself false
      fun _ _ => True := by
  apply (Script.conducts_body profile site form).weaken
  intro after value ended
  trivial

/-- What a body leaves, once its value is in its slot. -/
theorem runs_body {form : BodyForm} {site : TagSite} {slot : Option Nat}
    (conforms : Conforms inside within ((slot, form.canHoldItself) :: stack))
    (balanced : state.Balanced ((slot, false) :: stack)) (sound : state.Sound) :
    Runs ((Script.body profile site form).run inside slot >>= fun value =>
        setSlot slot (.ready value) >>= fun _ => pure (some value))
      ((Script.body profile site form).events inside within slot) state
      fun answer next => next.Balanced stack ∧ next.Sound ∧ Script.Admits next.Shared answer := by
  have conducts := conducts_freely profile site form
  apply ((runs_script conforms conducts balanced sound).bind _).congrEvents
  · rw [eventsAfter_nil, List.append_nil]
  · intro value next ending
    obtain ⟨soundNext, after, balancedNext, result⟩ := ending
    have ended := result next.Shared (Script.Ends next.Shared) (fun _ shared => shared)
      (Script.conducts_body profile site form)
    exact runs_complete balancedNext soundNext ended

/-- A tag is an event of its own, before those of what it leaves to be read. -/
theorem runs_afterTag {enclosing : List OpenValue} {opened : Opening} {middle : ReaderState}
    {rest : Opening → Reading (Option Value)} {events : Opening → ReaderState → List Event}
    {accepts : Option Value → ReaderState → Prop}
    (read : opening state = .ok opened middle)
    (regular : (Event.tag enclosing state).Regular) (extended : middle.Extends state)
    (size : middle.slots.size = state.slots.size + Event.reservedBy state.cursor.rest)
    (afterwards : Runs (rest opened) (events opened) middle accepts) :
    Runs (opening >>= rest) (fun state => .tag enclosing state :: opening.eventsAfter events state)
      state accepts := by
  obtain ⟨regularAfter, ended⟩ := afterwards
  have split : opening.eventsAfter events state = events opened middle := by
    rw [eventsAfter, read]
  have allRegular : ∀ event ∈ Event.tag enclosing state :: opening.eventsAfter events state,
      event.Regular := by
    intro event member
    rw [split] at member
    rcases List.mem_cons.mp member with same | later
    · rw [same]
      exact regular
    · exact regularAfter event later
  have chained : ∀ {last : ReaderState}, Event.Chain middle (events opened middle) last →
      Event.Chain state (.tag enclosing state :: opening.eventsAfter events state) last := by
    intro last chain
    rw [split]
    exact .cons (.ofSlots rfl) rfl extended size chain
  cases result : rest opened middle with
  | ok value last =>
      rw [result] at ended
      exact Runs.ofOk ((bind_of_ok read).trans result) allRegular (chained ended.1) ended.2
  | error error last =>
      rw [result] at ended
      obtain ⟨final, chain⟩ := ended
      exact Runs.ofError ((bind_of_ok read).trans result) allRegular (chained chain)

theorem runs_tagged {enclosing : List OpenValue} {within : OpenValue → ReaderState → List Event}
    (conforms : ∀ value, Conforms inside (within value) (OpenValue.stack (value :: enclosing)))
    (balanced : state.Balanced (OpenValue.stack enclosing)) (sound : state.Sound) :
    Runs (tagged profile inside)
      (fun state => .tag enclosing state ::
        opening.eventsAfter (Opening.events profile inside within) state) state
      fun answer next => next.Balanced (OpenValue.stack enclosing) ∧ next.Sound ∧
        Script.Admits next.Shared answer := by
  have regular : (Event.tag enclosing state).Regular := ⟨balanced, sound⟩
  have opened := opened_opening sound
  cases read : opening state with
  | error error next =>
      have silent : opening.eventsAfter (Opening.events profile inside within) state = [] := by
        rw [eventsAfter, read]
      obtain ⟨after, extended, size⟩ := exists_reserved state
      have chain : Event.Chain state [.tag enclosing state] after :=
        .cons (.ofSlots rfl) rfl extended size (.refl after)
      rw [← silent] at chain
      apply Runs.ofError (bind_of_error read) _ chain
      intro event member
      rw [silent, List.mem_singleton] at member
      rw [member]
      exact regular
  | ok result next =>
      rw [read] at opened
      cases opened with
      | settled slots reserved admitted =>
          have size : next.slots.size = state.slots.size + Event.reservedBy state.cursor.rest := by
            rw [slots, reserved, Nat.add_zero]
          have extended : next.Extends state := .ofSlots slots
          apply runs_afterTag read regular extended size
          refine Runs.ofOk rfl (by simp [Opening.events]) (.refl next)
            ⟨balanced.ofSlots slots, sound.ofSlots slots, ?_⟩
          intro value same slot member
          exact extended.shared (admitted value same slot member)
      | plain slots reserved =>
          have size : next.slots.size = state.slots.size + Event.reservedBy state.cursor.rest := by
            rw [slots, reserved, Nat.add_zero]
          apply runs_afterTag read regular (.ofSlots slots) size
          have balancedNext := balanced.ofSlots slots
          exact runs_body (conforms _) (ReaderState.balanced_none.mpr balancedNext)
            (sound.ofSlots slots)
      | flagged slots reserved =>
          have size : next.slots.size = state.slots.size + Event.reservedBy state.cursor.rest := by
            rw [slots, reserved, ReaderState.reserved, Array.size_push]
          have extended : next.Extends state :=
            ReaderState.Extends.trans (.ofSlots slots) (.reserved state)
          apply runs_afterTag read regular extended size
          exact runs_body (conforms _) (balanced.reserved.ofSlots slots)
            (sound.reserved.ofSlots slots)

/-- What a level deeper is done to the reference table is done to it. -/
theorem runs_nested {part : Reading (Option Value)} {events : ReaderState → List Event}
    (runs : Runs part events { state with depth := state.depth + 1 } fun answer next =>
      next.Balanced stack ∧ next.Sound ∧ Script.Admits next.Shared answer) :
    Runs (nested part) (fun state => events { state with depth := state.depth + 1 }) state
      fun answer next => next.Balanced stack ∧ next.Sound ∧ Script.Admits next.Shared answer := by
  obtain ⟨regular, ended⟩ := runs
  have deeper : ({ state with depth := state.depth + 1 } : ReaderState).Extends state :=
    .ofSlots rfl
  cases read : part { state with depth := state.depth + 1 } with
  | ok answer next =>
      rw [read] at ended
      obtain ⟨chain, balanced, sound, admitted⟩ := ended
      have left : nested part state = .ok answer { next with depth := next.depth - 1 } := by
        simp only [nested, read]
      exact Runs.ofOk left regular ((chain.before deeper rfl).behind rfl)
        ⟨balanced.ofSlots rfl, sound.ofSlots rfl, admitted⟩
  | error error next =>
      rw [read] at ended
      obtain ⟨last, chain⟩ := ended
      have left : nested part state = .error error { next with depth := next.depth - 1 } := by
        simp only [nested, read]
      exact Runs.ofError left regular (chain.before deeper rfl)

theorem conforms_optional (levels : Nat) (enclosing : List OpenValue) :
    Conforms (optional profile levels) (optionalEvents profile levels enclosing)
      (OpenValue.stack enclosing) := by
  induction levels generalizing enclosing with
  | zero =>
      intro state balanced sound
      exact Runs.ofError rfl (by simp [optionalEvents]) (.refl state)
  | succ levels induction =>
      intro state balanced sound
      have deeper := fun value => induction (value :: enclosing)
      exact runs_nested (runs_tagged deeper (balanced.ofSlots rfl) (sound.ofSlots rfl))

/-- A value that is read on its own leaves every slot complete. -/
theorem runs_value (balanced : state.Balanced []) (sound : state.Sound) :
    Runs (value profile) (valueEvents profile) state fun value next =>
      next.Balanced [] ∧ next.Sound ∧ value.RefersWithin next.Shared := by
  have conforms : Conforms (optional profile (nestingLimit - state.depth))
      (optionalEvents profile (nestingLimit - state.depth) []) [(none, false)] := by
    intro start balancedStart soundStart
    apply (conforms_optional _ [] start (ReaderState.balanced_none.mp balancedStart)
      soundStart).weaken
    intro answer next extended ended
    exact ⟨ReaderState.balanced_none.mpr ended.1, ended.2⟩
  have conducts : ∀ allowed : Nat → Prop, Script.required.Conducts allowed false false
      fun after value => after = false ∧ value.RefersWithin allowed :=
    fun allowed => Script.Yields.required
  have free : Script.required.Conducts (fun _ => True) false false fun _ _ => True := by
    apply (conducts _).weaken
    intro after value ended
    trivial
  have runs := runs_script conforms free (ReaderState.balanced_none.mpr balanced) sound
  apply runs.weaken
  intro value next extended ending
  obtain ⟨soundNext, after, balancedNext, result⟩ := ending
  have ended := result next.Shared _ (fun _ shared => shared) (conducts next.Shared)
  exact ⟨ReaderState.balanced_none.mp balancedNext, soundNext, ended.2⟩

theorem runs_call (call : Call) (balanced : state.Balanced []) (sound : state.Sound) :
    Runs (call.read profile) (valueEvents profile) state fun value next =>
      next.Balanced [] ∧ next.Sound ∧ value.RefersWithin next.Shared := by
  cases call with
  | value => exact runs_value balanced sound
  | topLevel =>
      apply ((runs_value balanced sound).bind _).congrEvents
      · rw [eventsAfter_nil, List.append_nil]
      · intro result next ended
        have counted : remaining next = .ok next.cursor.remaining next := rfl
        cases left : next.cursor.remaining with
        | zero =>
            refine Runs.ofOk ?_ (by simp) (.refl next) ended
            rw [bind_of_ok counted, left]
            rfl
        | succ count =>
            refine ⟨by simp, ?_⟩
            rw [bind_of_ok counted, left]
            exact ⟨next, .refl next⟩

end Reading

namespace Call

/-- The events of a session are regular, and a chain. -/
theorem chain_events (profile : Profile) (calls : List Call) {state : ReaderState}
    (balanced : state.Balanced []) (sound : state.Sound) :
    (∀ event ∈ events profile calls state, event.Regular) ∧
      ∃ last, Event.Chain state (events profile calls state) last := by
  induction calls generalizing state with
  | nil => exact ⟨by simp [events], state, .refl state⟩
  | cons call calls induction =>
      obtain ⟨regular, ended⟩ := Reading.runs_call call balanced sound
      cases read : call.read profile state with
      | error error next =>
          rw [read] at ended
          obtain ⟨last, chain⟩ := ended
          have whole : events profile (call :: calls) state =
              Reading.valueEvents profile state := by
            rw [events, Reading.eventsAfter, read]
            exact List.append_nil _
          rw [whole]
          exact ⟨regular, last, chain⟩
      | ok value next =>
          rw [read] at ended
          obtain ⟨chain, balancedNext, soundNext, refers⟩ := ended
          obtain ⟨regularAfter, last, chainAfter⟩ := induction balancedNext soundNext
          have whole : events profile (call :: calls) state =
              Reading.valueEvents profile state ++
                .returned value next :: events profile calls next := by
            rw [events, Reading.eventsAfter, read]
          rw [whole]
          constructor
          · intro event member
            rcases List.mem_append.mp member with early | late
            · exact regular event early
            · rcases List.mem_cons.mp late with same | later
              · rw [same]
                exact ⟨balancedNext, soundNext, refers⟩
              · exact regularAfter event later
          · refine ⟨last, chain.append ?_⟩
            exact .cons (.ofSlots rfl) rfl (.ofSlots rfl) rfl chainAfter

end Call

theorem OpenValue.mem_stack {enclosing : List OpenValue} {slot : Nat} {shared : Bool} :
    (some slot, shared) ∈ OpenValue.stack enclosing ↔
      ∃ value ∈ enclosing, value.slot = some slot ∧ value.form.canHoldItself = shared := by
  simp [OpenValue.stack, Prod.mk.injEq]

/--
What a reference to a slot comes to among open values. `outcome` is that of reading it in a state.
-/
structure Resolved (enclosing : List OpenValue) (state : ReaderState) (index : UInt32)
    (outcome : EStateM.Result Error ReaderState (Option Value)) : Prop where
  /-- A slot that was not reserved. -/
  invalid : (∃ next, outcome = .error (.invalidReference index) next) ↔
    state.slots.size ≤ index.toNat
  /-- The slot of an open list, set or dictionary. -/
  shared : (∃ next, outcome = .ok (some (.reference index)) next) ↔
    ∃ value ∈ enclosing, value.slot = some index.toNat ∧ value.form.canHoldItself = true
  /-- The slot of another open value. -/
  incomplete : (∃ next, outcome = .error (.incompleteReference index) next) ↔
    ∃ value ∈ enclosing, value.slot = some index.toNat ∧ value.form.canHoldItself = false
  /-- The slot of a complete value. -/
  complete : index.toNat < state.slots.size →
    (∀ value ∈ enclosing, value.slot ≠ some index.toNat) →
      ∃ value next, state.slots[index.toNat]? = some (.ready value) ∧
        outcome = .ok (some value) next

/-- The reference table throughout the events of a session. -/
structure ReferenceTable (profile : Profile) (events : List Event) : Prop where
  /-- There are as many slots as tags before that asked for one and can have it. -/
  numbered : ∀ (index : Nat) (event : Event), events[index]? = some event →
    event.state.slots.size = ((events.take index).map Event.reserved).sum
  /-- A value whose tag asks for a slot is in the next one when it is complete. -/
  owned : ∀ (enclosing : List OpenValue) (state next : ReaderState) (levels : Nat) (value : Value),
    .tag enclosing state ∈ events → Event.reservedBy state.cursor.rest = 1 →
      Reading.tagged profile (Reading.optional profile levels) state = .ok (some value) next →
        next.slots[state.slots.size]? = some (.ready value)
  /-- The slots that are filled are those of the open lists, sets and dictionaries. -/
  filling : ∀ (enclosing : List OpenValue) (state : ReaderState) (slot : Nat),
    .tag enclosing state ∈ events →
      (state.slots[slot]? = some .filling ↔
        ∃ value ∈ enclosing, value.slot = some slot ∧ value.form.canHoldItself = true)
  /-- The slots that are pending are those of the other open values. -/
  pending : ∀ (enclosing : List OpenValue) (state : ReaderState) (slot : Nat),
    .tag enclosing state ∈ events →
      (state.slots[slot]? = some .pending ↔
        ∃ value ∈ enclosing, value.slot = some slot ∧ value.form.canHoldItself = false)
  /-- A complete value stays in its slot. -/
  kept : events.Pairwise fun earlier later => ∀ (slot : Nat) (value : Value),
    earlier.state.slots[slot]? = some (.ready value) →
      later.state.slots[slot]? = some (.ready value)
  /-- What a reference to a slot comes to, wherever it stands. -/
  resolved : ∀ (enclosing : List OpenValue) (state : ReaderState) (byte : UInt8)
    (number rest : Bytes) (inside : Reading (Option Value)),
    .tag enclosing state ∈ events → byte.toNat % 128 = 'r'.toNat → number.length = 4 →
      state.cursor.rest = byte :: (number ++ rest) →
        Resolved enclosing state (UInt32.ofNat number.littleEndian)
          (Reading.tagged profile inside state)
  /-- When a call returns, every slot is complete. -/
  complete : ∀ (value : Value) (state : ReaderState) (slot : Slot),
    .returned value state ∈ events → slot ∈ state.slots → ∃ stored, slot = .ready stored
  /-- References in what a call returns, or has stored, name lists, sets and dictionaries. -/
  refers : ∀ (value holder : Value) (state : ReaderState) (index : UInt32),
    .returned value state ∈ events → holder = value ∨ .ready holder ∈ state.slots →
      index ∈ holder.references →
        ∃ target, state.slots[index.toNat]? = some (.ready target) ∧ target.canHoldItself = true

namespace Reading

variable {profile : Profile} {inside : Reading (Option Value)} {state : ReaderState}

/-- Reading a reference is resolving the number after its tag. -/
theorem tagged_reference {byte : UInt8} {number rest : Bytes}
    (isReference : byte.toNat % 128 = 'r'.toNat) (width : number.length = 4)
    (stream : state.cursor.rest = byte :: (number ++ rest)) :
    ∃ start : ReaderState, start.slots = state.slots ∧
      tagged profile inside state =
        (resolve (UInt32.ofNat number.littleEndian) >>= fun value => pure (some value)) start := by
  have started : offset state = .ok state.cursor.offset state := rfl
  have first := scan_u8_of_stream stream
  have second : scan Scan.u32 { state with cursor := ⟨number ++ rest, state.cursor.offset + 1⟩ } =
      .ok (UInt32.ofNat number.littleEndian)
        { state with cursor := ⟨rest, state.cursor.offset + 1 + 4⟩ } := by
    rw [Scan.u32, scan_map, ← width, map_of_ok (scan_littleEndian_of_stream rfl)]
  have named : Tag.ofByte? byte = some .reference := by
    rw [Tag.ofByte?, isReference]
    rfl
  refine ⟨{ state with cursor := ⟨rest, state.cursor.offset + 1 + 4⟩ }, rfl, ?_⟩
  rw [tagged, opening, bind_assoc, bind_of_ok started, bind_assoc, bind_of_ok first]
  simp only [named, bind_assoc, pure_bind]
  rw [bind_of_ok second]

theorem resolved_of_balanced {enclosing : List OpenValue} {index : UInt32} {start : ReaderState}
    (balanced : state.Balanced (OpenValue.stack enclosing)) (sound : state.Sound)
    (same : start.slots = state.slots) :
    Resolved enclosing state index ((resolve index >>= fun value => pure (some value)) start) := by
  have filling := (balanced.filling index.toNat).trans OpenValue.mem_stack
  have pending := (balanced.pending index.toNat).trans OpenValue.mem_stack
  cases stored : state.slots[index.toNat]? with
  | none =>
      have outside := Array.getElem?_eq_none_iff.mp stored
      have read : resolve index start = .error (.invalidReference index) start := by
        simp only [resolve, same, stored]
      rw [bind_of_error read]
      rw [stored] at filling pending
      constructor
      · exact ⟨fun _ => outside, fun _ => ⟨start, rfl⟩⟩
      · simpa using filling
      · simpa using pending
      · intro inside
        omega
  | some slot =>
      have inside := (Array.getElem?_eq_some_iff.mp stored).1
      rw [stored] at filling pending
      have notOutside : ¬ state.slots.size ≤ index.toNat := Nat.not_le_of_lt inside
      cases slot with
      | pending =>
          have read : resolve index start = .error (.incompleteReference index) start := by
            simp only [resolve, same, stored]
          rw [bind_of_error read]
          constructor
          · simpa using inside
          · simpa using filling
          · exact ⟨fun _ => pending.mp rfl, fun _ => ⟨start, rfl⟩⟩
          · intro _ unopened
            obtain ⟨value, member, slot, -⟩ := pending.mp rfl
            exact absurd slot (unopened value member)
      | filling =>
          have read : resolve index start = .ok (.reference index) start := by
            simp only [resolve, same, stored]
          have ended : (pure (some (.reference index)) : Reading (Option Value)) start =
              .ok (some (.reference index)) start := rfl
          rw [bind_of_ok read, ended]
          constructor
          · simpa using inside
          · exact ⟨fun _ => filling.mp rfl, fun _ => ⟨start, rfl⟩⟩
          · simpa using pending
          · intro _ unopened
            obtain ⟨value, member, slot, -⟩ := filling.mp rfl
            exact absurd slot (unopened value member)
      | ready value =>
          have read : resolve index start = .ok value start := by
            simp only [resolve, same, stored]
          have ended : (pure (some value) : Reading (Option Value)) start =
              .ok (some value) start := rfl
          have direct := sound.direct stored
          rw [bind_of_ok read, ended]
          constructor
          · simpa using inside
          · constructor
            · intro found
              obtain ⟨next, found⟩ := found
              cases found
              simp [Value.isReference] at direct
            · intro opened
              have contrary := filling.mpr opened
              simp at contrary
          · simpa using pending
          · intro _ _
            exact ⟨value, start, stored, rfl⟩

/-- A value whose tag asks for a slot is stored in the slot that was the next one at its tag. -/
theorem stored_of_tagged {stack : List (Option Nat × Bool)}
    {within : OpenValue → ReaderState → List Event} {next : ReaderState} {value : Value}
    (conforms : ∀ value : OpenValue,
      Conforms inside (within value) ((value.slot, value.form.canHoldItself) :: stack))
    (balanced : state.Balanced stack) (sound : state.Sound)
    (reserved : Event.reservedBy state.cursor.rest = 1)
    (read : tagged profile inside state = .ok (some value) next) :
    next.slots[state.slots.size]? = some (.ready value) := by
  have opened := opened_opening sound
  cases front : opening state with
  | error error middle =>
      rw [tagged, bind_of_error front] at read
      cases read
  | ok result middle =>
      rw [front] at opened
      cases opened with
      | settled slots unreserved admitted =>
          rw [reserved] at unreserved
          cases unreserved
      | plain slots unreserved =>
          rw [reserved] at unreserved
          cases unreserved
      | @flagged form site _ slots _ =>
          rw [tagged, bind_of_ok front] at read
          have runs := runs_script (conforms ⟨some state.slots.size, form⟩)
            (conducts_freely profile site form) (balanced.reserved.ofSlots slots)
            (sound.reserved.ofSlots slots)
          cases ended : (Script.body profile site form).run inside (some state.slots.size)
              middle with
          | error error final =>
              simp only [bind_of_error ended] at read
              cases read
          | ok copy final =>
              simp only [bind_of_ok ended] at read
              rw [Runs, ended] at runs
              obtain ⟨-, -, -, after, balancedFinal, -⟩ := runs
              have within : state.slots.size < final.slots.size :=
                balancedFinal.lt_size List.mem_cons_self
              cases read
              exact (ReaderState.getElem?_withSlot within _ _).trans (if_pos rfl)

end Reading

namespace ReaderState

theorem balanced_start (data : Bytes) : (start data).Balanced [] := by
  constructor
  · simp [start]
  · simp [start]
  · exact List.nodup_nil

theorem sound_start (data : Bytes) : (start data).Sound := by
  constructor
  · simp [start]
  · simp [start]

end ReaderState

/-- The reference table is as it should be throughout every session. -/
theorem referenceTable_events (profile : Profile) (data : Bytes) (calls : List Call) :
    ReferenceTable profile (Call.events profile calls (.start data)) := by
  obtain ⟨regular, last, chain⟩ := Call.chain_events profile calls
    (ReaderState.balanced_start data) (ReaderState.sound_start data)
  constructor
  · intro index event listed
    have size := chain.size_eq listed
    rwa [ReaderState.start, Array.size_empty, Nat.zero_add] at size
  · intro enclosing state next levels value member reserved read
    obtain ⟨balanced, sound⟩ := regular _ member
    have conforms := fun value => @Reading.conforms_optional profile levels
      (value :: enclosing)
    exact Reading.stored_of_tagged conforms balanced sound reserved read
  · intro enclosing state slot member
    obtain ⟨balanced, sound⟩ := regular _ member
    exact (balanced.filling slot).trans OpenValue.mem_stack
  · intro enclosing state slot member
    obtain ⟨balanced, sound⟩ := regular _ member
    exact (balanced.pending slot).trans OpenValue.mem_stack
  · apply chain.pairwise.imp
    intro earlier later extended slot value stored
    exact extended.ready stored
  · intro enclosing state byte number rest inside member isReference width stream
    obtain ⟨balanced, sound⟩ := regular _ member
    obtain ⟨start, same, resolving⟩ := Reading.tagged_reference isReference width stream
    rw [resolving]
    exact Reading.resolved_of_balanced balanced sound same
  · intro value state slot member stored
    obtain ⟨balanced, sound, refers⟩ := regular _ member
    obtain ⟨index, stored⟩ := Array.mem_iff_getElem?.mp stored
    cases slot with
    | ready value => exact ⟨value, rfl⟩
    | pending => exact absurd ((balanced.pending index).mp stored) List.not_mem_nil
    | filling => exact absurd ((balanced.filling index).mp stored) List.not_mem_nil
  · intro value holder state index member holds named
    obtain ⟨balanced, sound, refers⟩ := regular _ member
    have within : state.Shared index.toNat := by
      rcases holds with returned | stored
      · subst returned
        exact refers index named
      · obtain ⟨slot, stored⟩ := Array.mem_iff_getElem?.mp stored
        exact sound.refers stored index named
    rcases within with filling | ready
    · exact absurd ((balanced.filling _).mp filling) List.not_mem_nil
    · exact ready

end CodeScope

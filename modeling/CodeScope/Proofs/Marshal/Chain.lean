import CodeScope.Proofs.Marshal.Script
import CodeScope.Proofs.Marshal.Session
import CodeScope.Proofs.Marshal.Slots
import Mathlib.Algebra.Ring.Nat

/-!
# Chains of events

At each event the slots that are not complete are those of the values that are open, and from one
event to the next the reference table is extended. Parts of a reader whose events are so can be put
in sequence.
-/

namespace CodeScope

/-- The slots of open values, each with whether its value can be referred to. -/
def OpenValue.stack (enclosing : List OpenValue) : List (Option Nat × Bool) :=
  enclosing.map fun value => (value.slot, value.form.canHoldItself)

namespace Event

/-- An event at which the reference table is as the open values require. -/
def Regular : Event → Prop
  | tag enclosing state => state.Balanced (OpenValue.stack enclosing) ∧ state.Sound
  | returned value state => state.Balanced [] ∧ state.Sound ∧ value.RefersWithin state.Shared

/--
Events between two states, through which the reference table is extended. Only a tag that asks for a
slot makes it longer.
-/
inductive Chain : ReaderState → List Event → ReaderState → Prop
  | nil {first last : ReaderState} (extended : last.Extends first)
      (size : last.slots.size = first.slots.size) : Chain first [] last
  | cons {first after last : ReaderState} {event : Event} {rest : List Event}
      (before : event.state.Extends first) (size : event.state.slots.size = first.slots.size)
      (behind : after.Extends event.state)
      (grown : after.slots.size = event.state.slots.size + event.reserved)
      (others : Chain after rest last) : Chain first (event :: rest) last

namespace Chain

variable {first middle last : ReaderState} {events others : List Event}

theorem refl (state : ReaderState) : Chain state [] state :=
  nil (.ofSlots rfl) rfl

theorem ofSlots (same : last.slots = first.slots) : Chain first [] last :=
  nil (.ofSlots same) (by rw [same])

theorem extended (chain : Chain first events last) : last.Extends first := by
  induction chain with
  | nil extended size => exact extended
  | cons before size behind grown others induction =>
      exact (induction.trans behind).trans before

theorem before (chain : Chain middle events last) (extended : middle.Extends first)
    (size : middle.slots.size = first.slots.size) : Chain first events last := by
  cases chain with
  | nil further same => exact nil (further.trans extended) (same.trans size)
  | cons further same behind grown others =>
      exact cons (further.trans extended) (same.trans size) behind grown others

theorem append (front : Chain first events middle) (back : Chain middle others last) :
    Chain first (events ++ others) last := by
  induction front with
  | nil extended size => exact back.before extended size
  | cons before size behind grown others induction =>
      exact cons before size behind grown (induction back)

theorem behind (chain : Chain first events middle) (same : last.slots = middle.slots) :
    Chain first events last := by
  have further := chain.append (ofSlots same)
  rwa [List.append_nil] at further

/-- The slots before an event are those that the events before it reserved. -/
theorem size_eq (chain : Chain first events last) {index : Nat} {event : Event}
    (listed : events[index]? = some event) :
    event.state.slots.size =
      first.slots.size + ((events.take index).map Event.reserved).sum := by
  induction chain generalizing index with
  | nil extended size => simp at listed
  | cons before size behind grown others induction =>
      cases index with
      | zero =>
          simp only [List.getElem?_cons_zero, Option.some.injEq] at listed
          subst listed
          simpa using size
      | succ index =>
          rw [List.getElem?_cons_succ] at listed
          have later := induction listed
          rw [List.take_succ_cons, List.map_cons, List.sum_cons]
          omega

theorem pairwise (chain : Chain first events last) :
    events.Pairwise fun earlier later => later.state.Extends earlier.state := by
  have following : ∀ {first last : ReaderState} {events : List Event}, Chain first events last →
      ∀ event ∈ events, event.state.Extends first := by
    intro first last events chain
    induction chain with
    | nil extended size => simp
    | cons before size behind grown others induction =>
        intro event member
        rcases List.mem_cons.mp member with same | later
        · rw [same]
          exact before
        · exact ((induction event later).trans behind).trans before
  induction chain with
  | nil extended size => exact List.Pairwise.nil
  | cons before size behind grown others induction =>
      refine List.Pairwise.cons ?_ induction
      intro event member
      exact (following others event member).trans behind

end Chain
end Event

namespace Reading

variable {α β : Type} {state : ReaderState}

/--
A part of a reader whose events from a state on are regular and make a chain to the state where it
ends. If it succeeds, its result and that state are accepted.
-/
def Runs (part : Reading α) (events : ReaderState → List Event) (state : ReaderState)
    (accepts : α → ReaderState → Prop) : Prop :=
  (∀ event ∈ events state, event.Regular) ∧
    match part state with
    | .ok value next => Event.Chain state (events state) next ∧ accepts value next
    | .error _ _ => ∃ last, Event.Chain state (events state) last

theorem eventsAfter_nil (part : Reading α) (state : ReaderState) :
    part.eventsAfter (fun _ _ => []) state = [] := by
  rw [eventsAfter]
  cases part state with
  | ok value next => rfl
  | error error next => rfl

namespace Runs

variable {part : Reading α} {events : ReaderState → List Event} {accepts : α → ReaderState → Prop}
  {passes : β → ReaderState → Prop}

theorem ofOk {value : α} {next : ReaderState} (read : part state = .ok value next)
    (regular : ∀ event ∈ events state, event.Regular)
    (chain : Event.Chain state (events state) next) (accepted : accepts value next) :
    Runs part events state accepts := by
  refine ⟨regular, ?_⟩
  rw [read]
  exact ⟨chain, accepted⟩

theorem ofError {error : Error} {next last : ReaderState} (read : part state = .error error next)
    (regular : ∀ event ∈ events state, event.Regular)
    (chain : Event.Chain state (events state) last) : Runs part events state accepts := by
  refine ⟨regular, ?_⟩
  rw [read]
  exact ⟨last, chain⟩

/-- A part without events that leaves the reference table as it is. -/
theorem quiet (kept : ∀ value next, part state = .ok value next → next.slots = state.slots) :
    Runs part (fun _ => []) state fun _ next => next.slots = state.slots := by
  cases read : part state with
  | ok value next =>
      have same := kept value next read
      exact ofOk read (by simp) (.ofSlots same) same
  | error error next => exact ofError read (by simp) (.refl state)

theorem weaken {admits : α → ReaderState → Prop} (runs : Runs part events state accepts)
    (implies : ∀ value next, next.Extends state → accepts value next → admits value next) :
    Runs part events state admits := by
  obtain ⟨regular, ended⟩ := runs
  cases read : part state with
  | ok value next =>
      rw [read] at ended
      exact ofOk read regular ended.1 (implies value next ended.1.extended ended.2)
  | error error next =>
      rw [read] at ended
      obtain ⟨last, chain⟩ := ended
      exact ofError read regular chain

theorem congrEvents {others : ReaderState → List Event} (runs : Runs part events state accepts)
    (same : others state = events state) : Runs part others state accepts := by
  rw [Runs, same]
  exact runs

theorem bind {next : α → Reading β} {further : α → ReaderState → List Event}
    (first : Runs part events state accepts)
    (second : ∀ value middle, accepts value middle →
      Runs (next value) (further value) middle passes) :
    Runs (part >>= next) (fun state => events state ++ part.eventsAfter further state) state
      passes := by
  obtain ⟨regular, ended⟩ := first
  cases read : part state with
  | error error middle =>
      rw [read] at ended
      obtain ⟨last, chain⟩ := ended
      apply ofError (bind_of_error read)
      · simpa [eventsAfter, read] using regular
      · simpa [eventsAfter, read] using chain
  | ok value middle =>
      rw [read] at ended
      obtain ⟨chain, accepted⟩ := ended
      obtain ⟨regularAfter, endedAfter⟩ := second value middle accepted
      have split : events state ++ part.eventsAfter further state =
          events state ++ further value middle := by
        rw [eventsAfter, read]
      have allRegular : ∀ event ∈ events state ++ part.eventsAfter further state,
          event.Regular := by
        intro event member
        rw [split] at member
        rcases List.mem_append.mp member with early | late
        · exact regular event early
        · exact regularAfter event late
      cases readAfter : next value middle with
      | ok result last =>
          rw [readAfter] at endedAfter
          apply ofOk ((bind_of_ok read).trans readAfter) allRegular
          · rw [split]
            exact chain.append endedAfter.1
          · exact endedAfter.2
      | error error last =>
          rw [readAfter] at endedAfter
          obtain ⟨final, chainAfter⟩ := endedAfter
          apply ofError ((bind_of_ok read).trans readAfter) allRegular
          rw [split]
          exact chain.append chainAfter

end Runs
end Reading
end CodeScope

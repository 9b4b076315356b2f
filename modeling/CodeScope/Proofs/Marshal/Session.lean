import CodeScope.Marshal.Stream

/-!
# Sessions of a reader

A session is a sequence of calls on one reader, which ends with its first error. Its events are the
tags that it comes to, each with the values that are open around it, and the values that it returns.
-/

namespace CodeScope

/-- Whether a value of this form can hold a reference to itself. -/
def BodyForm.canHoldItself : BodyForm → Bool
  | list | set | dict => true
  | _ => false

/-- Whether a tag that asks for a slot gets one. An unknown tag gets one before it is refused. -/
def Tag.ownsSlot : Option Tag → Bool
  | some (.body _) | none => true
  | _ => false

/-- A value whose tag has been read and whose body has not ended. -/
structure OpenValue where
  /-- Its slot, if it has one. -/
  slot : Option Nat
  /-- Its form. -/
  form : BodyForm

/-- Something that happens in a session. -/
inductive Event where
  /-- A tag is to be read. The innermost enclosing value comes first. -/
  | tag (enclosing : List OpenValue) (state : ReaderState)
  /-- A call returns a value. -/
  | returned (value : Value) (state : ReaderState)

namespace Event

/-- The state in which an event happens. -/
def state : Event → ReaderState
  | tag _ state | returned _ state => state

/-- Number of slots that the tag at the front of a stream reserves. -/
def reservedBy : Bytes → Nat
  | byte :: _ => if 128 ≤ byte.toNat ∧ Tag.ownsSlot (Tag.ofByte? byte) then 1 else 0
  | [] => 0

/-- Number of slots that an event reserves. -/
def reserved : Event → Nat
  | tag _ state => reservedBy state.cursor.rest
  | returned _ _ => 0

end Event

/-- The events after a part of a reader, if it succeeds. -/
def Reading.eventsAfter {α : Type} (part : Reading α) (events : α → ReaderState → List Event) :
    ReaderState → List Event := fun state =>
  match part state with
  | .ok value next => events value next
  | .error _ _ => []

/--
The events of a script. `inside` reads the values inside its own and `within` gives the events of
that; `slot` is the slot of its own value.
-/
def Script.events {α : Type} (inside : Reading (Option Value)) (within : ReaderState → List Event)
    (slot : Option Nat) : Script α → ReaderState → List Event
  | done _ => fun _ => []
  | fail _ => fun _ => []
  | takeBytes count next =>
      (Reading.scan (Scan.bytes count)).eventsAfter fun data =>
        (next data).events inside within slot
  | askOffset next =>
      Reading.offset.eventsAfter fun offset => (next offset).events inside within slot
  | askRemaining next =>
      Reading.remaining.eventsAfter fun left => (next left).events inside within slot
  | markFilling next =>
      (Reading.setSlot slot .filling).eventsAfter fun _ => next.events inside within slot
  | recordText content next =>
      (Reading.intern content).eventsAfter fun _ => next.events inside within slot
  | askChild next => fun state =>
      within state ++
        inside.eventsAfter (fun answer => (next answer).events inside within slot) state

/--
The events of what a tag leaves to be read. `within` gives the events of the values inside a value.
-/
def Opening.events (profile : Profile) (inside : Reading (Option Value))
    (within : OpenValue → ReaderState → List Event) : Opening → ReaderState → List Event
  | settled _ => fun _ => []
  | body form site slot =>
      (Script.body profile site form).events inside (within ⟨slot, form⟩) slot

namespace Reading

/-- The events of a value with at most `levels` levels of nesting. -/
def optionalEvents (profile : Profile) : Nat → List OpenValue → ReaderState → List Event
  | 0, _, _ => []
  | levels + 1, enclosing, state =>
      let state := { state with depth := state.depth + 1 }
      let within := fun value => optionalEvents profile levels (value :: enclosing)
      .tag enclosing state ::
        opening.eventsAfter (Opening.events profile (optional profile levels) within) state

/-- The events of one value. -/
def valueEvents (profile : Profile) (state : ReaderState) : List Event :=
  let levels := nestingLimit - state.depth
  Script.required.events (optional profile levels) (optionalEvents profile levels []) none state

end Reading

/-- A call on a reader. -/
inductive Call where
  /-- To read one value. -/
  | value
  /-- To read one value, which must be the last one. -/
  | topLevel

namespace Call

/-- The part of the reader that a call runs. -/
def read (profile : Profile) : Call → Reading Value
  | value => Reading.value profile
  | topLevel => Reading.topLevel profile

/-- The events of a sequence of calls, up to the first error. -/
def events (profile : Profile) : List Call → ReaderState → List Event
  | [], _ => []
  | call :: calls, state =>
      Reading.valueEvents profile state ++
        (call.read profile).eventsAfter
          (fun value next => .returned value next :: events profile calls next) state

end Call
end CodeScope

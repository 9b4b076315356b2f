import CodeScope.Marshal.Stream

/-!
# The reference table

The slots whose values are not complete are those of the values that are open, from the innermost to
the outermost. A slot with a complete value keeps it, and every reference inside a stored value
names a slot whose value can hold itself.
-/

namespace CodeScope
namespace Value

mutual

/-- The slots that the references inside a value name. -/
def references : Value → List UInt32
  | reference slot => [slot]
  | tuple items | list items | set items | frozenSet items => referencesAll items
  | dict entries => referencesEntries entries
  | code _ consts => referencesAll consts
  | _ => []

/-- The slots that the references inside values name. -/
def referencesAll : List Value → List UInt32
  | [] => []
  | value :: rest => value.references ++ referencesAll rest

/-- The slots that the references inside keys and values name. -/
def referencesEntries : List (Value × Value) → List UInt32
  | [] => []
  | (key, value) :: rest => key.references ++ value.references ++ referencesEntries rest

end

/-- Whether a value can hold a reference to itself. -/
def canHoldItself : Value → Bool
  | list _ | set _ | dict _ => true
  | _ => false

/-- Whether a value is nothing but a reference. -/
def isReference : Value → Bool
  | reference _ => true
  | _ => false

/-- A value whose references all name slots that satisfy a property. -/
def RefersWithin (allowed : Nat → Prop) (value : Value) : Prop :=
  ∀ slot ∈ value.references, allowed slot.toNat

theorem mem_referencesAll {slot : UInt32} {values : List Value} :
    slot ∈ referencesAll values ↔ ∃ value ∈ values, slot ∈ value.references := by
  induction values with
  | nil => simp [referencesAll]
  | cons value rest induction => simp [referencesAll, induction]

theorem mem_referencesEntries {slot : UInt32} {entries : List (Value × Value)} :
    slot ∈ referencesEntries entries ↔
      ∃ entry ∈ entries, slot ∈ entry.1.references ∨ slot ∈ entry.2.references := by
  induction entries with
  | nil => simp [referencesEntries]
  | cons entry rest induction => simp [referencesEntries, induction, or_assoc]

end Value

namespace ReaderState

/-- The state after the next slot is reserved. -/
def reserved (state : ReaderState) : ReaderState :=
  { state with slots := state.slots.push .pending }

/-- The state after something is put into a slot. -/
def withSlot (state : ReaderState) (index : Nat) (slot : Slot) : ReaderState :=
  { state with slots := state.slots.setIfInBounds index slot }

/-- A slot that a reference inside a value may name: its value can hold itself. -/
def Shared (state : ReaderState) (index : Nat) : Prop :=
  state.slots[index]? = some .filling ∨
    ∃ value, state.slots[index]? = some (.ready value) ∧ value.canHoldItself = true

/-- What stays true of a reference table from one state to a later one. -/
structure Extends (later earlier : ReaderState) : Prop where
  ready : ∀ {index : Nat} {value : Value},
    earlier.slots[index]? = some (.ready value) → later.slots[index]? = some (.ready value)
  shared : ∀ {index : Nat}, earlier.Shared index → later.Shared index

namespace Extends

variable {first second third : ReaderState}

theorem ofSlots (same : second.slots = first.slots) : second.Extends first := by
  constructor
  · intro index value stored
    rw [same]
    exact stored
  · intro index shared
    simpa only [Shared, same] using shared

theorem trans (later : third.Extends second) (earlier : second.Extends first) :
    third.Extends first := by
  constructor
  · intro index value stored
    exact later.ready (earlier.ready stored)
  · intro index shared
    exact later.shared (earlier.shared shared)

theorem reserved (state : ReaderState) : state.reserved.Extends state := by
  have kept : ∀ {index : Nat} {slot : Slot}, state.slots[index]? = some slot →
      state.reserved.slots[index]? = some slot := by
    intro index slot stored
    obtain ⟨inside, -⟩ := Array.getElem?_eq_some_iff.mp stored
    rw [ReaderState.reserved, Array.getElem?_push, if_neg (Nat.ne_of_lt inside), stored]
  constructor
  · intro index value stored
    exact kept stored
  · intro index shared
    rcases shared with filling | ⟨value, stored, holds⟩
    · exact .inl (kept filling)
    · exact .inr ⟨value, kept stored, holds⟩

end Extends

/--
A reference table in which exactly the slots of a stack are not complete. Each of them comes with
whether its value can be referred to.
-/
structure Balanced (state : ReaderState) (stack : List (Option Nat × Bool)) : Prop where
  filling : ∀ index, state.slots[index]? = some .filling ↔ (some index, true) ∈ stack
  pending : ∀ index, state.slots[index]? = some .pending ↔ (some index, false) ∈ stack
  distinct : (stack.filterMap Prod.fst).Nodup

/-- A reference table whose values hold no reference to a slot that cannot be shared. -/
structure Sound (state : ReaderState) : Prop where
  refers : ∀ {index : Nat} {value : Value},
    state.slots[index]? = some (.ready value) → value.RefersWithin state.Shared
  direct : ∀ {index : Nat} {value : Value},
    state.slots[index]? = some (.ready value) → value.isReference = false

variable {state next : ReaderState} {stack : List (Option Nat × Bool)} {index : Nat} {shared : Bool}

theorem Balanced.ofSlots (balanced : state.Balanced stack) (same : next.slots = state.slots) :
    next.Balanced stack := by
  constructor
  · intro index
    rw [same, balanced.filling]
  · intro index
    rw [same, balanced.pending]
  · exact balanced.distinct

/-- A later table without new values is as sound as the earlier one. -/
theorem Sound.ofExtends (sound : state.Sound) (extended : next.Extends state)
    (stored : ∀ {index : Nat} {value : Value}, next.slots[index]? = some (.ready value) →
      state.slots[index]? = some (.ready value)) : next.Sound := by
  constructor
  · intro index value complete slot member
    have before := sound.refers (stored complete) slot member
    exact extended.shared before
  · intro index value complete
    exact sound.direct (stored complete)

theorem Sound.ofSlots (sound : state.Sound) (same : next.slots = state.slots) : next.Sound := by
  apply sound.ofExtends (.ofSlots same)
  intro index value stored
  rw [same] at stored
  exact stored

theorem balanced_none : state.Balanced ((none, shared) :: stack) ↔ state.Balanced stack := by
  constructor
  · intro balanced
    exact ⟨by simpa using balanced.filling, by simpa using balanced.pending, balanced.distinct⟩
  · intro balanced
    exact ⟨by simpa using balanced.filling, by simpa using balanced.pending, balanced.distinct⟩

/-- An open slot is inside the table. -/
theorem Balanced.lt_size (balanced : state.Balanced stack) (member : (some index, shared) ∈ stack) :
    index < state.slots.size := by
  cases shared with
  | true => exact (Array.getElem?_eq_some_iff.mp ((balanced.filling index).mpr member)).1
  | false => exact (Array.getElem?_eq_some_iff.mp ((balanced.pending index).mpr member)).1

theorem Balanced.reserved (balanced : state.Balanced stack) :
    state.reserved.Balanced ((some state.slots.size, false) :: stack) := by
  have fresh : ∀ shared, (some state.slots.size, shared) ∉ stack := by
    intro shared member
    exact Nat.lt_irrefl _ (balanced.lt_size member)
  constructor
  · intro index
    rw [ReaderState.reserved, Array.getElem?_push]
    by_cases equal : index = state.slots.size
    · subst equal
      simp [fresh]
    · rw [if_neg equal, balanced.filling]
      simp [equal]
  · intro index
    rw [ReaderState.reserved, Array.getElem?_push]
    by_cases equal : index = state.slots.size
    · subst equal
      simp
    · rw [if_neg equal, balanced.pending]
      simp [equal]
  · rw [List.filterMap_cons, List.nodup_cons]
    refine ⟨?_, balanced.distinct⟩
    intro member
    obtain ⟨⟨slot, shared⟩, listed, equal⟩ := List.mem_filterMap.mp member
    simp only at equal
    subst equal
    exact fresh shared listed

theorem Sound.reserved (sound : state.Sound) : state.reserved.Sound := by
  apply sound.ofExtends (.reserved state)
  intro index value stored
  rw [ReaderState.reserved, Array.getElem?_push] at stored
  split at stored
  · simp at stored
  · exact stored

section Own

variable {own : Nat} {value : Value}

theorem getElem?_withSlot (inside : own < state.slots.size) (slot : Slot) (index : Nat) :
    (state.withSlot own slot).slots[index]? =
      if own = index then some slot else state.slots[index]? := by
  rw [withSlot, Array.getElem?_setIfInBounds]
  by_cases equal : own = index
  · rw [if_pos equal, if_pos equal, if_pos inside]
  · rw [if_neg equal, if_neg equal]

/-- The slot of an open value is not that of another one. -/
theorem Balanced.not_mem (balanced : state.Balanced ((some own, shared) :: stack)) (other : Bool) :
    (some own, other) ∉ stack := by
  intro member
  have distinct := balanced.distinct
  rw [List.filterMap_cons, List.nodup_cons] at distinct
  exact distinct.1 (List.mem_filterMap.mpr ⟨(some own, other), member, rfl⟩)

theorem Balanced.not_ready (balanced : state.Balanced ((some own, shared) :: stack))
    (value : Value) :
    state.slots[own]? ≠ some (.ready value) := by
  intro stored
  cases shared with
  | true =>
      have filling := (balanced.filling own).mpr List.mem_cons_self
      rw [stored] at filling
      simp at filling
  | false =>
      have pending := (balanced.pending own).mpr List.mem_cons_self
      rw [stored] at pending
      simp at pending

theorem Balanced.fill (balanced : state.Balanced ((some own, shared) :: stack)) :
    (state.withSlot own .filling).Balanced ((some own, true) :: stack) := by
  have inside := balanced.lt_size List.mem_cons_self
  constructor
  · intro index
    rw [getElem?_withSlot inside]
    by_cases equal : own = index
    · subst equal
      simp
    · rw [if_neg equal, balanced.filling]
      simp [Ne.symm equal]
  · intro index
    rw [getElem?_withSlot inside]
    by_cases equal : own = index
    · subst equal
      simp [balanced.not_mem]
    · rw [if_neg equal, balanced.pending]
      simp [Ne.symm equal]
  · exact balanced.distinct

theorem Balanced.complete (balanced : state.Balanced ((some own, shared) :: stack)) :
    (state.withSlot own (.ready value)).Balanced stack := by
  have inside := balanced.lt_size List.mem_cons_self
  constructor
  · intro index
    rw [getElem?_withSlot inside]
    by_cases equal : own = index
    · subst equal
      simp [balanced.not_mem]
    · rw [if_neg equal, balanced.filling]
      simp [Ne.symm equal]
  · intro index
    rw [getElem?_withSlot inside]
    by_cases equal : own = index
    · subst equal
      simp [balanced.not_mem]
    · rw [if_neg equal, balanced.pending]
      simp [Ne.symm equal]
  · have distinct := balanced.distinct
    rw [List.filterMap_cons, List.nodup_cons] at distinct
    exact distinct.2

theorem Extends.fill (balanced : state.Balanced ((some own, shared) :: stack)) :
    (state.withSlot own .filling).Extends state := by
  have inside := balanced.lt_size List.mem_cons_self
  constructor
  · intro index value stored
    rw [getElem?_withSlot inside]
    by_cases equal : own = index
    · subst equal
      exact absurd stored (balanced.not_ready value)
    · rw [if_neg equal, stored]
  · intro index before
    rw [Shared, getElem?_withSlot inside]
    by_cases equal : own = index
    · rw [if_pos equal]
      exact .inl rfl
    · rw [if_neg equal]
      exact before

/-- A slot that a reference may name gets a value that can hold itself. -/
theorem Extends.complete (balanced : state.Balanced ((some own, shared) :: stack))
    (holds : shared = true → value.canHoldItself = true) :
    (state.withSlot own (.ready value)).Extends state := by
  have inside := balanced.lt_size List.mem_cons_self
  constructor
  · intro index stored complete
    rw [getElem?_withSlot inside]
    by_cases equal : own = index
    · subst equal
      exact absurd complete (balanced.not_ready stored)
    · rw [if_neg equal, complete]
  · intro index before
    rw [Shared, getElem?_withSlot inside]
    by_cases equal : own = index
    · subst equal
      rw [if_pos rfl]
      rcases before with filling | ⟨stored, complete, -⟩
      · have isShared : shared = true := by
          have member := (balanced.filling own).mp filling
          rcases List.mem_cons.mp member with first | others
          · exact (congrArg Prod.snd first).symm
          · exact absurd others (balanced.not_mem true)
        exact .inr ⟨value, rfl, holds isShared⟩
      · exact absurd complete (balanced.not_ready stored)
    · rw [if_neg equal]
      exact before

theorem Sound.fill (sound : state.Sound) (balanced : state.Balanced ((some own, shared) :: stack)) :
    (state.withSlot own .filling).Sound := by
  have inside := balanced.lt_size List.mem_cons_self
  apply sound.ofExtends (.fill balanced)
  intro index value stored
  rw [getElem?_withSlot inside] at stored
  split at stored
  · simp at stored
  · exact stored

theorem Sound.complete (sound : state.Sound)
    (balanced : state.Balanced ((some own, shared) :: stack))
    (holds : shared = true → value.canHoldItself = true)
    (refers : value.RefersWithin state.Shared) (direct : value.isReference = false) :
    (state.withSlot own (.ready value)).Sound := by
  have inside := balanced.lt_size List.mem_cons_self
  have extended := Extends.complete balanced holds
  constructor
  · intro index stored complete slot member
    apply extended.shared
    rw [getElem?_withSlot inside] at complete
    split at complete
    · simp only [Option.some.injEq, Slot.ready.injEq] at complete
      subst complete
      exact refers slot member
    · exact sound.refers complete slot member
  · intro index stored complete
    rw [getElem?_withSlot inside] at complete
    split at complete
    · simp only [Option.some.injEq, Slot.ready.injEq] at complete
      subst complete
      exact direct
    · exact sound.direct complete

end Own

end ReaderState
end CodeScope

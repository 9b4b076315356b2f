import CodeScope.Proofs.Marshal.Composition
import CodeScope.Proofs.Marshal.Session

/-!
# The depth of a reader

The counter of a reader goes up with every level and down again where it ends, with a value or with
an error. So it is where it was after every value, and what it leaves of the limit are the levels
that the value inside may still have.
-/

namespace CodeScope
namespace Reading

variable {α β : Type} {state : ReaderState}

/-- The state in which a part of a reader ends, with a result or with an error. -/
def endState (part : Reading α) (state : ReaderState) : ReaderState :=
  match part state with
  | .ok _ next => next
  | .error _ next => next

/-- A part of a reader that ends at the depth at which it has begun. -/
def KeepsDepth (part : Reading α) : Prop :=
  ∀ state, (part.endState state).depth = state.depth

namespace KeepsDepth

theorem ofOk {part : Reading α} {next : ReaderState} {value : α} (keeps : part.KeepsDepth)
    (read : part state = .ok value next) : next.depth = state.depth := by
  rw [← keeps state, endState, read]

theorem ofError {part : Reading α} {next : ReaderState} {error : Error} (keeps : part.KeepsDepth)
    (failed : part state = .error error next) : next.depth = state.depth := by
  rw [← keeps state, endState, failed]

theorem bind {part : Reading α} {after : α → Reading β} (first : part.KeepsDepth)
    (second : ∀ value, (after value).KeepsDepth) : (part >>= after).KeepsDepth := by
  intro state
  cases read : part state with
  | ok value next =>
      rw [endState, bind_of_ok read, ← first.ofOk read, ← second value next, endState]
  | error error next =>
      rw [endState, bind_of_error read]
      exact first.ofError read

theorem nested {part : Reading α} (keeps : part.KeepsDepth) : (Reading.nested part).KeepsDepth := by
  intro state
  rw [endState, nested_eq_endLevel]
  cases read : part { state with depth := state.depth + 1 } with
  | ok value next => exact congrArg Nat.pred (keeps.ofOk read)
  | error error next => exact congrArg Nat.pred (keeps.ofError read)

theorem compositional : Compositional KeepsDepth where
  pure value := fun state => rfl
  fail error := fun state => rfl
  bind := bind
  choice keeps := fun state => keeps state state
  nested := nested
  bytes count := fun state => by
    rw [endState, scan]
    cases Scan.bytes count state.cursor <;> rfl
  offset := fun state => rfl
  remaining := fun state => rfl
  reserve := fun state => rfl
  setSlot index slot := fun state => by cases index <;> rfl
  intern content := fun state => rfl
  resolve index := fun state => by
    cases stored : state.slots[index.toNat]? with
    | none => simp only [endState, resolve, stored]
    | some slot => cases slot <;> simp only [endState, resolve, stored]
  resolveInterned index := fun state => by
    cases stored : state.interned[index.toNat]? <;> simp only [endState, resolveInterned, stored]

end KeepsDepth

section Counter

variable {profile : Profile} {inside other : Reading (Option Value)} {depth : Nat}

/-- Parts in sequence depend on what they do at the depth at which they begin. -/
theorem bind_eq_of_depth {part same : Reading α} {after later : α → Reading β}
    (keeps : part.KeepsDepth) (first : part state = same state)
    (second : ∀ value (next : ReaderState), next.depth = state.depth →
      after value next = later value next) :
    (part >>= after) state = (same >>= later) state := by
  cases read : part state with
  | ok value next =>
      rw [bind_of_ok read, bind_of_ok (first ▸ read), second value next (keeps.ofOk read)]
  | error error next => rw [bind_of_error read, bind_of_error (first ▸ read)]

/-- All values inside a value are read at one depth. -/
theorem run_eq_of_depth (keeps : inside.KeepsDepth)
    (same : ∀ state : ReaderState, state.depth = depth → inside state = other state)
    (slot : Option Nat) (script : Script α) (level : state.depth = depth) :
    script.run inside slot state = script.run other slot state := by
  induction script generalizing state with
  | done result => rfl
  | fail error => rfl
  | takeBytes count next induction =>
      refine bind_eq_of_depth (KeepsDepth.compositional.bytes count) rfl ?_
      exact fun data next kept => induction data (kept.trans level)
  | askOffset next induction =>
      refine bind_eq_of_depth KeepsDepth.compositional.offset rfl ?_
      exact fun offset next kept => induction offset (kept.trans level)
  | askRemaining next induction =>
      refine bind_eq_of_depth KeepsDepth.compositional.remaining rfl ?_
      exact fun left next kept => induction left (kept.trans level)
  | markFilling next induction =>
      refine bind_eq_of_depth (KeepsDepth.compositional.setSlot slot .filling) rfl ?_
      exact fun _ next kept => induction (kept.trans level)
  | recordText content next induction =>
      refine bind_eq_of_depth (KeepsDepth.compositional.intern content) rfl ?_
      exact fun _ next kept => induction (kept.trans level)
  | askChild next induction =>
      refine bind_eq_of_depth keeps (same state level) ?_
      exact fun answer next kept => induction answer (kept.trans level)

theorem tagged_eq_of_depth (keeps : inside.KeepsDepth)
    (same : ∀ state : ReaderState, state.depth = depth → inside state = other state)
    (level : state.depth = depth) :
    tagged profile inside state = tagged profile other state := by
  refine bind_eq_of_depth KeepsDepth.compositional.opening rfl fun opened middle kept => ?_
  cases opened with
  | settled value => rfl
  | body form site slot =>
      have read := run_eq_of_depth keeps same slot (Script.body profile site form)
        (kept.trans level)
      exact bind_eq_of_depth (KeepsDepth.compositional.run keeps slot _) read fun _ _ _ => rfl

/-- A value, with the levels that the counter has left; nothing for the empty tag. -/
def counted (profile : Profile) : Reading (Option Value) := fun state =>
  optional profile (nestingLimit - state.depth) state

/-- The levels that are left are given by the counter alone, which is compared before each tag. -/
theorem counted_eq (profile : Profile) (state : ReaderState) :
    counted profile state =
      if nestingLimit ≤ state.depth then .error (.nestedTooDeep state.cursor.offset) state
      else nested (tagged profile (counted profile)) state := by
  split
  case isTrue ended =>
    rw [counted, Nat.sub_eq_zero_of_le ended]
    rfl
  case isFalse isLess =>
    obtain ⟨levels, left⟩ :=
      Nat.exists_eq_succ_of_ne_zero (Nat.sub_ne_zero_of_lt (Nat.lt_of_not_le isLess))
    have inner : ∀ next : ReaderState, next.depth = state.depth + 1 →
        optional profile levels next = counted profile next := by
      intro next level
      have fewer : nestingLimit - next.depth = levels := by omega
      rw [counted, fewer]
    rw [counted, left, optional, nested_eq_endLevel, nested_eq_endLevel]
    exact congrArg endLevel
      (tagged_eq_of_depth (KeepsDepth.compositional.optional profile levels) inner rfl)

end Counter

end Reading

/-- The states of a reader between calls on it, of which some may have failed. -/
inductive Call.Reaches (profile : Profile) (data : Bytes) : ReaderState → Prop
  | start : Reaches profile data (.start data)
  | call {state : ReaderState} (before : Reaches profile data state) (call : Call) :
      Reaches profile data ((call.read profile).endState state)

namespace Call

variable {profile : Profile} {data : Bytes} {state : ReaderState}

theorem keepsDepth_read (profile : Profile) (call : Call) : (call.read profile).KeepsDepth := by
  have value := Reading.KeepsDepth.compositional.value profile
  cases call with
  | value => exact value
  | topLevel =>
      refine value.bind fun value => ?_
      refine Reading.KeepsDepth.compositional.remaining.bind fun left => ?_
      split
      · exact Reading.KeepsDepth.compositional.pure _
      · exact Reading.KeepsDepth.compositional.fail _

/-- Between calls no value has been begun and not ended. -/
theorem Reaches.depth_eq (reached : Reaches profile data state) : state.depth = 0 := by
  induction reached with
  | start => rfl
  | call before call induction => rw [keepsDepth_read profile call _, induction]

end Call
end CodeScope

import CodeScope.Proofs.Marshal.Script

/-!
# Readers with fewer levels of nesting

A reader that may go less deep either does what a reader that may go deeper does, or gives up
because of the nesting.
-/

namespace CodeScope
namespace Reading

/-- A reader that does what another one does, but may give up because of the nesting. -/
def Shallower {α : Type} (shallow deep : Reading α) : Prop :=
  ∀ state, shallow state = deep state ∨
    ∃ offset next, shallow state = .error (.nestedTooDeep offset) next

namespace Shallower

variable {α β : Type} {profile : Profile}

theorem refl (part : Reading α) : Shallower part part := fun _ => .inl rfl

/-- Where both succeed they have the same result. -/
theorem eq_of_ok {shallow deep : Reading α} {state next last : ReaderState} {one other : α}
    (shallower : Shallower shallow deep) (read : shallow state = .ok one next)
    (readDeep : deep state = .ok other last) : one = other := by
  rcases shallower state with same | ⟨offset, stuck, failed⟩
  · rw [read, readDeep] at same
    cases same
    rfl
  · rw [read] at failed
    cases failed

theorem bind {shallow deep : Reading α} {shallowNext deepNext : α → Reading β}
    (first : Shallower shallow deep)
    (second : ∀ value, Shallower (shallowNext value) (deepNext value)) :
    Shallower (shallow >>= shallowNext) (deep >>= deepNext) := by
  intro state
  rcases first state with same | ⟨offset, next, failed⟩
  · cases read : deep state with
    | error error next =>
        left
        rw [bind_of_error read, bind_of_error (same.trans read)]
    | ok value next =>
        rw [bind_of_ok read, bind_of_ok (same.trans read)]
        exact second value next
  · exact .inr ⟨offset, next, bind_of_error failed⟩

theorem run {shallow deep : Reading (Option Value)} (inside : Shallower shallow deep)
    (slot : Option Nat) (script : Script α) :
    Shallower (script.run shallow slot) (script.run deep slot) := by
  induction script with
  | done result => exact refl _
  | fail error => exact refl _
  | takeBytes count next induction => exact (refl _).bind induction
  | askOffset next induction => exact (refl _).bind induction
  | askRemaining next induction => exact (refl _).bind induction
  | markFilling next induction => exact (refl _).bind fun _ => induction
  | recordText content next induction => exact (refl _).bind fun _ => induction
  | askChild next induction => exact inside.bind induction

theorem tagged {shallow deep : Reading (Option Value)} (inside : Shallower shallow deep) :
    Shallower (tagged profile shallow) (tagged profile deep) := by
  refine (refl _).bind fun opening => ?_
  cases opening with
  | settled value => exact refl _
  | body form site slot => exact (inside.run slot _).bind fun value => refl _

theorem nested {shallow deep : Reading α} (inside : Shallower shallow deep) :
    Shallower (nested shallow) (nested deep) := by
  intro state
  simp only [Reading.nested]
  rcases inside { state with depth := state.depth + 1 } with same | ⟨offset, next, failed⟩
  · exact .inl (by rw [same])
  · exact .inr ⟨offset, _, by rw [failed]⟩

/-- Levels that are missing can only make a reader give up. -/
theorem optional {few many : Nat} (fewer : few ≤ many) :
    Shallower (optional profile few) (optional profile many) := by
  induction few generalizing many with
  | zero => exact fun state => .inr ⟨state.cursor.offset, state, rfl⟩
  | succ few induction =>
      obtain ⟨many, rfl⟩ := Nat.exists_eq_succ_of_ne_zero (Nat.ne_of_gt (Nat.zero_lt_of_lt fewer))
      exact (tagged (induction (Nat.le_of_succ_le_succ fewer))).nested

end Shallower
end Reading

end CodeScope

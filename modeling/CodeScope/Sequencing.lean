/-!
# Sequencing

A computation in steps succeeds exactly if every step does, each on the result of the one before.
-/

namespace CodeScope

theorem bind_eq_ok_iff {ε α β : Type} {first : Except ε α} {next : α → Except ε β} {result : β} :
    (first >>= next) = .ok result ↔ ∃ value, first = .ok value ∧ next value = .ok result := by
  cases first with
  | error error => simp [bind, Except.bind]
  | ok value => simp [bind, Except.bind]

theorem pure_eq_ok_iff {ε α : Type} {value result : α} :
    (pure value : Except ε α) = .ok result ↔ value = result := by
  simp [pure, Except.pure]

/-- Membership that no step uses can be dropped from a sequence of steps. -/
theorem attach_mapM {ε α β : Type} (items : List α) (step : α → Except ε β) :
    (items.attach.mapM fun item => step item.1) = items.mapM step := by
  calc
    items.attach.mapM (fun item => step item.1) = (items.attach.map Subtype.val).mapM step := by
      simp
    _ = items.mapM step := by rw [List.attach_map_subtype_val]

end CodeScope

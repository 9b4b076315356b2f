import CodeScope.Sequencing
import Mathlib.Data.List.Forall2

/-!
# Sequences of steps

A step for each item of a list succeeds if all steps do, and otherwise fails as the first failing
one does.
-/

namespace CodeScope

variable {ε α β : Type} {step : α → Except ε β} {items : List α}

theorem eq_ok_of_toOption {outcome : Except ε α} {result : α}
    (succeeded : outcome.toOption = some result) : outcome = .ok result := by
  cases outcome with
  | ok value => exact congrArg Except.ok (Option.some.inj succeeded)
  | error error => cases succeeded

theorem mapError_of_ok {δ : Type} {outcome : Except ε α} {result : α} (change : ε → δ)
    (succeeded : outcome = .ok result) : outcome.mapError change = .ok result := by
  subst succeeded
  rfl

theorem mapError_of_error {δ : Type} {outcome : Except ε α} {error : ε} (change : ε → δ)
    (failed : outcome = .error error) : outcome.mapError change = .error (change error) := by
  subst failed
  rfl

theorem mapM_eq_ok_iff {results : List β} :
    items.mapM step = .ok results ↔
      List.Forall₂ (fun item result => step item = .ok result) items results := by
  induction items generalizing results with
  | nil =>
      rw [List.mapM_nil, pure_eq_ok_iff, List.forall₂_nil_left_iff]
      exact eq_comm
  | cons item items induction =>
      simp only [List.mapM_cons, bind_eq_ok_iff, pure_eq_ok_iff, List.forall₂_cons_left_iff,
        ← induction]
      constructor
      · intro ⟨result, first, others, rest, same⟩
        exact ⟨result, others, first, rest, same.symm⟩
      · intro ⟨result, others, first, rest, same⟩
        exact ⟨result, first, others, rest, same.symm⟩

/-- What steps on the items of a list always result in is what all results are. -/
theorem forall_of_mapM {results : List β} {holds : β → Prop} (whole : items.mapM step = .ok results)
    (each : ∀ item ∈ items, ∀ result, step item = .ok result → holds result) :
    ∀ result ∈ results, holds result := by
  induction mapM_eq_ok_iff.mp whole with
  | nil => simp
  | cons first others induction =>
      obtain ⟨here, later⟩ := List.forall_mem_cons.mp each
      exact List.forall_mem_cons.mpr ⟨here _ first, induction (mapM_eq_ok_iff.mpr others) later⟩

/-- Steps on some of the items have those of the results that belong to them. -/
theorem mapM_filter {results : List β} {keep : α → Bool} {kept : β → Bool}
    (whole : items.mapM step = .ok results)
    (agree : ∀ item result, step item = .ok result → kept result = keep item) :
    (items.filter keep).mapM step = .ok (results.filter kept) := by
  rw [mapM_eq_ok_iff] at whole ⊢
  refine List.rel_filter (fun item result same => ?_) whole
  simp only [agree item result same]

theorem mapM_congr {other : α → Except ε β} (same : ∀ item ∈ items, step item = other item) :
    items.mapM step = items.mapM other := by
  rw [← attach_mapM items step, ← attach_mapM items other]
  exact congrArg items.attach.mapM (funext fun item => same item.1 item.2)

theorem mapM_of_failing {before after : List α} {failing : α} {error : ε}
    (succeeded : ∀ item ∈ before, ∃ result, step item = .ok result)
    (failed : step failing = .error error) :
    (before ++ failing :: after).mapM step = .error error := by
  induction before with
  | nil =>
      rw [List.nil_append, List.mapM_cons, failed]
      rfl
  | cons item before induction =>
      obtain ⟨result, first⟩ := succeeded item List.mem_cons_self
      have others := induction fun item member => succeeded item (List.mem_cons_of_mem _ member)
      rw [List.cons_append, List.mapM_cons, first]
      simp only [bind, Except.bind, others]

theorem exists_failing_of_mapM {error : ε} (whole : items.mapM step = .error error) :
    ∃ before failing after, items = before ++ failing :: after ∧
      (∀ item ∈ before, ∃ result, step item = .ok result) ∧ step failing = .error error := by
  induction items with
  | nil => cases whole
  | cons item items induction =>
      rw [List.mapM_cons] at whole
      cases first : step item with
      | error other =>
          rw [first] at whole
          cases whole
          exact ⟨[], item, items, rfl, by simp, first⟩
      | ok value =>
          rw [first] at whole
          have others : items.mapM step = .error error := by
            cases others : items.mapM step with
            | error other =>
                rw [others] at whole
                exact whole
            | ok results =>
                rw [others] at whole
                cases whole
          obtain ⟨before, failing, after, rfl, succeeded, failed⟩ := induction others
          refine ⟨item :: before, failing, after, rfl, ?_, failed⟩
          simpa using ⟨⟨value, first⟩, succeeded⟩

theorem mapM_eq_error_iff {error : ε} :
    items.mapM step = .error error ↔
      ∃ before failing after, items = before ++ failing :: after ∧
        (∀ item ∈ before, ∃ result, step item = .ok result) ∧ step failing = .error error := by
  constructor
  · exact exists_failing_of_mapM
  · intro ⟨before, failing, after, split, succeeded, failed⟩
    rw [split]
    exact mapM_of_failing succeeded failed

theorem exists_mapM_eq_ok_iff :
    (∃ results, items.mapM step = .ok results) ↔
      ∀ item ∈ items, ∃ result, step item = .ok result := by
  constructor
  · intro ⟨results, succeeded⟩
    have each := mapM_eq_ok_iff.mp succeeded
    clear succeeded
    induction each with
    | nil => simp
    | cons first others induction =>
        intro item member
        rcases List.mem_cons.mp member with same | later
        · exact ⟨_, same ▸ first⟩
        · exact induction item later
  · intro each
    cases whole : items.mapM step with
    | ok results => exact ⟨results, rfl⟩
    | error error =>
        obtain ⟨before, failing, after, split, -, failed⟩ := mapM_eq_error_iff.mp whole
        obtain ⟨result, succeeded⟩ := each failing (by simp [split])
        rw [failed] at succeeded
        cases succeeded

end CodeScope

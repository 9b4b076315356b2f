import CodeScope.Proofs.Marshal.Composition

/-!
# What the body of a value costs

Of the body of a value its script tells what it takes at least: a byte for each value inside, and no
more than one text to be recorded. An item of a container is such a value, and a key with its value
are two.
-/

namespace CodeScope

namespace Script

variable {α β : Type}

/--
Every result of a script is accepted for the numbers of bytes and of recorded texts with which it is
reached. A value inside is known to take a byte.
-/
def Costs (accepts : Nat → Nat → α → Prop) : Script α → Nat → Nat → Prop
  | done result, taken, recorded => accepts taken recorded result
  | fail _, _, _ => True
  | takeBytes count next, taken, recorded =>
      ∀ data, (next data).Costs accepts (taken + count) recorded
  | askOffset next, taken, recorded => ∀ offset, (next offset).Costs accepts taken recorded
  | askRemaining next, taken, recorded => ∀ left, (next left).Costs accepts taken recorded
  | markFilling next, taken, recorded => next.Costs accepts taken recorded
  | recordText _ next, taken, recorded => next.Costs accepts taken (recorded + 1)
  | askChild next, taken, recorded => ∀ answer, (next answer).Costs accepts (taken + 1) recorded

/-- A script that records no text. -/
def Plain (script : Script α) : Prop :=
  ∀ taken recorded,
    script.Costs (fun reached recordedThen _ => taken ≤ reached ∧ recordedThen = recorded) taken
      recorded

namespace Costs

variable {accepts : Nat → Nat → α → Prop} {passes : Nat → Nat → β → Prop} {taken recorded : Nat}

theorem bind {script : Script α} {next : α → Script β}
    (costs : script.Costs (fun taken recorded value => (next value).Costs passes taken recorded)
      taken recorded) : (script >>= next).Costs passes taken recorded := by
  induction script generalizing taken recorded with
  | done result => exact costs
  | fail error => trivial
  | takeBytes count further induction => exact fun data => induction data (costs data)
  | askOffset further induction => exact fun offset => induction offset (costs offset)
  | askRemaining further induction => exact fun left => induction left (costs left)
  | markFilling further induction => exact induction costs
  | recordText content further induction => exact induction costs
  | askChild further induction => exact fun answer => induction answer (costs answer)

theorem weaken {script : Script α} {others : Nat → Nat → α → Prop}
    (costs : script.Costs accepts taken recorded)
    (accepted : ∀ reached recorded value, accepts reached recorded value →
      others reached recorded value) : script.Costs others taken recorded := by
  induction script generalizing taken recorded with
  | done result => exact accepted _ _ _ costs
  | fail error => trivial
  | takeBytes count further induction => exact fun data => induction data (costs data)
  | askOffset further induction => exact fun offset => induction offset (costs offset)
  | askRemaining further induction => exact fun left => induction left (costs left)
  | markFilling further induction => exact induction costs
  | recordText content further induction => exact induction costs
  | askChild further induction => exact fun answer => induction answer (costs answer)

/-- A script that records nothing first. -/
theorem after {script : Script α} {next : α → Script β} (plain : script.Plain)
    (costs : ∀ value reached, taken ≤ reached → (next value).Costs passes reached recorded) :
    (script >>= next).Costs passes taken recorded := by
  refine bind ((plain taken recorded).weaken fun reached recordedThen value ended => ?_)
  rw [ended.2]
  exact costs value reached ended.1

theorem map {script : Script α} {convert : α → β}
    (costs : script.Costs (fun reached recorded value => passes reached recorded (convert value))
      taken recorded) : (convert <$> script).Costs passes taken recorded :=
  bind costs

end Costs

namespace Plain

theorem compositional : Compositional (fun _ => True) (@Plain) where
  pure _ := fun taken _ => ⟨Nat.le_refl taken, rfl⟩
  fail _ := fun _ _ => trivial
  bind first second := fun _ recorded =>
    .after first fun value reached enough => (second value reached recorded).weaken
      fun _ _ _ ended => ⟨Nat.le_trans enough ended.1, ended.2⟩
  bytes count := fun taken _ _ => ⟨Nat.le_add_right taken count, rfl⟩

theorem required : Script.required.Plain := by
  intro taken recorded offset answer
  cases answer with
  | none => trivial
  | some value => exact ⟨Nat.le_succ taken, rfl⟩

theorem fill : Script.fill.Plain :=
  fun taken _ => ⟨Nat.le_refl taken, rfl⟩

theorem code (profile : Profile) (site : Nat) : (Script.code profile site).Plain :=
  compositional.code required (fun _ _ => trivial) profile site

end Plain

/-- A value inside takes a byte. -/
theorem costs_required (taken recorded : Nat) :
    Script.required.Costs (fun reached recordedThen _ =>
      taken + 1 ≤ reached ∧ recordedThen = recorded) taken recorded := by
  intro offset answer
  cases answer with
  | none => trivial
  | some value => exact ⟨Nat.le_refl _, rfl⟩

theorem costs_itemsAfter (count : Nat) (read : List Value) (taken recorded : Nat) :
    (timesAfter Script.required count read).Costs (fun reached recordedThen items =>
      taken + items.length ≤ reached + read.length ∧ recordedThen = recorded) taken recorded := by
  induction count generalizing read taken with
  | zero => exact ⟨Nat.le_of_eq (by rw [List.length_reverse]), rfl⟩
  | succ count induction =>
      refine .bind ((costs_required taken recorded).weaken ?_)
      intro reached recordedThen value ended
      rw [ended.2]
      refine (induction (value :: read) reached).weaken fun last recordedLast items further => ?_
      rw [List.length_cons] at further
      exact ⟨by omega, further.2⟩

theorem costs_items (count taken recorded : Nat) :
    (items count).Costs (fun reached recordedThen items =>
      taken + items.length ≤ reached ∧ recordedThen = recorded) taken recorded :=
  costs_itemsAfter count [] taken recorded

/-- A key takes a byte, its value another one, and so does the empty tag at the end. -/
theorem costs_entriesAfter (rounds : Nat) (read : List (Value × Value)) (taken recorded : Nat) :
    (entriesAfter rounds read).Costs (fun reached recordedThen entries =>
      taken + 2 * entries.length < reached + 2 * read.length ∧ recordedThen = recorded) taken
        recorded := by
  induction rounds generalizing read taken with
  | zero => exact fun offset => trivial
  | succ rounds induction =>
      intro answer
      cases answer with
      | none => exact ⟨by rw [List.length_reverse]; omega, rfl⟩
      | some key =>
          show (Script.required >>= fun value =>
            entriesAfter rounds ((key, value) :: read)).Costs _ (taken + 1) recorded
          refine .bind ((costs_required (taken + 1) recorded).weaken ?_)
          intro reached recordedThen value ended
          rw [ended.2]
          refine (induction ((key, value) :: read) reached).weaken ?_
          intro last recordedLast entries further
          rw [List.length_cons] at further
          exact ⟨by omega, further.2⟩

end Script

/-- Number of bytes that the elements of a value take at least when it is read. -/
def Value.elementBytes : Value → Nat
  | tuple items | list items | set items | frozenSet items => items.length
  | dict entries => 2 * entries.length
  | _ => 0

namespace Script

/-- Behind its tag, a value takes the bytes of its elements, and records one text at most. -/
theorem costs_body (profile : Profile) (site : TagSite) (form : BodyForm) :
    (body profile site form).Costs (fun reached recorded value =>
      value.elementBytes < reached ∧ recorded ≤ 1) 1 0 := by
  have parts := Plain.compositional
  have atom : ∀ {α : Type} {script : Script α} {convert : α → Value}, script.Plain →
      (∀ result, (convert result).elementBytes = 0) →
        ∀ reached, 1 ≤ reached → (convert <$> script).Costs (fun reached recorded value =>
          value.elementBytes < reached ∧ recorded ≤ 1) reached 0 := by
    intro α script convert plain empty reached enough
    refine .map ((plain reached 0).weaken fun last recorded result ended => ?_)
    rw [empty result]
    omega
  have items : ∀ {convert : List Value → Value},
      (∀ items, (convert items).elementBytes = items.length) → ∀ count reached, 1 ≤ reached →
        (convert <$> Script.items count).Costs (fun reached recorded value =>
          value.elementBytes < reached ∧ recorded ≤ 1) reached 0 := by
    intro convert size count reached enough
    refine .map ((costs_items count reached 0).weaken fun last recorded items ended => ?_)
    rw [size items]
    omega
  cases form with
  | int32 => exact atom parts.i32 (fun _ => rfl) 1 (Nat.le_refl 1)
  | int64 => exact atom (parts.number 8) (fun _ => rfl) 1 (Nat.le_refl 1)
  | long => exact atom (parts.long trivial) (fun _ => rfl) 1 (Nat.le_refl 1)
  | float form => exact atom (parts.float fun _ => trivial) (fun _ => rfl) 1 (Nat.le_refl 1)
  | complex form =>
      exact .after (parts.float fun _ => trivial) fun real =>
        atom (parts.float fun _ => trivial) fun _ => rfl
  | bytes => exact atom (parts.byteString trivial) (fun _ => rfl) 1 (Nat.le_refl 1)
  | text form interned =>
      refine .after (parts.text trivial form) fun content reached enough => ?_
      cases interned with
      | false => exact ⟨enough, Nat.zero_le 1⟩
      | true => exact ⟨enough, Nat.le_refl 1⟩
  | tuple short =>
      cases short with
      | true => exact .after (parts.number 1) fun size => items (fun _ => rfl) size
      | false => exact .after (parts.length trivial) fun size => items (fun _ => rfl) size
  | list | set =>
      refine .after (parts.length trivial) fun size reached enough => ?_
      exact .after Plain.fill fun _ last further =>
        items (fun _ => rfl) size last (Nat.le_trans enough further)
  | frozenSet => exact .after (parts.length trivial) fun size => items (fun _ => rfl) size
  | dict =>
      refine .after Plain.fill fun _ reached enough left => ?_
      refine .map ((costs_entriesAfter (left + 1) [] reached 0).weaken ?_)
      intro last recorded entries ended
      rw [List.length_nil] at ended
      show 2 * entries.length < last ∧ recorded ≤ 1
      omega
  | code => exact atom (Plain.code profile site.offset) (fun _ => rfl) 1 (Nat.le_refl 1)

end Script

end CodeScope

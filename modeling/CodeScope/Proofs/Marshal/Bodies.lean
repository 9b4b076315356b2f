import CodeScope.Proofs.Marshal.Fitting

/-!
# Reading the bodies of values

The script of each form of value reads the bytes that a writer gives to that form, if the values
inside are read.
-/

namespace CodeScope
namespace Writer

variable {profile : Profile} {inside : Reading (Option Value)} {slot : Option Nat}
variable {child : Spelling (Option Value)}
variable {before after : WriterState} {data : Bytes}

/-- A reader of the values that `child` spells. -/
def ReadsChildren (inside : Reading (Option Value)) (child : Spelling (Option Value)) : Prop :=
  ∀ (value : Option Value) (before : WriterState) (data : Bytes) (after : WriterState),
    child value before data after →
      Reads inside before data (·.map Value.unplaced = value.map Value.unplaced) after

/-- Nothing is spelled by no bytes at all. -/
def NeverEmpty {γ : Type} (spells : Spelling γ) : Prop :=
  ∀ (item : γ) (before : WriterState) (data : Bytes) (after : WriterState),
    spells item before data after → data ≠ []

/-- A value that is not complete before something is spelled is not complete after it. -/
def KeepsOpen {γ : Type} (spells : Spelling γ) : Prop :=
  ∀ (item : γ) (before : WriterState) (data : Bytes) (after : WriterState),
    spells item before data after →
      ∀ index : Nat, before.slots[index]? = some none → after.slots[index]? = some none

theorem Spelled.keepsOpen (keeps : KeepsOpen child) : KeepsOpen (Spelled child) := by
  intro parts before data after spelled index incomplete
  induction spelled with
  | nil state => exact incomplete
  | bytes others induction => exact induction incomplete
  | value first others induction => exact induction (keeps _ _ _ _ first index incomplete)
  | recorded others induction => exact induction incomplete

theorem Body.keepsOpen {char : Char} (keeps : KeepsOpen child) :
    KeepsOpen (Body profile child char) := by
  intro value before data after spelled
  obtain ⟨parts, -, spelled⟩ := spelled.shape
  exact Spelled.keepsOpen keeps _ _ _ _ spelled

section Children

variable (readsChildren : ReadsChildren inside child) (nonempty : NeverEmpty child)
  (keeps : KeepsOpen child)
include readsChildren nonempty keeps

/-- A script reads what is spelled for the parts that it goes along. -/
theorem reads_of_fits {α : Type} {script : Script α} {accepts : α → Prop} {parts : List Part}
    {budget : Nat} (fits : script.Fits accepts budget parts)
    (spelled : Spelled child parts before data after) (enough : data.length ≤ budget)
    (own : ∀ index, slot = some index → before.slots[index]? = some none) :
    Reads (script.run inside slot) before data accepts after := by
  -- The budget is spent on the values inside, each of which takes a byte at least.
  induction script generalizing parts budget before data with
  | done result =>
      obtain ⟨rfl, accepted⟩ := fits
      cases spelled
      exact Reads.pure accepted
  | fail error => exact fits.elim
  | takeBytes count next induction =>
      obtain ⟨taken, rest, rfl, rfl, fits⟩ := fits
      cases spelled with
      | bytes others =>
          rw [List.length_append] at enough
          refine (Reads.bytes taken before).bind ?_
          rintro read rfl
          exact induction read fits others (by omega) own
  | askOffset next induction =>
      intro reader rest follows stream
      exact induction _ (fits reader.cursor.offset) spelled enough own reader rest follows stream
  | askRemaining next induction =>
      intro reader rest follows stream
      refine induction _ (fits reader.cursor.remaining) spelled ?_ own reader rest follows stream
      rw [Cursor.remaining, stream, List.length_append]
      exact Nat.le_add_right _ _
  | markFilling next induction =>
      have reads := induction fits spelled enough own
      intro reader rest follows stream
      cases slot with
      | none => exact reads reader rest follows stream
      | some index =>
          obtain ⟨value, final, read, accepted, followsFinal, left, grown⟩ :=
            reads _ rest (follows.fill (own index rfl)) stream
          exact ⟨value, final, read, accepted, followsFinal, left, by simpa using grown⟩
  | recordText content next induction =>
      obtain ⟨rest, rfl, fits⟩ := fits
      cases spelled with
      | recorded others =>
          have reads := induction fits others enough own
          intro reader rest follows stream
          exact reads _ rest (follows.record content) stream
  | askChild next induction =>
      obtain ⟨value, rest, rfl, fits⟩ := fits
      cases spelled with
      | @value _ _ _ middle _ front back first others =>
          have positive := List.length_pos_iff.mpr (nonempty _ _ _ _ first)
          rw [List.length_append] at enough
          refine (readsChildren _ _ _ _ first).bind fun answer same => ?_
          exact induction answer (fits answer same back.length (by omega)) others (Nat.le_refl _)
            fun index isOwn => keeps _ _ _ _ first index (own index isOwn)

theorem reads_required {value : Value} (spelled : child (some value) before data after) :
    Reads (Script.required.run inside none) before data (·.SameAs value) after :=
  reads_of_fits readsChildren nonempty keeps (.required_self value) (.lastValue spelled)
    (Nat.le_refl _) (by simp)

/-- The script of a form of value reads the bytes of that form. -/
theorem reads_body {char : Char} {value : Value}
    (spelled : Body profile child char value before data after) :
    ∃ form, Tag.ofChar? char = some (.body form) ∧
      ∀ (site : TagSite) (slot : Option Nat),
        (∀ index, slot = some index → before.slots[index]? = some none) →
          Reads ((Script.body profile site form).run inside slot) before data (·.SameAs value)
            after := by
  obtain ⟨parts, shape, spelled⟩ := spelled.shape
  obtain ⟨form, named, fits⟩ := Script.fits_of_shape shape
  refine ⟨form, named, fun site slot own => ?_⟩
  exact reads_of_fits readsChildren nonempty keeps (fits site data.length) spelled
    (Nat.le_refl _) own

end Children

end Writer
end CodeScope

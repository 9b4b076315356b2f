import CodeScope.Proofs.Text.Lines
import CodeScope.Proofs.Text.Quoted
import CodeScope.Proofs.Value.Parts
import Mathlib.Logic.Relation

/-!
# Values on one line

The text of a value is on one line whatever the value holds, if the names of the code units inside
it are: a line feed in a text or in a byte string is escaped, and numbers have digits only.
-/

namespace CodeScope
namespace Decimal

theorem unbroken_positional (value : Decimal) : Unbroken value.positional := by
  have digits : '\n' ∉ value.numeral := Unbroken.ofDigits 10 value.digits (by decide) (by decide)
  have zeros : ∀ count : Nat, '\n' ∉ List.replicate count '0' := fun count member => by
    cases List.eq_of_mem_replicate member
  rw [positional]
  simp only
  split
  · refine .ofList ?_
    rw [List.mem_append]
    exact not_or.mpr ⟨digits, zeros _⟩
  · have padded : ∀ count : Nat, '\n' ∉ List.replicate count '0' ++ value.numeral := by
      intro count
      rw [List.mem_append]
      exact not_or.mpr ⟨zeros count, digits⟩
    refine .ofList ?_
    rw [List.mem_append, List.mem_cons, not_or, not_or]
    exact ⟨fun member => padded _ (List.mem_of_mem_take member), by decide,
      fun member => padded _ (List.mem_of_mem_drop member)⟩

end Decimal

namespace Binary64

variable (value : Binary64)

theorem unbroken_sign : Unbroken (if value.isNegative then "-" else "") := by
  split <;> decide

theorem unbroken_plainText : Unbroken value.plainText := by
  rw [plainText]
  split
  · decide
  · split
    · exact (unbroken_sign value).append (by decide)
    · exact (unbroken_sign value).append (Decimal.unbroken_positional _)

theorem unbroken_floatText : Unbroken value.floatText := by
  rw [floatText]
  split
  · decide
  · split
    · exact (unbroken_sign value).append (by decide)
    · split
      · split
        · exact ((unbroken_sign value).append (.nat _)).append (by decide)
        · exact unbroken_plainText value
      · exact unbroken_plainText value

theorem unbroken_complexText (real imaginary : Binary64) :
    Unbroken (complexText real imaginary) := by
  rw [complexText]
  split
  · exact (unbroken_plainText imaginary).append (by decide)
  · have sign : Unbroken (if imaginary.isNegative then "-" else "+") := by split <;> decide
    have real := unbroken_plainText real
    have imaginary := unbroken_plainText imaginary.abs
    exact ((((show Unbroken "(" by decide).append real).append sign).append imaginary).append
      (by decide)

end Binary64

namespace Value

theorem reprAll_eq_map (values : List Value) : reprAll values = values.map repr := by
  induction values with
  | nil => rfl
  | cons value rest induction => rw [reprAll, induction, List.map_cons]

theorem reprEntries_eq_map (entries : List (Value × Value)) :
    reprEntries entries = entries.map fun entry => entry.1.repr ++ ": " ++ entry.2.repr := by
  induction entries with
  | nil => rfl
  | cons entry rest induction => rw [reprEntries, induction, List.map_cons]

/-- A text between quotes has no line feed, since characters that do not show are escaped. -/
theorem unbroken_encode {ascii : Bool} {text : List Char}
    (bytes : ∀ char ∈ text, ascii = true → char.toNat < 256) :
    Unbroken (String.ofList (Quoted.encode ascii text)) := by
  refine .ofList fun member => ?_
  have shows := Quoted.shows_encode bytes '\n' member
  exact absurd shows.1 (by decide)

/-- Values between brackets, with commas between them. -/
theorem unbroken_bracketed {opening closing : String} {items : List Value}
    (opens : Unbroken opening) (closes : Unbroken closing)
    (each : ∀ item ∈ items, Unbroken item.repr) :
    Unbroken (opening ++ commaSeparated (reprAll items) ++ closing) := by
  rw [reprAll_eq_map]
  exact (opens.append (.intercalate (by decide) (List.forall_mem_map.mpr each))).append closes

/-- The text of a value is on one line if the texts of its parts are, or the name of its unit is. -/
theorem unbroken_repr_of_parts {value : Value} (named : ∀ unit ∈ value.code?, Unbroken unit.name)
    (parts : ∀ part ∈ value.parts, Unbroken part.repr) : Unbroken value.repr := by
  cases value with
  | none | stopIteration | ellipsis => decide
  | bool value => cases value <;> decide
  | int32 value => exact .int _
  | int64 value => exact .int _
  | long value => exact .int _
  | float value => exact Binary64.unbroken_floatText value
  | complex real imaginary => exact Binary64.unbroken_complexText real imaginary
  | bytes data =>
      have quoted : Unbroken (String.ofList (Quoted.encode true (Latin1.decode data))) :=
        unbroken_encode fun _ member _ => toNat_lt_of_mem_decode member
      exact (show Unbroken "b" by decide).append quoted
  | text content interned => exact unbroken_encode (by simp)
  | tuple items =>
      cases items with
      | nil => decide
      | cons first rest =>
          cases rest with
          | nil =>
              have item := parts first List.mem_cons_self
              exact ((show Unbroken "(" by decide).append item).append (by decide)
          | cons second rest => exact unbroken_bracketed (by decide) (by decide) parts
  | list items => exact unbroken_bracketed (by decide) (by decide) parts
  | dict entries =>
      have each : ∀ entry ∈ entries, Unbroken (entry.1.repr ++ ": " ++ entry.2.repr) := by
        intro entry member
        have key := parts entry.1 (mem_parts_dict.mpr ⟨entry, member, .inl rfl⟩)
        have value := parts entry.2 (mem_parts_dict.mpr ⟨entry, member, .inr rfl⟩)
        exact (key.append (by decide)).append value
      rw [repr, reprEntries_eq_map]
      have inside := Unbroken.intercalate (show Unbroken ", " by decide)
        (List.forall_mem_map.mpr each)
      exact ((show Unbroken "\x7b" by decide).append inside).append (by decide)
  | set items =>
      cases items with
      | nil => decide
      | cons first rest => exact unbroken_bracketed (by decide) (by decide) parts
  | frozenSet items =>
      cases items with
      | nil => decide
      | cons first rest => exact unbroken_bracketed (by decide) (by decide) parts
  | reference slot =>
      exact ((show Unbroken "<ref " by decide).append (.nat slot.toNat)).append (by decide)
  | code info consts =>
      have name : Unbroken info.name := named ⟨info, consts⟩ rfl
      exact ((show Unbroken "<code:" by decide).append name).append (by decide)

/-- The names of the code units that a value is or holds, at any depth, are on one line. -/
def NamesUnbroken (value : Value) : Prop :=
  ∀ unit : CodeUnit, Relation.ReflTransGen Holds value unit.toValue → Unbroken unit.name

theorem NamesUnbroken.ofParts {value : Value} (named : ∀ unit ∈ value.code?, Unbroken unit.name)
    (parts : ∀ part ∈ value.parts, part.NamesUnbroken) : value.NamesUnbroken := by
  intro unit within
  rcases within.cases_head with same | ⟨part, isPart, within⟩
  · exact named unit (code?_eq_some_iff.mpr same)
  · exact parts part isPart unit within

theorem NamesUnbroken.repr {value : Value} (named : value.NamesUnbroken) :
    Unbroken value.repr := by
  induction value using inductionOnParts with
  | step whole induction =>
      apply unbroken_repr_of_parts
      · intro unit isUnit
        rw [code?_eq_some_iff.mp isUnit] at named
        exact named unit .refl
      · intro part isPart
        exact induction part isPart fun unit within => named unit (within.head isPart)

end Value
end CodeScope

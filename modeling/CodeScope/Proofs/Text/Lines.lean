import CodeScope.Text.Columns
import CodeScope.Text.Lines

/-!
# Texts on one line

A text is on one line if it has no line feed. What is put together from such texts is on one line
too, and lines of this kind with a line feed after each are found again where the text is split.
-/

namespace CodeScope

/-- A text on one line: it has no line feed. -/
def Unbroken (text : String) : Prop :=
  '\n' ∉ text.toList

instance (text : String) : Decidable (Unbroken text) :=
  inferInstanceAs (Decidable ('\n' ∉ text.toList))

namespace Unbroken

variable {text front back : String}

theorem append (front_unbroken : Unbroken front) (back_unbroken : Unbroken back) :
    Unbroken (front ++ back) := by
  rw [Unbroken, String.toList_append, List.mem_append]
  exact not_or.mpr ⟨front_unbroken, back_unbroken⟩

theorem ofList {chars : List Char} (none : '\n' ∉ chars) : Unbroken (String.ofList chars) := by
  rw [Unbroken, String.toList_ofList]
  exact none

theorem empty : Unbroken "" :=
  List.not_mem_nil

/-- What stands between texts and the texts themselves. -/
theorem intercalate {separator : String} {texts : List String} (between : Unbroken separator)
    (unbroken : ∀ text ∈ texts, Unbroken text) : Unbroken (String.intercalate separator texts) := by
  rw [Unbroken, String.toList_intercalate]
  induction texts with
  | nil => exact List.not_mem_nil
  | cons text rest induction =>
      obtain ⟨first, others⟩ := List.forall_mem_cons.mp unbroken
      cases rest with
      | nil =>
          rw [List.map_singleton, List.intercalate_singleton]
          exact first
      | cons second rest =>
          rw [List.map_cons, List.map_cons, List.intercalate_cons_cons, List.mem_append,
            List.mem_append, not_or, not_or]
          exact ⟨⟨first, between⟩, induction others⟩

theorem ofDigits (base number : Nat) (positive : 0 < base) (small : base ≤ 10) :
    '\n' ∉ Nat.toDigits base number := by
  intro member
  have isDigit := Nat.isDigit_of_mem_toDigits positive small member
  revert isDigit
  decide

theorem nat (number : Nat) : Unbroken (toString number) :=
  ofList (ofDigits 10 number (by decide) (by decide))

theorem int (number : Int) : Unbroken (toString number) := by
  cases number with
  | ofNat number => exact nat number
  | negSucc number => exact append (show Unbroken "-" by decide) (nat (number + 1))

theorem fill (width : Nat) (text : String) : Unbroken (Columns.fill width text) := by
  apply ofList
  intro member
  cases List.eq_of_mem_replicate member

theorem left (width : Nat) (unbroken : Unbroken text) : Unbroken (Columns.left width text) :=
  unbroken.append (fill width text)

theorem right (width : Nat) (unbroken : Unbroken text) : Unbroken (Columns.right width text) :=
  (fill width text).append unbroken

end Unbroken

/-- A text without the byte of a line feed is on one line. -/
theorem unbroken_of_bytes {text : String} (bytes : (10 : UInt8) ∉ text.toByteArray.data.toList) :
    Unbroken text := by
  intro member
  apply bytes
  rw [← String.utf8Encode_toList, List.utf8Encode, List.data_toByteArray, List.toList_toArray,
    List.mem_flatMap]
  exact ⟨'\n', member, by decide⟩

/-- Lines with a line feed after each are the pieces between the line feeds. -/
theorem splitOn_unlines {lines : List String} (unbroken : ∀ line ∈ lines, Unbroken line) :
    (unlines lines).toList.splitOn '\n' = lines.map String.toList ++ [[]] := by
  have joined : (unlines lines).toList = ['\n'].intercalate (lines.map String.toList ++ [[]]) := by
    rw [unlines, String.toList_join]
    clear unbroken
    induction lines with
    | nil => rfl
    | cons line rest induction =>
        rw [List.map_cons, List.flatMap_cons, induction, String.toList_append, List.map_cons,
          List.cons_append]
        cases rest <;> exact List.intercalate_cons_cons.symm
  rw [joined]
  refine List.splitOn_intercalate '\n' ?_ (List.append_ne_nil_of_right_ne_nil _ (by simp))
  rw [List.forall_mem_append, List.forall_mem_map, List.forall_mem_singleton]
  exact ⟨unbroken, List.not_mem_nil⟩

end CodeScope

import CodeScope.Value.Basic

/-!
# Parts of values

The values directly inside a value, and induction from the parts of a value to the value. A change
of the versions that code units are of leaves everything else of a value as it is.
-/

namespace CodeScope

theorem CodeUnit.toValue_injective : Function.Injective CodeUnit.toValue := by
  intro unit other same
  exact Option.some.inj (congrArg Value.code? same)

namespace Value

theorem code?_eq_some_iff {value : Value} {unit : CodeUnit} :
    value.code? = some unit ↔ value = unit.toValue := by
  constructor
  · intro isUnit
    cases value with
    | code info consts =>
        cases isUnit
        rfl
    | _ => cases isUnit
  · intro same
    subst same
    rfl

/-- The values directly inside a value: its items, its keys and values, or its constants. -/
def parts : Value → List Value
  | tuple items | list items | set items | frozenSet items => items
  | dict entries => entries.flatMap fun entry => [entry.1, entry.2]
  | code _ consts => consts
  | _ => []

/-- A value has another one directly inside it. -/
def Holds (whole part : Value) : Prop :=
  part ∈ whole.parts

theorem mem_parts_dict {entries : List (Value × Value)} {part : Value} :
    part ∈ (dict entries).parts ↔ ∃ entry ∈ entries, part = entry.1 ∨ part = entry.2 := by
  simp [parts]

theorem sizeOf_lt_of_mem_parts {whole part : Value} (member : part ∈ whole.parts) :
    sizeOf part < sizeOf whole := by
  cases whole with
  | tuple items | list items | set items | frozenSet items =>
      have smaller := List.sizeOf_lt_of_mem (show part ∈ items from member)
      simp only [tuple.sizeOf_spec, list.sizeOf_spec, set.sizeOf_spec, frozenSet.sizeOf_spec]
      omega
  | dict entries =>
      obtain ⟨entry, listed, isPart⟩ := mem_parts_dict.mp member
      have smaller := List.sizeOf_lt_of_mem listed
      have split : sizeOf entry = 1 + sizeOf entry.1 + sizeOf entry.2 := rfl
      rw [dict.sizeOf_spec]
      rcases isPart with rfl | rfl <;> omega
  | code info consts =>
      have smaller := List.sizeOf_lt_of_mem (show part ∈ consts from member)
      rw [code.sizeOf_spec]
      omega
  | _ => cases member

/-- What holds of a value if it holds of its parts holds of every value. -/
theorem inductionOnParts {motive : Value → Prop} (value : Value)
    (step : ∀ whole : Value, (∀ part ∈ whole.parts, motive part) → motive whole) : motive value :=
  step value fun part _ => inductionOnParts part step
termination_by sizeOf value
decreasing_by exact sizeOf_lt_of_mem_parts ‹_›

mutual

/-- A value whose code units are said to be of other versions. -/
def relabel (change : Version → Version) : Value → Value
  | tuple items => tuple (relabelAll change items)
  | list items => list (relabelAll change items)
  | dict entries => dict (relabelEntries change entries)
  | set items => set (relabelAll change items)
  | frozenSet items => frozenSet (relabelAll change items)
  | code info consts =>
      code { info with version := change info.version } (relabelAll change consts)
  | value => value

/-- Values whose code units are said to be of other versions. -/
def relabelAll (change : Version → Version) : List Value → List Value
  | [] => []
  | value :: rest => value.relabel change :: relabelAll change rest

/-- Entries whose code units are said to be of other versions. -/
def relabelEntries (change : Version → Version) : List (Value × Value) → List (Value × Value)
  | [] => []
  | (key, value) :: rest =>
      (key.relabel change, value.relabel change) :: relabelEntries change rest

end

variable {change : Version → Version}

theorem relabelAll_eq_map (values : List Value) :
    relabelAll change values = values.map (relabel change) := by
  induction values with
  | nil => rfl
  | cons value rest induction => rw [relabelAll, induction, List.map_cons]

theorem relabelEntries_eq_map (entries : List (Value × Value)) :
    relabelEntries change entries =
      entries.map fun entry => (entry.1.relabel change, entry.2.relabel change) := by
  induction entries with
  | nil => rfl
  | cons entry rest induction => rw [relabelEntries, induction, List.map_cons]

/-- A value that is no code unit and has no parts is the same for all versions. -/
theorem relabel_of_atom {value : Value} (atom : value.parts = [])
    (plain : value.code? = Option.none) : value.relabel change = value := by
  cases value with
  | tuple items | list items | set items | frozenSet items =>
      have empty : items = [] := atom
      subst empty
      rfl
  | dict entries =>
      cases entries with
      | nil => rfl
      | cons entry rest => cases atom
  | code info consts => cases plain
  | _ => rfl

theorem map_relabel_id {values : List Value}
    (same : ∀ value ∈ values, value.relabel id = value) : values.map (relabel id) = values :=
  (List.map_congr_left same).trans (List.map_id values)

theorem relabel_id (value : Value) : value.relabel id = value := by
  induction value using inductionOnParts with
  | step whole induction =>
      cases whole with
      | tuple items | list items | set items | frozenSet items =>
          have same : items.map (relabel id) = items := map_relabel_id induction
          rw [relabel, relabelAll_eq_map, same]
      | code info consts =>
          have same : consts.map (relabel id) = consts := map_relabel_id induction
          rw [relabel, relabelAll_eq_map, same]
          rfl
      | dict entries =>
          have same : ∀ entry ∈ entries, (entry.1.relabel id, entry.2.relabel id) = entry := by
            intro entry member
            rw [induction entry.1 (mem_parts_dict.mpr ⟨entry, member, .inl rfl⟩),
              induction entry.2 (mem_parts_dict.mpr ⟨entry, member, .inr rfl⟩)]
          rw [relabel, relabelEntries_eq_map, List.map_congr_left same, List.map_id' entries]
      | _ => rfl

end Value
end CodeScope

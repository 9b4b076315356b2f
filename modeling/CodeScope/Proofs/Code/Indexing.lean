import CodeScope.Code.Locals

/-!
# Indices of variables

Every table of variable names is drawn, in order, from the places that an index can stand for.
Where each kind of variable has a table of its own, free variables stand behind the cell variables.
Where all kinds share one table, a kind is drawn from the slots whose kind byte has its bit, so that
a variable of several kinds is drawn for each of them.
-/

namespace CodeScope

namespace VariableKind

/-- The names of the variables of a kind. -/
def table : VariableKind → Locals → List String
  | localVar => Locals.varnames
  | cell => Locals.cellvars
  | free => Locals.freevars

/-- The name that an index stands for where variables of a kind are meant. -/
def lookup : VariableKind → Locals → Nat → Option String
  | localVar => Locals.local?
  | cell | free => Locals.free?

end VariableKind

namespace Locals

variable {kind : VariableKind} {names : List String} {kinds : Bytes}

/-- The slots that have both a name and a kind byte with the bit of a kind. -/
def slotsOfKind (kind : VariableKind) (names : List String) (kinds : Bytes) : List Nat :=
  (List.range (min names.length kinds.length)).filter fun slot => kinds[slot]?.any kind.isIn

theorem mem_slotsOfKind {slot : Nat} :
    slot ∈ slotsOfKind kind names kinds ↔
      slot < names.length ∧ ∃ byte, kinds[slot]? = some byte ∧ kind.isIn byte = true := by
  rw [slotsOfKind, List.mem_filter, List.mem_range, Nat.lt_min, Option.any_eq_true]
  constructor
  · intro ⟨⟨named, _⟩, marked⟩
    exact ⟨named, marked⟩
  · intro ⟨named, byte, listed, marked⟩
    obtain ⟨inside, _⟩ := List.getElem?_eq_some_iff.mp listed
    exact ⟨⟨named, inside⟩, byte, listed, marked⟩

theorem pairwise_slotsOfKind : (slotsOfKind kind names kinds).Pairwise (· < ·) :=
  List.pairwise_lt_range.filter _

theorem slotsOfKind_cons (name : String) (byte : UInt8) :
    slotsOfKind kind (name :: names) (byte :: kinds) =
      (if kind.isIn byte then [0] else []) ++ (slotsOfKind kind names kinds).map (· + 1) := by
  have shorter : min (name :: names).length (byte :: kinds).length =
      min names.length kinds.length + 1 := by
    simp only [List.length_cons]
    omega
  have first : (byte :: kinds)[0]?.any kind.isIn = kind.isIn byte := rfl
  rw [slotsOfKind, shorter, List.range_succ_eq_map, List.filter_cons, List.filter_map, first]
  cases kind.isIn byte <;> rfl

theorem ofKind_cons (name : String) (byte : UInt8) :
    ofKind kind (name :: names) (byte :: kinds) =
      (if kind.isIn byte then [name] else []) ++ ofKind kind names kinds := by
  rw [ofKind, List.zip_cons_cons, List.filterMap_cons]
  simp only
  cases kind.isIn byte <;> rfl

/-- The names of a kind are those of its slots. -/
theorem map_some_ofKind (kind : VariableKind) (names : List String) (kinds : Bytes) :
    (ofKind kind names kinds).map some = (slotsOfKind kind names kinds).map (names[·]?) := by
  induction names generalizing kinds with
  | nil => simp [ofKind, slotsOfKind]
  | cons name names induction =>
      cases kinds with
      | nil => simp [ofKind, slotsOfKind]
      | cons byte kinds =>
          rw [ofKind_cons, slotsOfKind_cons, List.map_append, List.map_append, List.map_map,
            induction kinds]
          cases kind.isIn byte <;> rfl

/-- The place from which a variable of a kind is drawn. -/
def indexOf (locals : Locals) (kind : VariableKind) (position : Nat) : Nat :=
  match locals, kind with
  | split _ _ _, .localVar => position
  | split _ _ _, .cell => position
  | split _ cellvars _, .free => cellvars.length + position
  | unified names kinds, kind => (slotsOfKind kind names kinds).getD position 0

theorem length_slotsOfKind :
    (slotsOfKind kind names kinds).length = (ofKind kind names kinds).length := by
  have same := congrArg List.length (map_some_ofKind kind names kinds)
  rw [List.length_map, List.length_map] at same
  exact same.symm

theorem table_unified (kind : VariableKind) (names : List String) (kinds : Bytes) :
    kind.table (unified names kinds) = ofKind kind names kinds := by
  cases kind <;> rfl

theorem lookup_unified (kind : VariableKind) (names : List String) (kinds : Bytes) (index : Nat) :
    kind.lookup (unified names kinds) index = names[index]? := by
  cases kind <;> rfl

theorem indexOf_unified {position : Nat}
    (inside : position < (slotsOfKind kind names kinds).length) :
    indexOf (unified names kinds) kind position = (slotsOfKind kind names kinds)[position] := by
  rw [indexOf, List.getD_eq_getElem?_getD, List.getElem?_eq_getElem inside, Option.getD_some]

variable {locals : Locals}

/-- Later variables of a table have greater indices. -/
theorem indexOf_lt_indexOf (kind : VariableKind) {first second : Nat} (before : first < second)
    (inside : second < (kind.table locals).length) :
    locals.indexOf kind first < locals.indexOf kind second := by
  cases locals with
  | split varnames cellvars freevars =>
      cases kind with
      | localVar | cell => exact before
      | free => exact Nat.add_lt_add_left before cellvars.length
  | unified names kinds =>
      rw [table_unified, ← length_slotsOfKind] at inside
      rw [indexOf_unified (Nat.lt_trans before inside), indexOf_unified inside]
      exact List.pairwise_iff_getElem.mp pairwise_slotsOfKind first second _ inside before

/-- The index of a variable stands for its name. -/
theorem lookup_indexOf (kind : VariableKind) {position : Nat}
    (inside : position < (kind.table locals).length) :
    kind.lookup locals (locals.indexOf kind position) = some (kind.table locals)[position] := by
  cases locals with
  | split varnames cellvars freevars =>
      cases kind with
      | localVar => exact List.getElem?_eq_getElem inside
      | cell =>
          have listed : cellvars[position]? = some cellvars[position] :=
            List.getElem?_eq_getElem inside
          exact (List.getElem?_append_left inside).trans listed
      | free =>
          have listed : freevars[position]? = some freevars[position] :=
            List.getElem?_eq_getElem inside
          calc
            (cellvars ++ freevars)[cellvars.length + position]? = freevars[position]? := by
              rw [List.getElem?_append_right (Nat.le_add_right _ _), Nat.add_sub_cancel_left]
            _ = some freevars[position] := listed
  | unified names kinds =>
      have inTable : position < (ofKind kind names kinds).length := by
        rwa [table_unified] at inside
      have inSlots : position < (slotsOfKind kind names kinds).length := by
        rwa [length_slotsOfKind]
      have same := congrArg (·[position]?) (map_some_ofKind kind names kinds)
      simp only [List.getElem?_map, List.getElem?_eq_getElem inTable,
        List.getElem?_eq_getElem inSlots, Option.map_some, Option.some.injEq] at same
      rw [lookup_unified, indexOf_unified inSlots, ← same]
      simp only [table_unified]

/-- In a shared table the indices of a kind are the slots whose kind byte has its bit. -/
theorem exists_indexOf_eq_iff {slot : Nat} :
    (∃ position < (kind.table (unified names kinds)).length,
        indexOf (unified names kinds) kind position = slot) ↔
      slot < names.length ∧ ∃ byte, kinds[slot]? = some byte ∧ kind.isIn byte = true := by
  rw [← mem_slotsOfKind, List.mem_iff_getElem, table_unified, ← length_slotsOfKind]
  constructor
  · intro ⟨position, inside, same⟩
    exact ⟨position, inside, indexOf_unified inside ▸ same⟩
  · intro ⟨position, inside, same⟩
    exact ⟨position, inside, (indexOf_unified inside).trans same⟩

/-- A function that gives the index of every name of a table by its position. -/
structure Draws (table : List String) (lookup : Nat → Option String) (index : Nat → Nat) :
    Prop where
  /-- Later names have greater indices. -/
  increasing : ∀ {first second : Nat}, first < second → second < table.length →
    index first < index second
  /-- The index of a name stands for it. -/
  named : ∀ {position : Nat} (inside : position < table.length),
    lookup (index position) = some table[position]

/-- A slot that has both a name and a kind byte in which a bit is set. -/
def Marked (names : List String) (kinds : Bytes) (bit slot : Nat) : Prop :=
  slot < names.length ∧ ∃ byte, kinds[slot]? = some byte ∧ byte.toNat.testBit bit = true

/--
Which names indices stand for, where `index` gives the index of every variable of a table by its
kind and its position in the table.
-/
structure IsIndexedBy (locals : Locals) (index : VariableKind → Nat → Nat) : Prop where
  /-- Local variables are found by their indices. -/
  varnames : Draws locals.varnames locals.local? (index .localVar)
  /-- So are cell variables. -/
  cellvars : Draws locals.cellvars locals.free? (index .cell)
  /-- So are free variables. -/
  freevars : Draws locals.freevars locals.free? (index .free)
  /-- Where each kind has a table, free variables stand behind the cell variables. -/
  split : ∀ {varnames cellvars freevars : List String},
    locals = .split varnames cellvars freevars →
      (locals.varnames = varnames ∧ locals.cellvars = cellvars ∧ locals.freevars = freevars) ∧
      (∀ position, index .localVar position = position ∧ index .cell position = position ∧
        index .free position = locals.cellvars.length + position) ∧
      (List.range (locals.cellvars.length + locals.freevars.length)).map locals.free? =
        (locals.cellvars ++ locals.freevars).map some ∧
      ∀ {index : Nat}, locals.cellvars.length + locals.freevars.length ≤ index →
        locals.free? index = none
  /-- Where kinds share a table, bits 5, 6 and 7 mark local, cell and free variables. -/
  unified : ∀ {names : List String} {kinds : Bytes}, locals = .unified names kinds →
    (∀ index, locals.local? index = locals.free? index) ∧
    ∀ slot,
      ((∃ position < locals.varnames.length, index .localVar position = slot) ↔
        Marked names kinds 5 slot) ∧
      ((∃ position < locals.cellvars.length, index .cell position = slot) ↔
        Marked names kinds 6 slot) ∧
      ((∃ position < locals.freevars.length, index .free position = slot) ↔
        Marked names kinds 7 slot)

/-- All tables of all variables are indexed. -/
theorem exists_isIndexedBy (locals : Locals) : ∃ index, locals.IsIndexedBy index := by
  have draws : ∀ kind : VariableKind,
      Draws (kind.table locals) (kind.lookup locals) (locals.indexOf kind) :=
    fun kind => ⟨indexOf_lt_indexOf kind, lookup_indexOf kind⟩
  refine ⟨locals.indexOf, draws .localVar, draws .cell, draws .free, ?split, ?unified⟩
  case split =>
    rintro varnames cellvars freevars rfl
    refine ⟨⟨rfl, rfl, rfl⟩, fun position => ⟨rfl, rfl, rfl⟩, ?_, fun behind => ?_⟩
    · apply List.ext_getElem
      · simp [Locals.cellvars, Locals.freevars]
      · intro index inside _
        rw [List.length_map, List.length_range, ← List.length_append] at inside
        rw [List.getElem_map, List.getElem_map, List.getElem_range]
        exact List.getElem?_eq_getElem inside
    · exact List.getElem?_eq_none (List.length_append ▸ behind)
  case unified =>
    rintro names kinds rfl
    have marked : ∀ (kind : VariableKind) (slot : Nat),
        (∃ position < (kind.table (unified names kinds)).length,
            indexOf (unified names kinds) kind position = slot) ↔
          Marked names kinds kind.bit slot :=
      fun kind slot => exists_indexOf_eq_iff
    exact ⟨fun index => rfl, fun slot =>
      ⟨marked .localVar slot, marked .cell slot, marked .free slot⟩⟩

end Locals
end CodeScope

import CodeScope.Listing.Line
import CodeScope.Sequencing

/-!
# Listings

The listing of a code unit holds its lines and the listings of the code units that its lines load,
in the order of their first use. Two constants are the same code unit exactly if they stem from one
tag of their stream, so an equal unit that is written twice is listed twice. A unit that a line
loads is one of the constants, which is why nested listings end.
-/

namespace CodeScope

/-- The listing of a code unit. -/
inductive Listing where
  | node (name : String) (firstLine : Int32) (lines : List ListingLine) (children : List Listing)

namespace Listing

/-- Name of the unit. -/
def name : Listing → String
  | node name _ _ _ => name

/-- First line of its source. -/
def firstLine : Listing → Int32
  | node _ firstLine _ _ => firstLine

/-- Its own lines. -/
def lines : Listing → List ListingLine
  | node _ _ lines _ => lines

/-- The listings of the code units that it loads. -/
def children : Listing → List Listing
  | node _ _ _ children => children

mutual

/-- Number of lines, those of the children included. -/
def size : Listing → Nat
  | node _ _ lines children => lines.length + sizeAll children

/-- Number of lines of several listings. -/
def sizeAll : List Listing → Nat
  | [] => 0
  | listing :: rest => listing.size + sizeAll rest

end

end Listing

namespace CodeUnit

/-- Code units without those that were read from the place of an earlier one or from `seen`. -/
def distinctFrom (seen : List Nat) : List CodeUnit → List CodeUnit
  | [] => []
  | unit :: rest =>
      if unit.site ∈ seen then
        distinctFrom seen rest
      else
        unit :: distinctFrom (unit.site :: seen) rest

/-- The code units that lines load, each once, in the order of their first use. -/
def loadedBy (lines : List ListingLine) : List CodeUnit :=
  distinctFrom [] (lines.filterMap ListingLine.code?)

theorem mem_of_mem_distinctFrom {unit : CodeUnit} {seen : List Nat} {units : List CodeUnit}
    (member : unit ∈ distinctFrom seen units) : unit ∈ units := by
  induction units generalizing seen with
  | nil => exact member
  | cons head rest induction =>
      rw [distinctFrom] at member
      split at member
      · exact List.mem_cons_of_mem _ (induction member)
      · rcases List.mem_cons.mp member with rfl | later
        · exact List.mem_cons_self
        · exact List.mem_cons_of_mem _ (induction later)

theorem mem_consts_of_resolve {profile : Profile} {unit : CodeUnit} {opcode : Opcode}
    {stop : Nat} {argument : UInt32} {value : Value}
    (resolved : Operand.resolve profile unit opcode stop argument = .const value) :
    value ∈ unit.consts := by
  simp only [Operand.resolve, Operand.relativeTarget, Operand.absoluteTarget] at resolved
  split at resolved
  · cases found : unit.consts[argument.toNat >>> profile.nameShift opcode.name]? with
    | none => simp [found] at resolved
    | some item =>
        simp only [found, Option.map_some, Option.getD_some, Operand.const.injEq] at resolved
        exact resolved ▸ List.mem_of_getElem? found
  · cases found : unit.names[argument.toNat >>> profile.nameShift opcode.name]? <;>
      simp [found] at resolved
  · cases found : unit.locals.local? (argument.toNat >>> profile.nameShift opcode.name) <;>
      simp [found] at resolved
  · cases found : unit.locals.free? (argument.toNat >>> profile.nameShift opcode.name) <;>
      simp [found] at resolved
  · split at resolved
    · exact nomatch resolved
    · split at resolved <;> exact nomatch resolved
    · exact nomatch resolved
  · split at resolved <;> exact nomatch resolved
  · exact nomatch resolved

theorem mem_consts_of_mem_linesFrom {profile : Profile} {unit : CodeUnit}
    {cursor : PositionCursor} {instructions : List Instruction} {lines : List ListingLine}
    {line : ListingLine} {value : Value}
    (listed : unit.linesFrom profile cursor instructions = .ok lines) (member : line ∈ lines)
    (loads : line.operand = some (.const value)) : value ∈ unit.consts := by
  induction instructions generalizing cursor lines with
  | nil =>
      cases listed
      exact nomatch member
  | cons instruction rest induction =>
      simp only [linesFrom, bind_eq_ok_iff, pure_eq_ok_iff] at listed
      obtain ⟨opcode, -, answer, -, restLines, restListed, rfl⟩ := listed
      rcases List.mem_cons.mp member with rfl | later
      · obtain ⟨argument, -, resolved⟩ := Option.map_eq_some_iff.mp loads
        exact mem_consts_of_resolve resolved
      · exact induction restListed later

theorem toValue_mem_consts_of_code? {unit child : CodeUnit} {options : ListingOptions}
    {lines : List ListingLine} {line : ListingLine} (listed : unit.lines options = .ok lines)
    (member : line ∈ lines) (loads : line.code? = some child) : child.toValue ∈ unit.consts := by
  simp only [CodeUnit.lines, bind_eq_ok_iff] at listed
  obtain ⟨profile, -, table, -, listed⟩ := listed
  simp only [ListingLine.code?] at loads
  split at loads
  · next value operand =>
      have inConsts := mem_consts_of_mem_linesFrom listed member operand
      cases value <;> simp only [Value.code?, Option.some.injEq, reduceCtorEq] at loads
      subst loads
      exact inConsts
  · exact nomatch loads

theorem toValue_mem_consts_of_mem_loadedBy {unit child : CodeUnit} {options : ListingOptions}
    {lines : List ListingLine} (listed : unit.lines options = .ok lines)
    (member : child ∈ loadedBy lines) : child.toValue ∈ unit.consts := by
  obtain ⟨line, lineMember, loads⟩ := List.mem_filterMap.mp (mem_of_mem_distinctFrom member)
  exact toValue_mem_consts_of_code? listed lineMember loads

theorem sizeOf_lt_of_toValue_mem {unit child : CodeUnit} (member : child.toValue ∈ unit.consts) :
    sizeOf child < sizeOf unit := by
  have smaller := List.sizeOf_lt_of_mem member
  obtain ⟨info, consts⟩ := unit
  obtain ⟨childInfo, childConsts⟩ := child
  simp only [toValue, Value.code.sizeOf_spec, CodeUnit.mk.sizeOf_spec] at smaller ⊢
  omega

/-- The listing of a code unit, with those of the units that it loads if `nested` is set. -/
def listing (unit : CodeUnit) (options : ListingOptions) : Except Error Listing :=
  match _ : unit.lines options with
  | .error error => .error error
  | .ok lines =>
      if options.nested then do
        let children ← (loadedBy lines).attach.mapM fun ⟨child, _⟩ => child.listing options
        return .node unit.displayName unit.firstLine lines children
      else
        .ok (.node unit.displayName unit.firstLine lines [])
termination_by sizeOf unit
decreasing_by
  exact sizeOf_lt_of_toValue_mem (toValue_mem_consts_of_mem_loadedBy ‹_› ‹_›)

/-- The listing of a unit consists of its lines and, where wanted, the listings of its children. -/
theorem listing_eq (unit : CodeUnit) (options : ListingOptions) :
    unit.listing options = do
      let lines ← unit.lines options
      if options.nested then
        let children ← (loadedBy lines).mapM fun child => child.listing options
        return .node unit.displayName unit.firstLine lines children
      else
        return .node unit.displayName unit.firstLine lines [] := by
  rw [listing]
  split
  · next error failed => simp [failed, bind, Except.bind]
  · next lines listed =>
      simp only [listed, bind, Except.bind]
      split
      · rw [attach_mapM (loadedBy lines) fun child => child.listing options]
      · rfl

mutual

/-- Number of code units among constants, those among the constants of code units included. -/
def countAmong : List Value → Nat
  | [] => 0
  | value :: rest => countIn value + countAmong rest

/-- Number of code units that a constant is and holds directly in its own constants. -/
def countIn : Value → Nat
  | .code _ consts => 1 + countAmong consts
  | _ => 0

end

/-- Number of code units that a unit and the constants of its units are, with repetitions. -/
def count (unit : CodeUnit) : Nat :=
  1 + countAmong unit.consts

end CodeUnit
end CodeScope

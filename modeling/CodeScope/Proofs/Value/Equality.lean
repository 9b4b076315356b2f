import CodeScope.Proofs.Value.Parts
import CodeScope.Value.Equality
import Mathlib.Data.List.Forall2
import Mathlib.Data.Option.Basic
import Mathlib.Logic.Relation

/-!
# Places of values and their equality

A place inside a value is a path: the positions of the parts that one goes through. Two values
match if the same paths lead somewhere in both, and to nodes of one constructor with matching
leaves. Equality is such a match, so it is symmetric and transitive because the comparison of the
leaves is, and a value is equal to itself unless some leaf is not.
-/

namespace CodeScope

namespace Binary64

/-- Two values that are the same number; the signs of zeros do not count. -/
def SameNumber (left right : Binary64) : Prop :=
  left.isNaN = false ∧ right.isNaN = false ∧
    (left = right ∨ left.isZero = true ∧ right.isZero = true)

variable {left middle right : Binary64}

theorem agrees_iff_sameNumber : left.agrees right = true ↔ left.SameNumber right := by
  have sameBits : left.bits = right.bits ↔ left = right :=
    ⟨fun same => congrArg Binary64.mk same, congrArg Binary64.bits⟩
  simp [agrees, SameNumber, and_assoc, sameBits]

theorem SameNumber.symm (same : left.SameNumber right) : right.SameNumber left :=
  ⟨same.2.1, same.1, same.2.2.imp Eq.symm And.symm⟩

theorem SameNumber.trans (first : left.SameNumber middle) (second : middle.SameNumber right) :
    left.SameNumber right := by
  obtain ⟨leftIs, -, rfl | ⟨leftZero, middleZero⟩⟩ := first
  · exact second
  · obtain ⟨-, rightIs, rfl | ⟨-, rightZero⟩⟩ := second
    · exact ⟨leftIs, rightIs, .inr ⟨leftZero, middleZero⟩⟩
    · exact ⟨leftIs, rightIs, .inr ⟨leftZero, rightZero⟩⟩

theorem sameNumber_self_iff : left.SameNumber left ↔ left.isNaN = false :=
  ⟨And.left, fun number => ⟨number, number, .inl rfl⟩⟩

end Binary64

namespace CodeInfo

/-- Two units that differ at most in the place they were read from. -/
def SameButSite (left right : CodeInfo) : Prop :=
  { left with site := right.site } = right

variable {left middle right : CodeInfo}

theorem agrees_iff_sameButSite : left.agrees right = true ↔ left.SameButSite right :=
  decide_eq_true_iff

theorem sameButSite_self (info : CodeInfo) : info.SameButSite info := rfl

theorem SameButSite.symm (same : left.SameButSite right) : right.SameButSite left := by
  rw [SameButSite, ← same]

theorem SameButSite.trans (first : left.SameButSite middle) (second : middle.SameButSite right) :
    left.SameButSite right := by
  rw [SameButSite, ← second, ← first]

end CodeInfo

section Rel

variable {α : Type} {first second both : α → α → Prop} {left middle right : Option α}

theorem optionRel_symm (related : Option.Rel first left right)
    (symm : ∀ ⦃left right⦄, first left right → both right left) : Option.Rel both right left := by
  cases related with
  | none => exact .none
  | some related => exact .some (symm related)

theorem optionRel_comp (relatedFirst : Option.Rel first left middle)
    (relatedSecond : Option.Rel second middle right)
    (comp : ∀ ⦃left middle right⦄, first left middle → second middle right → both left right) :
    Option.Rel both left right := by
  cases relatedFirst with
  | none => cases relatedSecond with
    | none => exact .none
  | some relatedFirst => cases relatedSecond with
    | some relatedSecond => exact .some (comp relatedFirst relatedSecond)

theorem optionRel_bind {next : α → Option α} (related : Option.Rel first left right)
    (keeps : ∀ ⦃left right⦄, first left right → Option.Rel second (next left) (next right)) :
    Option.Rel second (left.bind next) (right.bind next) := by
  cases related with
  | none => exact .none
  | some related => exact keeps related

/-- Two lists are related item by item if and only if they are at every position. -/
theorem forall₂_iff_rel_getElem? {lefts rights : List α} :
    List.Forall₂ first lefts rights ↔
      ∀ position : Nat, Option.Rel first lefts[position]? rights[position]? := by
  induction lefts generalizing rights with
  | nil =>
      cases rights with
      | nil => simp
      | cons right rights => simpa using ⟨0, by simp⟩
  | cons left lefts induction =>
      cases rights with
      | nil => simpa using ⟨0, by simp⟩
      | cons right rights =>
          rw [List.forall₂_cons, induction]
          constructor
          · rintro ⟨atHead, atTail⟩ position
            cases position with
            | zero => exact .some atHead
            | succ position => exact atTail position
          · intro atAll
            exact ⟨Option.rel_some_some.mp (atAll 0), fun position => atAll (position + 1)⟩

theorem forall₂_imp_of_mem {lefts rights : List α}
    (implies : ∀ left ∈ lefts, ∀ right, first left right → second left right)
    (related : List.Forall₂ first lefts rights) : List.Forall₂ second lefts rights := by
  refine ((List.forall₂_and_left _ _).mpr ⟨implies, related⟩).imp ?_
  rintro left right ⟨implies, related⟩
  exact implies right related

/-- Two relations that say the same of the items of a list relate it to the same lists. -/
theorem forall₂_iff_of_mem {lefts rights : List α}
    (same : ∀ left ∈ lefts, ∀ right, first left right ↔ second left right) :
    List.Forall₂ first lefts rights ↔ List.Forall₂ second lefts rights :=
  ⟨forall₂_imp_of_mem fun left listed right => (same left listed right).mp,
    forall₂_imp_of_mem fun left listed right => (same left listed right).mpr⟩

end Rel

namespace Value

/-- The value at a path, if the path leads somewhere. -/
def at? (value : Value) : List Nat → Option Value
  | [] => some value
  | position :: path => value.parts[position]?.bind fun part => part.at? path

/-- Paths lead to the values inside a value, at any depth. -/
theorem exists_at?_iff {value node : Value} :
    (∃ path, value.at? path = some node) ↔ Relation.ReflTransGen Holds value node := by
  constructor
  · rintro ⟨path, found⟩
    induction path generalizing value with
    | nil => exact Option.some.inj found ▸ .refl
    | cons position path induction =>
        obtain ⟨part, atPosition, found⟩ := Option.bind_eq_some_iff.mp found
        exact .head (List.mem_of_getElem? atPosition) (induction found)
  · intro inside
    induction inside using Relation.ReflTransGen.head_induction_on with
    | refl => exact ⟨[], rfl⟩
    | head held _ induction =>
        obtain ⟨position, atPosition⟩ := List.mem_iff_getElem?.mp held
        obtain ⟨path, found⟩ := induction
        exact ⟨position :: path, by rw [at?, atPosition, Option.bind_some, found]⟩

/--
Two nodes of one constructor whose leaves are the same, where numbers are compared by one relation
and units by another. Neither the parts of the nodes nor whether a text is interned count.
-/
inductive SameNode (numbers : Binary64 → Binary64 → Prop) (units : CodeInfo → CodeInfo → Prop) :
    Value → Value → Prop where
  | none : SameNode numbers units none none
  | bool (value : Bool) : SameNode numbers units (bool value) (bool value)
  | stopIteration : SameNode numbers units stopIteration stopIteration
  | ellipsis : SameNode numbers units ellipsis ellipsis
  | int32 (value : Int32) : SameNode numbers units (int32 value) (int32 value)
  | int64 (value : Int64) : SameNode numbers units (int64 value) (int64 value)
  | long (value : Int) : SameNode numbers units (long value) (long value)
  | float {left right : Binary64} (same : numbers left right) :
      SameNode numbers units (float left) (float right)
  | complex {left right leftImaginary rightImaginary : Binary64} (real : numbers left right)
      (imaginary : numbers leftImaginary rightImaginary) :
      SameNode numbers units (complex left leftImaginary) (complex right rightImaginary)
  | bytes (data : Bytes) : SameNode numbers units (bytes data) (bytes data)
  | text (content : String) (left right : Bool) :
      SameNode numbers units (text content left) (text content right)
  | tuple (left right : List Value) : SameNode numbers units (tuple left) (tuple right)
  | list (left right : List Value) : SameNode numbers units (list left) (list right)
  | dict (left right : List (Value × Value)) : SameNode numbers units (dict left) (dict right)
  | set (left right : List Value) : SameNode numbers units (set left) (set right)
  | frozenSet (left right : List Value) :
      SameNode numbers units (frozenSet left) (frozenSet right)
  | reference (slot : UInt32) : SameNode numbers units (reference slot) (reference slot)
  | code {left right : CodeInfo} (same : units left right) (leftConsts rightConsts : List Value) :
      SameNode numbers units (code left leftConsts) (code right rightConsts)

/-- Two values with the same nodes at the same paths. -/
def Matches (numbers : Binary64 → Binary64 → Prop) (units : CodeInfo → CodeInfo → Prop)
    (left right : Value) : Prop :=
  ∀ path, Option.Rel (SameNode numbers units) (left.at? path) (right.at? path)

/-- Two values that differ at most in which of their texts are interned. -/
def SameButInterned : Value → Value → Prop := Matches Eq Eq

section Relations

variable {numbers numbers₁ numbers₂ : Binary64 → Binary64 → Prop}
variable {units units₁ units₂ : CodeInfo → CodeInfo → Prop}
variable {left middle right : Value}

theorem SameNode.symm (same : SameNode numbers units left right)
    (ofNumbers : ∀ ⦃left right⦄, numbers left right → numbers right left)
    (ofUnits : ∀ ⦃left right⦄, units left right → units right left) :
    SameNode numbers units right left := by
  cases same with
  | float same => exact .float (ofNumbers same)
  | complex real imaginary => exact .complex (ofNumbers real) (ofNumbers imaginary)
  | code same leftConsts rightConsts => exact .code (ofUnits same) rightConsts leftConsts
  | _ => constructor

theorem SameNode.comp (first : SameNode numbers₁ units₁ left middle)
    (second : SameNode numbers₂ units₂ middle right)
    (ofNumbers : ∀ ⦃left middle right⦄,
      numbers₁ left middle → numbers₂ middle right → numbers left right)
    (ofUnits : ∀ ⦃left middle right⦄,
      units₁ left middle → units₂ middle right → units left right) :
    SameNode numbers units left right := by
  cases first with
  | float first => cases second with
    | float second => exact .float (ofNumbers first second)
  | complex real imaginary => cases second with
    | complex real' imaginary' =>
        exact .complex (ofNumbers real real') (ofNumbers imaginary imaginary')
  | code first leftConsts _ => cases second with
    | code second _ rightConsts => exact .code (ofUnits first second) leftConsts rightConsts
  | _ => cases second; constructor

theorem Matches.symm (same : Matches numbers units left right)
    (ofNumbers : ∀ ⦃left right⦄, numbers left right → numbers right left)
    (ofUnits : ∀ ⦃left right⦄, units left right → units right left) :
    Matches numbers units right left :=
  fun path => optionRel_symm (same path) fun _ _ sameNode => sameNode.symm ofNumbers ofUnits

theorem Matches.comp (first : Matches numbers₁ units₁ left middle)
    (second : Matches numbers₂ units₂ middle right)
    (ofNumbers : ∀ ⦃left middle right⦄,
      numbers₁ left middle → numbers₂ middle right → numbers left right)
    (ofUnits : ∀ ⦃left middle right⦄,
      units₁ left middle → units₂ middle right → units left right) :
    Matches numbers units left right :=
  fun path => optionRel_comp (first path) (second path) fun _ _ _ sameFirst sameSecond =>
    sameFirst.comp sameSecond ofNumbers ofUnits

/-- Two values match if they are the same node and their parts match, one after the other. -/
theorem matches_iff : Matches numbers units left right ↔ SameNode numbers units left right ∧
    List.Forall₂ (Matches numbers units) left.parts right.parts := by
  rw [forall₂_iff_rel_getElem?]
  constructor
  · intro same
    refine ⟨Option.rel_some_some.mp (same []), fun position => ?_⟩
    -- the paths through one position, the shortest of which tells whether there is a part
    have atPart := fun path => same (position :: path)
    simp only [at?] at atPart
    cases leftPart : left.parts[position]? <;> cases rightPart : right.parts[position]?
    all_goals simp only [leftPart, rightPart] at atPart
    · exact .none
    · cases atPart []
    · cases atPart []
    · exact .some atPart
  · rintro ⟨sameNode, sameParts⟩ path
    cases path with
    | nil => exact .some sameNode
    | cons position path =>
        simp only [at?]
        exact optionRel_bind (sameParts position) fun _ _ same => same path

end Relations

variable {left middle right : Value}

theorem agreeAll_iff {lefts rights : List Value} : agreeAll lefts rights = true ↔
    List.Forall₂ (fun left right => left.agrees right = true) lefts rights := by
  induction lefts generalizing rights with
  | nil => cases rights <;> simp [agreeAll]
  | cons left lefts induction =>
      cases rights with
      | nil => simp [agreeAll]
      | cons right rights => simp [agreeAll, induction]

theorem agreeEntries_iff {lefts rights : List (Value × Value)} : agreeEntries lefts rights = true ↔
    List.Forall₂ (fun left right => left.agrees right = true)
      (dict lefts).parts (dict rights).parts := by
  induction lefts generalizing rights with
  | nil => cases rights <;> simp [agreeEntries, parts]
  | cons left lefts induction =>
      cases rights with
      | nil => simp [agreeEntries, parts]
      | cons right rights => simpa [agreeEntries, parts, and_assoc] using fun _ _ => induction

/-- Equality of values at one node: the nodes are the same and the parts are equal. -/
theorem agrees_iff : left.agrees right = true ↔
    SameNode Binary64.SameNumber CodeInfo.SameButSite left right ∧
      List.Forall₂ (fun left right => left.agrees right = true) left.parts right.parts := by
  constructor
  · intro same
    -- the cases are the alternatives of `agrees`, in their order
    fun_cases agrees left right with
    | case1 | case3 | case4 => exact ⟨by constructor, .nil⟩
    | case2 | case5 | case6 | case7 | case10 | case17 =>
        obtain rfl := eq_of_beq same
        exact ⟨by constructor, .nil⟩
    | case8 => exact ⟨.float (Binary64.agrees_iff_sameNumber.mp same), .nil⟩
    | case9 =>
        obtain ⟨real, imaginary⟩ := Bool.and_eq_true_iff.mp same
        exact ⟨.complex (Binary64.agrees_iff_sameNumber.mp real)
          (Binary64.agrees_iff_sameNumber.mp imaginary), .nil⟩
    | case11 =>
        obtain rfl := eq_of_beq same
        exact ⟨.text _ _ _, .nil⟩
    | case12 | case13 | case15 | case16 => exact ⟨by constructor, agreeAll_iff.mp same⟩
    | case14 => exact ⟨.dict _ _, agreeEntries_iff.mp same⟩
    | case18 =>
        obtain ⟨sameInfo, sameConsts⟩ := Bool.and_eq_true_iff.mp same
        exact ⟨.code (CodeInfo.agrees_iff_sameButSite.mp sameInfo) _ _,
          agreeAll_iff.mp sameConsts⟩
    | case19 =>
        -- different constructors, which are never equal
        rw [agrees] at same
        · cases same
        all_goals assumption
  · rintro ⟨sameNode, sameParts⟩
    cases sameNode with
    | none | stopIteration | ellipsis => rfl
    | bool | int32 | int64 | long | bytes | text | reference => exact beq_self_eq_true _
    | float same => exact Binary64.agrees_iff_sameNumber.mpr same
    | complex real imaginary =>
        exact Bool.and_eq_true_iff.mpr ⟨Binary64.agrees_iff_sameNumber.mpr real,
          Binary64.agrees_iff_sameNumber.mpr imaginary⟩
    | tuple | list | set | frozenSet => exact agreeAll_iff.mpr sameParts
    | dict => exact agreeEntries_iff.mpr sameParts
    | code same =>
        exact Bool.and_eq_true_iff.mpr
          ⟨CodeInfo.agrees_iff_sameButSite.mpr same, agreeAll_iff.mpr sameParts⟩

/-- Values are equal if and only if they match. -/
theorem agrees_iff_matches : left.agrees right = true ↔
    left.Matches Binary64.SameNumber CodeInfo.SameButSite right := by
  induction left using inductionOnParts generalizing right with
  | step left induction =>
      rw [agrees_iff, matches_iff, forall₂_iff_of_mem fun part inside _ => induction part inside]

/-- The floating-point numbers of a value, its parts aside. -/
def numbers : Value → List Binary64
  | float value => [value]
  | complex real imaginary => [real, imaginary]
  | _ => []

theorem sameNode_self_iff {node : Value} :
    SameNode Binary64.SameNumber CodeInfo.SameButSite node node ↔
      ∀ number ∈ node.numbers, number.isNaN = false := by
  constructor
  · intro same
    cases same with
    | float same => simpa [numbers] using same.1
    | complex real imaginary => simpa [numbers] using ⟨real.1, imaginary.1⟩
    | _ => simp [numbers]
  · intro isNumber
    cases node with
    | float value =>
        exact .float (Binary64.sameNumber_self_iff.mpr (isNumber value (by simp [numbers])))
    | complex real imaginary =>
        exact .complex (Binary64.sameNumber_self_iff.mpr (isNumber real (by simp [numbers])))
          (Binary64.sameNumber_self_iff.mpr (isNumber imaginary (by simp [numbers])))
    | code info consts => exact .code info.sameButSite_self consts consts
    | _ => constructor

/-- A value is equal to itself if and only if no number inside it is NaN. -/
theorem agrees_self_iff {value : Value} : value.agrees value = true ↔
    ∀ node, Relation.ReflTransGen Holds value node →
      ∀ number ∈ node.numbers, number.isNaN = false := by
  simp only [agrees_iff_matches, ← exists_at?_iff, ← sameNode_self_iff]
  constructor
  · rintro same node ⟨path, found⟩
    have sameNode := same path
    rw [found] at sameNode
    exact Option.rel_some_some.mp sameNode
  · intro same path
    cases found : value.at? path with
    | none => exact .none
    | some node => exact .some (same node ⟨path, found⟩)

example : (tuple [float .notANumber]).agrees (tuple [float .notANumber]) = false := by decide

theorem agrees_symm (same : left.agrees right = true) : right.agrees left = true := by
  rw [agrees_iff_matches] at same ⊢
  exact same.symm (fun _ _ => Binary64.SameNumber.symm) fun _ _ => CodeInfo.SameButSite.symm

theorem agrees_trans (first : left.agrees middle = true) (second : middle.agrees right = true) :
    left.agrees right = true := by
  rw [agrees_iff_matches] at first second ⊢
  exact first.comp second (fun _ _ _ => Binary64.SameNumber.trans)
    fun _ _ _ => CodeInfo.SameButSite.trans

theorem SameButInterned.symm (same : left.SameButInterned right) : right.SameButInterned left :=
  Matches.symm same (fun _ _ => Eq.symm) fun _ _ => Eq.symm

/-- Which texts are interned has no influence on equality. -/
theorem agrees_of_sameButInterned {left' right' : Value} (sameLeft : left.SameButInterned left')
    (sameRight : right.SameButInterned right') (same : left.agrees right = true) :
    left'.agrees right' = true := by
  rw [agrees_iff_matches] at same ⊢
  have there : left'.Matches Binary64.SameNumber CodeInfo.SameButSite right :=
    Matches.comp sameLeft.symm same (fun _ _ _ equal next => equal ▸ next)
      fun _ _ _ equal next => equal ▸ next
  exact Matches.comp there sameRight (fun _ _ _ next equal => equal ▸ next)
    fun _ _ _ next equal => equal ▸ next

/-- The laws of equality of values. -/
structure EqualityLaws : Prop where
  symm : ∀ left right : Value, left.agrees right = right.agrees left
  trans : ∀ left middle right : Value, left.agrees middle = true → middle.agrees right = true →
    left.agrees right = true
  /-- A value is equal to itself unless some number at any depth inside it is NaN. -/
  refl_iff : ∀ value : Value, value.agrees value = true ↔
    ∀ node, Relation.ReflTransGen Holds value node → ∀ number ∈ node.numbers, number.isNaN = false
  interned : ∀ left left' right right' : Value, left.SameButInterned left' →
    right.SameButInterned right' → left.agrees right = left'.agrees right'
  /-- Equal values have nodes of the same constructor and with the same leaves at all paths. -/
  alike_iff : ∀ left right : Value, left.agrees right = true ↔
    left.Matches Binary64.SameNumber CodeInfo.SameButSite right
  integers : ∀ (short : Int32) (wide : Int64) (any : Int),
    (int32 short).agrees (int64 wide) = false ∧ (int32 short).agrees (long any) = false ∧
      (int64 wide).agrees (long any) = false
  sequences : ∀ items others : List Value, (tuple items).agrees (list others) = false

theorem equalityLaws : EqualityLaws where
  symm _ _ := Bool.eq_iff_iff.mpr ⟨agrees_symm, agrees_symm⟩
  trans _ _ _ := agrees_trans
  refl_iff _ := agrees_self_iff
  interned _ _ _ _ sameLeft sameRight :=
    Bool.eq_iff_iff.mpr ⟨agrees_of_sameButInterned sameLeft sameRight,
      agrees_of_sameButInterned sameLeft.symm sameRight.symm⟩
  alike_iff _ _ := agrees_iff_matches
  integers _ _ _ := ⟨rfl, rfl, rfl⟩
  sequences _ _ := rfl

end Value
end CodeScope

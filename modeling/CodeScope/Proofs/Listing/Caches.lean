import CodeScope.Proofs.Listing.Lines
import CodeScope.Proofs.Listing.Objects
import CodeScope.Proofs.Version.Profile

/-!
# Inline cache slots

A listing without cache slots is the one with them less the lines of cache slots, at every node. A
cache slot has no argument, however many words widen it, so it loads nothing and the children stay.
-/

namespace CodeScope

theorem Instruction.argument_of_mem_decodeFrom {start offset : Nat} {high : UInt32} {code : Bytes} :
    ∀ instruction ∈ decodeFrom start offset high code,
      instruction.opcode < Opcode.firstWithArgument → instruction.argument = none := by
  fun_induction decodeFrom start offset high code with
  | case1 start offset high low rest number next induction => exact induction
  | case2 start offset high opcode low rest number next plain argument induction =>
      refine List.forall_mem_cons.mpr ⟨fun small => ?_, induction⟩
      exact if_neg (UInt8.not_le.mpr small)
  | case3 start offset high code short => exact List.forall_mem_nil _

/-- The opcode of cache slots is below those with an argument, in all versions that have one. -/
theorem Profile.isCache_lt {version : Version} {profile : Profile} {opcode : UInt8}
    (supported : ofVersion version = .ok profile) (cache : profile.isCache opcode = true) :
    opcode < Opcode.firstWithArgument := by
  have each : ∀ profile ∈ all, ∀ cacheOpcode ∈ profile.cacheOpcode,
      cacheOpcode < Opcode.firstWithArgument := by
    intro profile member cacheOpcode isOpcode
    simp only [all, List.mem_cons, List.not_mem_nil, or_false] at member
    rcases member with rfl | rfl | rfl | rfl | rfl <;> cases isOpcode <;> decide
  exact each profile (ofVersion_eq_ok_iff.mp supported).1 opcode (eq_of_beq cache)

namespace CodeUnit

/-- Whether a line of a unit is that of a cache slot. -/
def isCacheLine (unit : CodeUnit) (line : ListingLine) : Bool :=
  match Profile.ofVersion unit.version with
  | .ok profile => profile.isCache line.instruction.opcode
  | .error _ => false

mutual

/-- A listing of a unit less the lines of cache slots, those of the children included. -/
def withoutCaches : CodeUnit → Listing → Listing
  | unit, .node name firstLine lines children =>
      .node name firstLine (lines.filter fun line => !unit.isCacheLine line)
        (withoutCachesAll (loadedBy lines) children)

/-- Listings of units less the lines of cache slots. -/
def withoutCachesAll : List CodeUnit → List Listing → List Listing
  | unit :: units, listing :: rest => withoutCaches unit listing :: withoutCachesAll units rest
  | _, listings => listings

end

theorem withoutCachesAll_nil (units : List CodeUnit) : withoutCachesAll units [] = [] := by
  cases units with
  | nil => rfl
  | cons unit units => rfl

theorem forall₂_withoutCachesAll {holds strong : CodeUnit → Listing → Prop} {units : List CodeUnit}
    {listings : List Listing} (each : List.Forall₂ holds units listings)
    (implies : ∀ unit ∈ units, ∀ listing, holds unit listing →
      strong unit (withoutCaches unit listing)) :
    List.Forall₂ strong units (withoutCachesAll units listings) := by
  induction each with
  | nil => exact .nil
  | cons first others induction =>
      obtain ⟨here, later⟩ := List.forall_mem_cons.mp implies
      exact .cons (here _ first) (induction later)

variable {unit : CodeUnit} {nested : Bool}

/-- A cache slot loads no code unit, as it has no argument. -/
theorem code?_of_isCacheLine {options : ListingOptions} {lines : List ListingLine}
    (listed : unit.lines options = .ok lines) :
    ∀ line ∈ lines, unit.isCacheLine line = true → line.code? = none := by
  obtain ⟨profile, table, supported, decoder⟩ := exists_table_of_lines listed
  rw [lines_eq_mapM supported decoder] at listed
  refine forall_of_mapM listed fun instruction member line alone cache => ?_
  have shows := lineAlone_eq_ok_iff.mp alone
  rw [isCacheLine, supported, shows.own] at cache
  have decoded := List.mem_of_mem_filter member
  have bare : instruction.argument = none :=
    Instruction.argument_of_mem_decodeFrom instruction decoded (Profile.isCache_lt supported cache)
  rw [ListingLine.code?, shows.operand, bare]
  rfl

theorem loadedBy_filter_isCacheLine {options : ListingOptions} {lines : List ListingLine}
    (listed : unit.lines options = .ok lines) :
    loadedBy (lines.filter fun line => !unit.isCacheLine line) = loadedBy lines := by
  have same : (lines.filter fun line => !unit.isCacheLine line).filterMap ListingLine.code? =
      lines.filterMap ListingLine.code? := by
    rw [List.filterMap_filter]
    apply List.filterMap_congr
    intro line member
    cases cache : unit.isCacheLine line with
    | false => rfl
    | true => exact (code?_of_isCacheLine listed line member cache).symm
  rw [loadedBy, same, loadedBy]

/-- The lines without cache slots are those with them less those of cache slots. -/
theorem lines_of_keepCaches {lines : List ListingLine}
    (listed : unit.lines ⟨nested, true⟩ = .ok lines) :
    unit.lines ⟨nested, false⟩ = .ok (lines.filter fun line => !unit.isCacheLine line) := by
  obtain ⟨profile, table, supported, decoder⟩ := exists_table_of_lines listed
  rw [lines_eq_mapM supported decoder] at listed ⊢
  have whole : unit.listedInstructions profile ⟨nested, true⟩ = Instruction.decode unit.code := by
    simp [listedInstructions]
  have shown : unit.listedInstructions profile ⟨nested, false⟩ =
      (Instruction.decode unit.code).filter fun instruction =>
        !profile.isCache instruction.opcode := by
    simp [listedInstructions]
  rw [whole] at listed
  rw [shown]
  apply mapM_filter listed
  intro instruction line alone
  rw [isCacheLine, supported, (lineAlone_eq_ok_iff.mp alone).own]

theorem called_of_keepCaches {lines : List ListingLine}
    (listed : unit.lines ⟨nested, true⟩ = .ok lines) :
    unit.called ⟨nested, false⟩ = unit.called ⟨nested, true⟩ := by
  rw [called_of_lines listed, called_of_lines (lines_of_keepCaches listed),
    loadedBy_filter_isCacheLine listed]

theorem listing_of_keepCaches (unit : CodeUnit) {tree : Listing}
    (listed : unit.listing ⟨nested, true⟩ = .ok tree) :
    unit.listing ⟨nested, false⟩ = .ok (unit.withoutCaches tree) := by
  obtain ⟨name, firstLine, lines, children⟩ := listing_eq_ok_iff.mp listed
  cases tree with
  | node treeName treeFirstLine treeLines treeChildren =>
      refine listing_eq_ok_iff.mpr ⟨name, firstLine, lines_of_keepCaches lines, ?_⟩
      have each : List.Forall₂ (fun child listing => child.listing ⟨nested, false⟩ = .ok listing)
          (unit.called ⟨nested, true⟩)
          (withoutCachesAll (unit.called ⟨nested, true⟩) treeChildren) := by
        refine forall₂_withoutCachesAll children fun child isCalled listing alone => ?_
        have smaller := sizeOf_lt_of_mem_called isCalled
        exact listing_of_keepCaches child alone
      rw [called_of_keepCaches lines]
      rw [called_of_lines lines] at children each ⊢
      cases nested with
      | true => exact each
      | false =>
          cases children
          rw [withoutCaches, withoutCachesAll_nil]
          exact .nil
termination_by sizeOf unit

/-- A unit of a version that has no cache slots. -/
def Cacheless (unit : CodeUnit) : Prop :=
  ∀ profile, Profile.ofVersion unit.version = .ok profile → profile.cacheOpcode = none

theorem lines_of_cacheless (cacheless : unit.Cacheless) :
    unit.lines ⟨nested, false⟩ = unit.lines ⟨nested, true⟩ := by
  cases supported : Profile.ofVersion unit.version with
  | error error => simp only [CodeUnit.lines, supported, bind, Except.bind]
  | ok profile =>
      have same : unit.listedInstructions profile ⟨nested, false⟩ =
          unit.listedInstructions profile ⟨nested, true⟩ := by
        simp [listedInstructions, Profile.isCache, cacheless profile supported]
      simp only [CodeUnit.lines, supported, same, bind, Except.bind]

theorem listing_of_cacheless (unit : CodeUnit)
    (cacheless : ∀ visited ∈ unit.visits ⟨nested, true⟩, visited.Cacheless) :
    unit.listing ⟨nested, false⟩ = unit.listing ⟨nested, true⟩ := by
  rw [visits_eq] at cacheless
  obtain ⟨own, others⟩ := List.forall_mem_cons.mp cacheless
  have same : unit.lines ⟨nested, false⟩ = unit.lines ⟨nested, true⟩ := lines_of_cacheless own
  cases listed : unit.lines ⟨nested, true⟩ with
  | error error => rw [listing_of_error listed, listing_of_error (same.trans listed)]
  | ok lines =>
      have children :
          (unit.called ⟨nested, true⟩).mapM (fun child => child.listing ⟨nested, false⟩) =
            (unit.called ⟨nested, true⟩).mapM fun child => child.listing ⟨nested, true⟩ := by
        refine mapM_congr fun child isCalled => ?_
        have smaller := sizeOf_lt_of_mem_called isCalled
        exact listing_of_cacheless child fun visited member =>
          others visited (List.mem_flatMap.mpr ⟨child, isCalled, member⟩)
      rw [listing_of_lines listed, listing_of_lines (same.trans listed),
        called_of_keepCaches listed, children]
termination_by sizeOf unit

/-- Units that have been loaded together are of one version. -/
theorem version_eq_of_loaded {version : Version} {stream : Bytes} {value : Value} {other : CodeUnit}
    (loaded : LoadedFrom version stream value)
    (within : Relation.ReflTransGen Value.Holds value unit.toValue)
    (withinOther : Relation.ReflTransGen Value.Holds value other.toValue) :
    other.version = unit.version := by
  obtain ⟨profile, next, supported, -⟩ := Value.ofBytes_eq_ok loaded.ofBytes
  have sane := (Value.inherited_sane profile).ofBytes supported loaded.ofBytes
  have own := ((sane unit.toValue within).2 unit rfl).version
  have others := ((sane other.toValue withinOther).2 other rfl).version
  exact others.trans own.symm

/--
To leave out cache slots is to delete their lines from a listing. It changes nothing for versions
without cache slots; what has been loaded is of one version throughout.
-/
theorem listing_keepCaches (unit : CodeUnit) (nested : Bool) :
    (∀ tree, unit.listing ⟨nested, true⟩ = .ok tree →
      unit.listing ⟨nested, false⟩ = .ok (unit.withoutCaches tree)) ∧
    ((∀ visited ∈ unit.visits ⟨nested, true⟩, visited.Cacheless) →
      unit.listing ⟨nested, false⟩ = unit.listing ⟨nested, true⟩) ∧
    ∀ version stream value, LoadedFrom version stream value →
      Relation.ReflTransGen Value.Holds value unit.toValue → unit.Cacheless →
        unit.listing ⟨nested, false⟩ = unit.listing ⟨nested, true⟩ := by
  refine ⟨fun tree => listing_of_keepCaches unit, listing_of_cacheless unit, ?_⟩
  intro version stream value loaded within cacheless
  refine listing_of_cacheless unit fun visited member profile supported => ?_
  have inside := within.trans (within_of_mem_visits unit member)
  exact cacheless profile (version_eq_of_loaded loaded within inside ▸ supported)

/-- A unit whose third instruction is a cache slot, and widened. -/
def withCacheSlot : CodeUnit where
  site := 0
  version := ⟨3, 11⟩
  argcount := 0
  posonlyargcount := 0
  kwonlyargcount := 0
  nlocals := 0
  stacksize := 1
  flags := ⟨0⟩
  code := [151, 0, 122, 0, 144, 1, 0, 0, 83, 0]
  names := []
  locals := .unified [] []
  filename := "t.py"
  name := "f"
  qualname := some "f"
  firstLine := 1
  linetable := [132, 0]
  exceptiontable := []
  consts := []

theorem listing_keepCaches_withCacheSlot :
    ∃ tree, withCacheSlot.listing ⟨true, true⟩ = .ok tree ∧ tree.size = 4 ∧
      withCacheSlot.listing ⟨true, false⟩ = .ok (withCacheSlot.withoutCaches tree) ∧
      (withCacheSlot.withoutCaches tree).size = 3 := by
  have evaluated : ((withCacheSlot.lines ⟨true, true⟩).toOption.map fun lines =>
      (lines.length, (lines.filter fun line => !withCacheSlot.isCacheLine line).length,
        (loadedBy lines).length)) = some (4, 3, 0) := by
    decide +kernel
  obtain ⟨lines, listed, counted⟩ := Option.map_eq_some_iff.mp evaluated
  have listed := eq_ok_of_toOption listed
  simp only [Prod.mk.injEq, List.length_eq_zero_iff] at counted
  obtain ⟨four, three, none⟩ := counted
  have whole : withCacheSlot.listing ⟨true, true⟩ =
      .ok (.node withCacheSlot.displayName withCacheSlot.firstLine lines []) := by
    rw [listing_of_lines listed, called_of_lines listed, none]
    rfl
  refine ⟨_, whole, ?_, (listing_keepCaches withCacheSlot true).1 _ whole, ?_⟩
  · rw [Listing.size, four, Listing.sizeAll]
  · rw [withoutCaches, withoutCachesAll_nil, Listing.size, three, Listing.sizeAll]

end CodeUnit
end CodeScope

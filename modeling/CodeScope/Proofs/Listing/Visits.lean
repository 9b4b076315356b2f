import CodeScope.Listing.Basic
import CodeScope.Proofs.Sequencing
import CodeScope.Proofs.Value.Parts
import Mathlib.Algebra.Ring.Nat
import Mathlib.Data.List.Forall2
import Mathlib.Logic.Relation

/-!
# Visits of code units

A nested listing visits the units that a unit loads, and from each of them those that it loads. A
unit is visited before the units that it loads, and all of those before the next one. The nodes of
the listing are the listings of the visited units alone; if there is none, the first visited unit
without lines is the reason.
-/

namespace CodeScope

/-- Items of a list at the positions where none before is the same, in the order of the list. -/
structure FirstUses {α : Type} (same : α → α → Prop) (uses objects : List α)
    (positions : List Nat) : Prop where
  increasing : positions.Pairwise (· < ·)
  listed : positions.map (uses[·]?) = objects.map some
  first : ∀ {position : Nat} {use : α}, uses[position]? = some use →
    (position ∈ positions ↔ ∀ earlier < position, ∀ other ∈ uses[earlier]?, ¬same other use)

/-- What is true of all earlier items is true of the head and of those behind it. -/
theorem forall_earlier_cons {α : Type} {holds : α → Prop} {head : α} {rest : List α}
    {position : Nat} :
    (∀ earlier < position + 1, ∀ other ∈ (head :: rest)[earlier]?, holds other) ↔
      holds head ∧ ∀ earlier < position, ∀ other ∈ rest[earlier]?, holds other := by
  rw [Nat.forall_lt_succ_left]
  simp only [List.getElem?_cons_zero, List.getElem?_cons_succ, Option.mem_some, forall_eq']

theorem FirstUses.congr {α : Type} {same alike : α → α → Prop} {uses objects : List α}
    {positions : List Nat} (firstUses : FirstUses same uses objects positions)
    (agree : ∀ one ∈ uses, ∀ other ∈ uses, (same one other ↔ alike one other)) :
    FirstUses alike uses objects positions where
  increasing := firstUses.increasing
  listed := firstUses.listed
  first := by
    intro position use found
    rw [firstUses.first found]
    refine forall₂_congr fun earlier before => forall₂_congr fun other foundEarlier => ?_
    rw [agree other (List.mem_of_getElem? foundEarlier) use (List.mem_of_getElem? found)]

namespace Listing

mutual

/-- The nodes of a listing: itself first, then those of its children one after the other. -/
def nodes : Listing → List Listing
  | node name firstLine lines children =>
      node name firstLine lines children :: nodesAll children

/-- The nodes of several listings. -/
def nodesAll : List Listing → List Listing
  | [] => []
  | listing :: rest => listing.nodes ++ nodesAll rest

end

theorem nodesAll_eq_flatMap (listings : List Listing) :
    nodesAll listings = listings.flatMap nodes := by
  induction listings with
  | nil => rfl
  | cons listing rest induction => rw [nodesAll, induction, List.flatMap_cons]

theorem nodes_eq (tree : Listing) : tree.nodes = tree :: tree.children.flatMap nodes := by
  cases tree with
  | node name firstLine lines children => rw [nodes, nodesAll_eq_flatMap, Listing.children]

mutual

/-- The size of a listing counts the lines of all nodes. -/
theorem size_eq_sum : ∀ tree : Listing,
    tree.size = (tree.nodes.map fun node => node.lines.length).sum
  | node name firstLine lines children => by
      rw [size, nodes, List.map_cons, List.sum_cons, sizeAll_eq_sum children]
      rfl

theorem sizeAll_eq_sum : ∀ listings : List Listing,
    sizeAll listings = ((nodesAll listings).map fun node => node.lines.length).sum
  | [] => rfl
  | listing :: rest => by
      rw [sizeAll, nodesAll, List.map_append, List.sum_append, size_eq_sum listing,
        sizeAll_eq_sum rest]

end

end Listing

namespace CodeUnit

/-- Units without those of an earlier site are those at the positions where their site is new. -/
theorem exists_positions_distinctFrom (seen : List Nat) (units : List CodeUnit) :
    ∃ positions : List Nat, positions.Pairwise (· < ·) ∧
      positions.map (units[·]?) = (distinctFrom seen units).map some ∧
      ∀ {position : Nat} {unit : CodeUnit}, units[position]? = some unit →
        (position ∈ positions ↔ unit.site ∉ seen ∧
          ∀ earlier < position, ∀ other ∈ units[earlier]?, ¬other.site = unit.site) := by
  induction units generalizing seen with
  | nil => exact ⟨[], .nil, rfl, by simp⟩
  | cons head rest induction =>
      by_cases known : head.site ∈ seen
      · obtain ⟨positions, increasing, listed, first⟩ := induction seen
        refine ⟨positions.map (· + 1), ?_, ?_, ?_⟩
        · exact List.pairwise_map.mpr (increasing.imp Nat.succ_lt_succ)
        · rw [distinctFrom, if_pos known, List.map_map, ← listed]
          rfl
        · intro position unit found
          cases position with
          | zero =>
              cases found
              simp [known]
          | succ position =>
              have other : unit.site ∉ seen → ¬head.site = unit.site := by
                intro fresh same
                exact fresh (same ▸ known)
              have moved : position + 1 ∈ positions.map (· + 1) ↔ position ∈ positions := by simp
              rw [List.getElem?_cons_succ] at found
              rw [moved, first found, forall_earlier_cons]
              tauto
      · obtain ⟨positions, increasing, listed, first⟩ := induction (head.site :: seen)
        refine ⟨0 :: positions.map (· + 1), ?_, ?_, ?_⟩
        · refine List.Pairwise.cons (by simp) ?_
          exact List.pairwise_map.mpr (increasing.imp Nat.succ_lt_succ)
        · rw [distinctFrom, if_neg known, List.map_cons, List.map_cons, List.map_map, ← listed]
          rfl
        · intro position unit found
          cases position with
          | zero =>
              cases found
              simp [known]
          | succ position =>
              have moved : position + 1 ∈ 0 :: positions.map (· + 1) ↔ position ∈ positions := by
                simp
              rw [List.getElem?_cons_succ] at found
              rw [moved, first found, forall_earlier_cons, List.mem_cons]
              tauto

theorem exists_firstUses_loadedBy (lines : List ListingLine) :
    ∃ positions, FirstUses (fun one other : CodeUnit => one.site = other.site)
      (lines.filterMap ListingLine.code?) (loadedBy lines) positions := by
  obtain ⟨positions, increasing, listed, first⟩ :=
    exists_positions_distinctFrom [] (lines.filterMap ListingLine.code?)
  refine ⟨positions, increasing, listed, ?_⟩
  intro position unit found
  simpa using first found

/-- The units whose listings a listing holds. There are none if it is wanted without them. -/
def called (unit : CodeUnit) (options : ListingOptions) : List CodeUnit :=
  match unit.lines options with
  | .ok lines => if options.nested then loadedBy lines else []
  | .error _ => []

variable {unit : CodeUnit} {options : ListingOptions}

theorem called_of_lines {lines : List ListingLine} (listed : unit.lines options = .ok lines) :
    unit.called options = if options.nested then loadedBy lines else [] := by
  rw [called, listed]

theorem toValue_mem_consts_of_mem_called {child : CodeUnit}
    (member : child ∈ unit.called options) : child.toValue ∈ unit.consts := by
  cases listed : unit.lines options with
  | error error =>
      rw [called, listed] at member
      cases member
  | ok lines =>
      rw [called_of_lines listed] at member
      split at member
      · exact toValue_mem_consts_of_mem_loadedBy listed member
      · cases member

theorem sizeOf_lt_of_mem_called {child : CodeUnit} (member : child ∈ unit.called options) :
    sizeOf child < sizeOf unit :=
  sizeOf_lt_of_toValue_mem (toValue_mem_consts_of_mem_called member)

/-- Going from a unit to those that it loads ends. -/
theorem wellFounded_called (options : ListingOptions) :
    WellFounded fun child unit : CodeUnit => child ∈ unit.called options :=
  Subrelation.wf (fun member => sizeOf_lt_of_mem_called member) (measure sizeOf).wf

/-- A unit and the units that its listing comes to, in the order in which it does. -/
def visits (unit : CodeUnit) (options : ListingOptions) : List CodeUnit :=
  unit :: (unit.called options).attach.flatMap fun child => child.1.visits options
termination_by sizeOf unit
decreasing_by exact sizeOf_lt_of_mem_called child.2

theorem visits_eq (unit : CodeUnit) (options : ListingOptions) :
    unit.visits options =
      unit :: (unit.called options).flatMap fun child => child.visits options := by
  rw [visits]
  simp

/-- A visited unit is among the constants, the constants of units there, and so on. -/
theorem within_of_mem_visits (unit : CodeUnit) {visited : CodeUnit}
    (member : visited ∈ unit.visits options) :
    Relation.ReflTransGen Value.Holds unit.toValue visited.toValue := by
  rw [visits_eq] at member
  rcases List.mem_cons.mp member with rfl | later
  · exact .refl
  · obtain ⟨child, isCalled, later⟩ := List.mem_flatMap.mp later
    have holds : unit.toValue.Holds child.toValue := toValue_mem_consts_of_mem_called isCalled
    have smaller := sizeOf_lt_of_mem_called isCalled
    exact (within_of_mem_visits child later).head holds
termination_by sizeOf unit

/-- A listing that has the lines of its unit alone, and the listings alone of the units it calls. -/
structure ListedAs (options : ListingOptions) (unit : CodeUnit) (tree : Listing) : Prop where
  name : tree.name = unit.displayName
  firstLine : tree.firstLine = unit.firstLine
  lines : unit.lines options = .ok tree.lines
  children : List.Forall₂ (fun child listing => child.listing options = .ok listing)
    (unit.called options) tree.children

/-- Whether children are wanted or not, a listing holds those of the units that are called. -/
theorem listing_of_lines {lines : List ListingLine} (listed : unit.lines options = .ok lines) :
    unit.listing options = do
      let children ← (unit.called options).mapM fun child => child.listing options
      return .node unit.displayName unit.firstLine lines children := by
  rw [listing_eq, called_of_lines listed, listed]
  cases options.nested with
  | false => rfl
  | true => rfl

theorem listing_of_error {error : Error} (failed : unit.lines options = .error error) :
    unit.listing options = .error error := by
  rw [listing_eq, failed]
  rfl

theorem listing_eq_ok_iff {tree : Listing} :
    unit.listing options = .ok tree ↔ unit.ListedAs options tree := by
  cases listed : unit.lines options with
  | error error =>
      rw [listing_of_error listed]
      constructor
      · intro same
        cases same
      · intro listedAs
        have lines := listedAs.lines
        rw [listed] at lines
        cases lines
  | ok lines =>
      simp only [listing_of_lines listed, bind_eq_ok_iff, pure_eq_ok_iff, mapM_eq_ok_iff]
      constructor
      · intro ⟨children, each, same⟩
        subst same
        exact ⟨rfl, rfl, listed, each⟩
      · intro ⟨name, firstLine, lines, children⟩
        refine ⟨tree.children, children, ?_⟩
        cases tree with
        | node => simp_all [Listing.name, Listing.firstLine, Listing.lines, Listing.children]

/-- The nodes of a listing are the listings of the visited units, one for each visit. -/
theorem forall₂_visits_nodes (unit : CodeUnit) {tree : Listing}
    (listed : unit.listing options = .ok tree) :
    List.Forall₂ (fun visited node => visited.listing options = .ok node)
      (unit.visits options) tree.nodes := by
  have children := (listing_eq_ok_iff.mp listed).children
  have each : List.Forall₂ (fun (child : CodeUnit) (listing : Listing) =>
      List.Forall₂ (fun visited node => visited.listing options = .ok node)
        (child.visits options) listing.nodes) (unit.called options) tree.children := by
    rw [List.forall₂_iff_get] at children ⊢
    refine ⟨children.1, fun index inside insideTree => ?_⟩
    have smaller := sizeOf_lt_of_mem_called (List.get_mem (unit.called options) ⟨index, inside⟩)
    exact forall₂_visits_nodes _ (children.2 index inside insideTree)
  rw [visits_eq, Listing.nodes_eq]
  exact .cons listed (List.rel_flatMap each fun _ _ inner => inner)
termination_by sizeOf unit

theorem exists_lines_of_mem_visits {tree : Listing} {visited : CodeUnit}
    (listed : unit.listing options = .ok tree) (member : visited ∈ unit.visits options) :
    ∃ lines, visited.lines options = .ok lines := by
  have whole := mapM_eq_ok_iff.mpr (forall₂_visits_nodes unit listed)
  obtain ⟨node, listedAlone⟩ := exists_mapM_eq_ok_iff.mp ⟨_, whole⟩ visited member
  exact ⟨node.lines, (listing_eq_ok_iff.mp listedAlone).lines⟩

/-- A listing that fails does so because of the first visited unit that has no lines. -/
theorem exists_failing_visit (unit : CodeUnit) {error : Error}
    (failed : unit.listing options = .error error) :
    ∃ before failing after, unit.visits options = before ++ failing :: after ∧
      (∀ visited ∈ before, ∃ lines, visited.lines options = .ok lines) ∧
      failing.lines options = .error error := by
  cases listed : unit.lines options with
  | error other =>
      rw [listing_of_error listed] at failed
      cases failed
      exact ⟨[], unit, _, visits_eq unit options, by simp, listed⟩
  | ok lines =>
      rw [listing_of_lines listed] at failed
      cases whole : (unit.called options).mapM fun child => child.listing options with
      | ok children =>
          rw [whole] at failed
          cases failed
      | error other =>
          rw [whole] at failed
          cases failed
          obtain ⟨early, child, late, split, succeeded, failedChild⟩ := mapM_eq_error_iff.mp whole
          have smaller := sizeOf_lt_of_mem_called (show child ∈ unit.called options by simp [split])
          obtain ⟨before, failing, after, splitChild, linesBefore, failedLines⟩ :=
            exists_failing_visit child failedChild
          -- Visited before: the unit itself, the children before and a part of the failing one.
          refine ⟨unit :: (early.flatMap fun child => child.visits options) ++ before, failing,
            after ++ late.flatMap fun child => child.visits options, ?_, ?_, failedLines⟩
          · simp [visits_eq unit, split, splitChild]
          · simp only [List.cons_append, List.forall_mem_cons, List.forall_mem_append]
            refine ⟨⟨lines, listed⟩, ?_, linesBefore⟩
            intro visited member
            obtain ⟨sibling, isEarly, member⟩ := List.mem_flatMap.mp member
            obtain ⟨tree, listedSibling⟩ := succeeded sibling isEarly
            exact exists_lines_of_mem_visits listedSibling member
termination_by sizeOf unit

theorem listing_eq_error_iff {error : Error} :
    unit.listing options = .error error ↔
      ∃ before failing after, unit.visits options = before ++ failing :: after ∧
        (∀ visited ∈ before, ∃ lines, visited.lines options = .ok lines) ∧
        failing.lines options = .error error := by
  refine ⟨exists_failing_visit unit, ?_⟩
  intro first
  cases whole : unit.listing options with
  | ok tree =>
      obtain ⟨before, failing, after, split, -, failed⟩ := first
      have member : failing ∈ unit.visits options := by simp [split]
      obtain ⟨lines, succeeded⟩ := exists_lines_of_mem_visits whole member
      rw [failed] at succeeded
      cases succeeded
  | error other =>
      -- There is only one first unit without lines.
      have own := mapM_eq_error_iff.mpr (exists_failing_visit unit whole)
      cases (mapM_eq_error_iff.mpr first).symm.trans own
      rfl

/-- A listing succeeds if each visited unit has lines. -/
theorem exists_listing_iff :
    (∃ tree, unit.listing options = .ok tree) ↔
      ∀ visited ∈ unit.visits options, ∃ lines, visited.lines options = .ok lines := by
  constructor
  · intro ⟨tree, listed⟩ visited member
    exact exists_lines_of_mem_visits listed member
  · intro each
    cases whole : unit.listing options with
    | ok tree => exact ⟨tree, rfl⟩
    | error error =>
        obtain ⟨before, failing, after, split, -, failed⟩ := exists_failing_visit unit whole
        obtain ⟨lines, succeeded⟩ := each failing (by simp [split])
        rw [failed] at succeeded
        cases succeeded

end CodeUnit
end CodeScope

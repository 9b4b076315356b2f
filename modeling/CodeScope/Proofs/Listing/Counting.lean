import CodeScope.Proofs.Listing.Objects
import Mathlib.Algebra.Order.BigOperators.Group.List
import Mathlib.Algebra.Order.Group.Nat
import Mathlib.Data.List.Perm.Subperm

/-!
# Numbers of code units

A summary counts the code units in the constants of a unit, in the constants of those, and so on,
wherever they stand. A nested listing has a node for each visit, and visits an object that a unit
loads once. So a listing has at most as many nodes as the summary counts units, and as many exactly
if each unit on the way loads every code unit of its constants and holds none of them twice.
-/

namespace CodeScope

section Sums

variable {α : Type} {few many : α → Nat} {items some : List α}

theorem sum_map_eq_iff (bounded : ∀ item ∈ items, few item ≤ many item) :
    (items.map few).sum = (items.map many).sum ↔ ∀ item ∈ items, few item = many item := by
  induction items with
  | nil => simp
  | cons item rest induction =>
      obtain ⟨here, later⟩ := List.forall_mem_cons.mp bounded
      have others := List.sum_le_sum later
      rw [List.map_cons, List.map_cons, List.sum_cons, List.sum_cons, List.forall_mem_cons,
        ← induction later]
      omega

theorem exists_perm_append_of_subperm (within : some.Subperm items) :
    ∃ rest, items.Perm (some ++ rest) := by
  obtain ⟨same, permuted, sublist⟩ := within
  obtain ⟨rest, whole⟩ := sublist.exists_perm_append
  exact ⟨rest, whole.trans (permuted.append_right rest)⟩

theorem sum_map_le_of_subperm (within : some.Subperm items)
    (bounded : ∀ item ∈ some, few item ≤ many item) :
    (some.map few).sum ≤ (items.map many).sum := by
  obtain ⟨rest, whole⟩ := exists_perm_append_of_subperm within
  have sums := (whole.map many).sum_eq
  rw [List.map_append, List.sum_append] at sums
  have part := List.sum_le_sum bounded
  omega

/-- Smaller terms of some items give the whole sum only if no item and no term is missing. -/
theorem sum_map_eq_iff_of_subperm (within : some.Subperm items)
    (bounded : ∀ item ∈ some, few item ≤ many item) (positive : ∀ item, 0 < many item) :
    (some.map few).sum = (items.map many).sum ↔
      some.Perm items ∧ ∀ item ∈ some, few item = many item := by
  obtain ⟨rest, whole⟩ := exists_perm_append_of_subperm within
  have sums := (whole.map many).sum_eq
  rw [List.map_append, List.sum_append] at sums
  have part := List.sum_le_sum bounded
  have terms := sum_map_eq_iff bounded
  constructor
  · intro same
    have none : (rest.map many).sum = 0 := by omega
    have empty : rest = [] := by
      cases rest with
      | nil => rfl
      | cons item rest =>
          have isPositive := positive item
          rw [List.map_cons, List.sum_cons] at none
          omega
    rw [empty, List.append_nil] at whole
    exact ⟨whole.symm, terms.mp (by omega)⟩
  · intro ⟨permuted, equal⟩
    rw [terms.mpr equal]
    exact (permuted.map many).sum_eq

end Sums

namespace CodeUnit

variable {unit child : CodeUnit} {options : ListingOptions}

theorem mem_nested_iff : child ∈ unit.nested ↔ child.toValue ∈ unit.consts := by
  rw [nested, List.mem_filterMap]
  constructor
  · intro ⟨value, member, isUnit⟩
    rw [Value.code?_eq_some_iff] at isUnit
    exact isUnit ▸ member
  · intro member
    exact ⟨child.toValue, member, rfl⟩

theorem countAmong_eq_sum (consts : List Value) :
    countAmong consts = ((consts.filterMap Value.code?).map count).sum := by
  induction consts with
  | nil => rw [countAmong, List.filterMap_nil, List.map_nil, List.sum_nil]
  | cons value rest induction =>
      rw [countAmong, induction]
      cases value with
      | code info consts =>
          have isUnit : (Value.code info consts).code? = some ⟨info, consts⟩ := rfl
          rw [List.filterMap_cons_some isUnit, List.map_cons, List.sum_cons, countIn, count]
      | _ => exact Nat.zero_add _

/-- A unit counts for one, and each code unit among its constants for what it counts itself. -/
theorem count_eq_sum (unit : CodeUnit) : unit.count = 1 + (unit.nested.map count).sum := by
  rw [count, countAmong_eq_sum, nested]

theorem count_pos (unit : CodeUnit) : 0 < unit.count := by
  rw [count_eq_sum]
  exact Nat.add_pos_left Nat.one_pos _

theorem length_visits_eq_sum (unit : CodeUnit) (options : ListingOptions) :
    (unit.visits options).length =
      1 + ((unit.called options).map fun child => (child.visits options).length).sum := by
  rw [visits_eq, List.length_cons, List.length_flatMap, Nat.add_comm]

section Distinct

variable {units : List CodeUnit} {seen : List Nat}

theorem site_notMem_of_mem_distinctFrom (member : unit ∈ distinctFrom seen units) :
    unit.site ∉ seen := by
  induction units generalizing seen with
  | nil => cases member
  | cons head rest induction =>
      rw [distinctFrom] at member
      split at member
      · exact induction member
      · next fresh =>
          rcases List.mem_cons.mp member with rfl | later
          · exact fresh
          · intro known
            exact induction later (List.mem_cons_of_mem _ known)

theorem nodup_distinctFrom (seen : List Nat) (units : List CodeUnit) :
    (distinctFrom seen units).Nodup := by
  induction units generalizing seen with
  | nil => exact .nil
  | cons head rest induction =>
      rw [distinctFrom]
      split
      · exact induction seen
      · refine List.nodup_cons.mpr ⟨?_, induction _⟩
        intro again
        exact site_notMem_of_mem_distinctFrom again List.mem_cons_self

theorem exists_mem_distinctFrom (member : unit ∈ units) (fresh : unit.site ∉ seen) :
    ∃ kept ∈ distinctFrom seen units, kept.site = unit.site := by
  induction units generalizing seen with
  | nil => cases member
  | cons head rest induction =>
      rw [distinctFrom]
      rcases List.mem_cons.mp member with rfl | later
      · rw [if_neg fresh]
        exact ⟨unit, List.mem_cons_self, rfl⟩
      · split
        · exact induction later fresh
        · by_cases same : unit.site = head.site
          · exact ⟨head, List.mem_cons_self, same.symm⟩
          · have stillFresh : unit.site ∉ head.site :: seen := by simp [same, fresh]
            obtain ⟨kept, isKept, sameSite⟩ := induction later stillFresh
            exact ⟨kept, List.mem_cons_of_mem _ isKept, sameSite⟩

end Distinct

theorem nodup_called (unit : CodeUnit) (options : ListingOptions) :
    (unit.called options).Nodup := by
  rw [called]
  split
  · split
    · exact nodup_distinctFrom _ _
    · exact .nil
  · exact .nil

/-- A unit calls each code unit among its constants at most once. -/
theorem subperm_called (unit : CodeUnit) (options : ListingOptions) :
    (unit.called options).Subperm unit.nested :=
  (nodup_called unit options).subperm fun _ isCalled =>
    mem_nested_iff.mpr (toValue_mem_consts_of_mem_called isCalled)

theorem length_visits_le_count (unit : CodeUnit) (options : ListingOptions) :
    (unit.visits options).length ≤ unit.count := by
  rw [length_visits_eq_sum, count_eq_sum]
  refine Nat.add_le_add_left (sum_map_le_of_subperm (subperm_called unit options) ?_) 1
  intro child isCalled
  have smaller := sizeOf_lt_of_mem_called isCalled
  exact length_visits_le_count child options
termination_by sizeOf unit

/-- A code unit is among the constants of another one. -/
def Pools (unit child : CodeUnit) : Prop := child ∈ unit.nested

/-- The numbers agree if each unit that is reached through constants calls all of its own. -/
theorem length_visits_eq_count_iff (unit : CodeUnit) (options : ListingOptions) :
    (unit.visits options).length = unit.count ↔
      ∀ inside, Relation.ReflTransGen Pools unit inside →
        (inside.called options).Perm inside.nested := by
  have children : ∀ child ∈ unit.called options,
      (child.visits options).length = child.count ↔
        ∀ inside, Relation.ReflTransGen Pools child inside →
          (inside.called options).Perm inside.nested := by
    intro child isCalled
    have smaller := sizeOf_lt_of_mem_called isCalled
    exact length_visits_eq_count_iff child options
  have sums := sum_map_eq_iff_of_subperm (subperm_called unit options)
    (fun child _ => length_visits_le_count child options) count_pos
  rw [length_visits_eq_sum, count_eq_sum, Nat.add_left_cancel_iff, sums]
  constructor
  · intro ⟨permuted, equal⟩ inside reached
    rcases reached.cases_head with rfl | ⟨child, isPooled, reached⟩
    · exact permuted
    · have isCalled := permuted.mem_iff.mpr isPooled
      exact (children child isCalled).mp (equal child isCalled) inside reached
  · intro each
    refine ⟨each unit .refl, fun child isCalled => (children child isCalled).mpr ?_⟩
    intro inside reached
    have isPooled : unit.Pools child := (subperm_called unit options).subset isCalled
    exact each inside (reached.head isPooled)
termination_by sizeOf unit

/--
A unit that loads every code unit of its constants, and holds each of them in one place. Which units
are the same is told by a relation.
-/
structure LoadsEach (same : CodeUnit → CodeUnit → Prop) (options : ListingOptions)
    (unit : CodeUnit) : Prop where
  loaded : ∀ child : CodeUnit, child.toValue ∈ unit.consts →
    ∃ lines, unit.lines options = .ok lines ∧
      ∃ line ∈ lines, line.operand = some (.const child.toValue)
  single : ∀ (place other : Nat) (one another : CodeUnit),
    unit.consts[place]? = some one.toValue → unit.consts[other]? = some another.toValue →
      same one another → place = other

/-- No code unit is twice among constants if none of their places hold the same. -/
theorem nodup_nested_iff :
    unit.nested.Nodup ↔ ∀ (place other : Nat) (one another : CodeUnit),
      unit.consts[place]? = some one.toValue → unit.consts[other]? = some another.toValue →
        one = another → place = other := by
  rw [nested, List.Nodup, List.pairwise_filterMap, List.pairwise_iff_getElem]
  constructor
  · intro distinct place other one another found foundOther same
    subst same
    obtain ⟨inside, here⟩ := List.getElem?_eq_some_iff.mp found
    obtain ⟨insideOther, there⟩ := List.getElem?_eq_some_iff.mp foundOther
    rcases Nat.lt_trichotomy place other with less | equal | more
    · exact absurd rfl (distinct place other inside insideOther less one (here ▸ rfl) one
        (there ▸ rfl))
    · exact equal
    · exact absurd rfl (distinct other place insideOther inside more one (there ▸ rfl) one
        (here ▸ rfl))
  · intro single place other inside insideOther less one isOne another isAnother same
    rw [Value.code?_eq_some_iff] at isOne isAnother
    have found : unit.consts[place]? = some one.toValue := by
      rw [← isOne, List.getElem?_eq_getElem inside]
    have foundOther : unit.consts[other]? = some another.toValue := by
      rw [← isAnother, List.getElem?_eq_getElem insideOther]
    exact Nat.ne_of_lt less (single place other one another found foundOther same)

/-- Where sites tell code units apart, a unit calls all its constants if it loads each of them. -/
theorem perm_called_iff {same : CodeUnit → CodeUnit → Prop} (nested : options.nested = true)
    (tells : ∀ one ∈ unit.nested, ∀ another ∈ unit.nested,
      (same one another ↔ one = another) ∧ (one.site = another.site → one = another)) :
    (unit.called options).Perm unit.nested ↔ unit.LoadsEach same options := by
  have places : (∀ (place other : Nat) (one another : CodeUnit),
      unit.consts[place]? = some one.toValue → unit.consts[other]? = some another.toValue →
        same one another → place = other) ↔ unit.nested.Nodup := by
    rw [nodup_nested_iff]
    refine forall₂_congr fun place other => forall₂_congr fun one another =>
      forall₂_congr fun found foundOther => ?_
    rw [(tells one (mem_nested_iff.mpr (List.mem_of_getElem? found)) another
      (mem_nested_iff.mpr (List.mem_of_getElem? foundOther))).1]
  constructor
  · intro permuted
    refine ⟨fun child member => ?_, places.mpr (permuted.nodup_iff.mp (nodup_called unit options))⟩
    have isCalled := permuted.mem_iff.mpr (mem_nested_iff.mpr member)
    cases listed : unit.lines options with
    | error error =>
        rw [called, listed] at isCalled
        cases isCalled
    | ok lines =>
        rw [called_of_lines listed, if_pos nested] at isCalled
        obtain ⟨line, isLine, loads⟩ := List.mem_filterMap.mp (mem_of_mem_distinctFrom isCalled)
        refine ⟨lines, rfl, line, isLine, ?_⟩
        rw [ListingLine.code?] at loads
        split at loads
        · next value operand => rw [operand, Value.code?_eq_some_iff.mp loads]
        · cases loads
  · intro loadsEach
    have nodup := places.mp loadsEach.single
    refine (List.perm_ext_iff_of_nodup (nodup_called unit options) nodup).mpr fun child => ?_
    refine ⟨fun isCalled => (subperm_called unit options).subset isCalled, fun isPooled => ?_⟩
    obtain ⟨lines, listed, line, isLine, operand⟩ :=
      loadsEach.loaded child (mem_nested_iff.mp isPooled)
    have loads : line.code? = some child := by
      rw [ListingLine.code?, operand]
      rfl
    obtain ⟨kept, isKept, sameSite⟩ := exists_mem_distinctFrom
      (List.mem_filterMap.mpr ⟨line, isLine, loads⟩) List.not_mem_nil
    have isCalled : kept ∈ unit.called options := by
      rw [called_of_lines listed, if_pos nested]
      exact isKept
    have pooled := (subperm_called unit options).subset isCalled
    exact (tells kept pooled child isPooled).2 sameSite ▸ isCalled

theorem holds_of_pools (pools : unit.Pools child) : unit.toValue.Holds child.toValue :=
  mem_nested_iff.mp pools

/--
The nested listing of a unit that has been loaded has at most as many nodes as its summary counts
units, and as many exactly if each unit that is reached through constants loads every code unit of
its constants and holds no object twice.
-/
theorem length_nodes_of_loaded {version : Version} {profile : Profile} {stream : Bytes}
    {value : Value} {tree : Listing} (supported : Profile.ofVersion version = .ok profile)
    (loaded : LoadedFrom version stream value)
    (within : Relation.ReflTransGen Value.Holds value unit.toValue)
    (nested : options.nested = true) (listed : unit.listing options = .ok tree) :
    tree.nodes.length ≤ unit.count ∧
      (tree.nodes.length = unit.count ↔
        ∀ inside, Relation.ReflTransGen Pools unit inside →
          inside.LoadsEach (SameObject profile (Call.events profile [.topLevel] (.start stream)))
            options) := by
  obtain ⟨other, next, same, read⟩ := Value.ofBytes_eq_ok loaded.ofBytes
  cases supported.symm.trans same
  have visited : tree.nodes.length = (unit.visits options).length :=
    (forall₂_visits_nodes unit listed).length_eq.symm
  rw [visited, length_visits_eq_count_iff]
  refine ⟨length_visits_le_count unit options, ?_⟩
  refine forall₂_congr fun inside reached => perm_called_iff nested ?_
  have withinInside : Relation.ReflTransGen Value.Holds value inside.toValue :=
    within.trans (reached.lift toValue fun _ _ => holds_of_pools)
  intro one isPooled another isPooledToo
  have withinOne := withinInside.tail (holds_of_pools isPooled)
  have withinOther := withinInside.tail (holds_of_pools isPooledToo)
  have sites := sameObject_iff read withinOne withinOther
  have single : one.SameObject profile (Call.events profile [.topLevel] (.start stream)) another →
      one = another := by
    intro ⟨index, stems, stemsOther⟩
    exact stems.unique stemsOther
  refine ⟨⟨single, fun equal => sites.mpr (equal ▸ rfl)⟩, fun equal => single (sites.mpr equal)⟩

theorem length_nodes_of_loaded_sharedAndAlike :
    Profile.ofVersion ⟨3, 8⟩ = .ok Profile.version38 ∧
      ∃ (unit : CodeUnit) (tree : Listing), LoadedFrom ⟨3, 8⟩ sharedAndAlike unit.toValue ∧
        unit.listing ⟨true, false⟩ = .ok tree ∧ tree.nodes.length = 3 ∧ unit.count = 4 ∧
        ¬∀ inside, Relation.ReflTransGen Pools unit inside →
          inside.LoadsEach (SameObject Profile.version38
            (Call.events Profile.version38 [.topLevel] (.start sharedAndAlike))) ⟨true, false⟩ := by
  have evaluated : ((Value.ofBytes ⟨3, 8⟩ sharedAndAlike).toOption.bind Value.code?).map
      (fun unit => (unit.count, (unit.lines ⟨true, false⟩).toOption.isSome,
        (unit.called ⟨true, false⟩).map fun child =>
          ((child.lines ⟨true, false⟩).toOption.isSome, (child.called ⟨true, false⟩).length))) =
      some (4, true, [(true, 0), (true, 0)]) := by
    decide +kernel
  obtain ⟨unit, isUnit, evaluated⟩ := Option.map_eq_some_iff.mp evaluated
  simp only [Prod.mk.injEq] at evaluated
  obtain ⟨counted, hasLines, children⟩ := evaluated
  obtain ⟨value, succeeded, isUnit⟩ := Option.bind_eq_some_iff.mp isUnit
  rw [Value.code?_eq_some_iff] at isUnit
  subst isUnit
  have loaded : LoadedFrom ⟨3, 8⟩ sharedAndAlike unit.toValue :=
    .stream (eq_ok_of_toOption succeeded)
  -- The children load nothing, so the visits are the unit and its children.
  have leaf : ∀ child ∈ unit.called ⟨true, false⟩,
      (child.lines ⟨true, false⟩).toOption.isSome ∧ child.visits ⟨true, false⟩ = [child] := by
    intro child isCalled
    have listed := List.mem_map_of_mem (f := fun child : CodeUnit =>
      ((child.lines ⟨true, false⟩).toOption.isSome, (child.called ⟨true, false⟩).length)) isCalled
    rw [children] at listed
    simp only [List.mem_cons, List.not_mem_nil, or_false, or_self, Prod.mk.injEq] at listed
    rw [visits_eq, List.eq_nil_of_length_eq_zero listed.2]
    exact ⟨listed.1, rfl⟩
  have visited : unit.visits ⟨true, false⟩ = unit :: unit.called ⟨true, false⟩ := by
    rw [visits_eq, List.flatMap_congr fun child isCalled => (leaf child isCalled).2,
      List.flatMap_singleton']
  have two : (unit.called ⟨true, false⟩).length = 2 := by
    simpa using congrArg List.length children
  have listable : ∀ node ∈ unit.visits ⟨true, false⟩,
      ∃ lines, node.lines ⟨true, false⟩ = .ok lines := by
    rw [visited]
    refine List.forall_mem_cons.mpr ⟨?_, fun child isCalled => ?_⟩
    · obtain ⟨lines, listed⟩ := Option.isSome_iff_exists.mp hasLines
      exact ⟨lines, eq_ok_of_toOption listed⟩
    · obtain ⟨lines, listed⟩ := Option.isSome_iff_exists.mp (leaf child isCalled).1
      exact ⟨lines, eq_ok_of_toOption listed⟩
  obtain ⟨tree, listed⟩ := exists_listing_iff.mpr listable
  have three : tree.nodes.length = 3 := by
    rw [← (forall₂_visits_nodes unit listed).length_eq, visited, List.length_cons, two]
  obtain ⟨-, exact⟩ := length_nodes_of_loaded rfl loaded .refl rfl listed
  rw [three, counted] at exact
  exact ⟨rfl, unit, tree, loaded, listed, three, counted, fun each => by cases exact.mpr each⟩

end CodeUnit
end CodeScope

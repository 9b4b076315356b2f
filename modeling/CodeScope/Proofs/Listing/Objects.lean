import CodeScope.Proofs.Listing.Visits
import CodeScope.Proofs.Marshal.Sites
import CodeScope.Proofs.Marshal.Units

/-!
# Code units as objects

A nested listing shows each code unit that a unit loads once, however often it is loaded. Which
units are one is told by the stream: those that stem from one tag, in place or by references. Units
that are written twice are two, even if they are equal.
-/

namespace CodeScope

/-- What has been loaded for a version, and the stream that it was read from. -/
inductive LoadedFrom (version : Version) (stream : Bytes) : Value → Prop
  | stream {value : Value} (loaded : Value.ofBytes version stream = .ok value) :
      LoadedFrom version stream value
  | image {data : Bytes} {image : Image} (loaded : Image.ofBytes data = .ok image)
      (same : image.header.version = version) (behind : data.drop Header.size = stream) :
      LoadedFrom version stream image.code.toValue

theorem LoadedFrom.ofBytes {version : Version} {stream : Bytes} {value : Value}
    (loaded : LoadedFrom version stream value) : Value.ofBytes version stream = .ok value := by
  cases loaded with
  | stream loaded => exact loaded
  | image loaded same behind =>
      subst same behind
      exact Image.stream_of_ofBytes loaded

namespace CodeUnit

/--
A nested listing of a code unit that visits objects: the code units inside a unit, told apart by the
events that they stem from.
-/
structure ListsObjects (profile : Profile) (events : List Event) (options : ListingOptions)
    (unit : CodeUnit) : Prop where
  /-- Every code unit inside stems from one event, and no two units from the same. -/
  origin : ∀ inside : CodeUnit, Relation.ReflTransGen Value.Holds unit.toValue inside.toValue →
    ∃! index, inside.StemsFrom profile events index
  single : ∀ one other : CodeUnit, one.SameObject profile events other → one = other
  /-- A unit is visited before those that it calls, and these are visited one after the other. -/
  preorder : ∀ visited : CodeUnit, visited.visits options =
    visited :: (visited.called options).flatMap fun child => child.visits options
  ends : WellFounded fun child visited : CodeUnit => child ∈ visited.called options
  /-- A unit calls the objects among what its lines load, in the order of their first use. -/
  objects : ∀ visited ∈ unit.visits options, ∀ lines, visited.lines options = .ok lines →
    ∃ positions, FirstUses (SameObject profile events) (lines.filterMap ListingLine.code?)
      (visited.called options) positions
  /-- Every node is what its unit has alone, with the listings of the units that it calls. -/
  nodes : ∀ tree, unit.listing options = .ok tree →
    List.Forall₂ (fun visited node =>
      visited.listing options = .ok node ∧ visited.ListedAs options node)
      (unit.visits options) tree.nodes
  size : ∀ tree, unit.listing options = .ok tree →
    tree.size = (tree.nodes.map fun node => node.lines.length).sum
  /-- A listing fails as the first visited unit without lines does. -/
  failure : ∀ error, unit.listing options = .error error ↔
    ∃ before failing after, unit.visits options = before ++ failing :: after ∧
      (∀ visited ∈ before, ∃ lines, visited.lines options = .ok lines) ∧
      failing.lines options = .error error

/-- The units that a unit of a stream calls are the objects among those that it loads. -/
theorem exists_firstUses_called {profile : Profile} {stream : Bytes} {value : Value}
    {next : ReaderState} {options : ListingOptions} {unit : CodeUnit} {lines : List ListingLine}
    (read : Reading.topLevel profile (.start stream) = .ok value next)
    (within : Relation.ReflTransGen Value.Holds value unit.toValue) (nested : options.nested = true)
    (listed : unit.lines options = .ok lines) :
    ∃ positions,
      FirstUses (SameObject profile (Call.events profile [.topLevel] (.start stream)))
        (lines.filterMap ListingLine.code?) (unit.called options) positions := by
  have inside : ∀ use ∈ lines.filterMap ListingLine.code?,
      Relation.ReflTransGen Value.Holds value use.toValue := by
    intro use isUsed
    obtain ⟨line, member, loads⟩ := List.mem_filterMap.mp isUsed
    exact within.tail (toValue_mem_consts_of_code? listed member loads)
  obtain ⟨positions, firstUses⟩ := exists_firstUses_loadedBy lines
  rw [called_of_lines listed, if_pos nested]
  refine ⟨positions, firstUses.congr fun one isUsed other isUsedToo => ?_⟩
  exact (sameObject_iff read (inside one isUsed) (inside other isUsedToo)).symm

/-- Every code unit of what has been loaded has nested listings that visit objects. -/
theorem listsObjects_of_loaded {version : Version} {profile : Profile} {stream : Bytes}
    {value : Value} {unit : CodeUnit} {options : ListingOptions}
    (supported : Profile.ofVersion version = .ok profile)
    (loaded : LoadedFrom version stream value)
    (within : Relation.ReflTransGen Value.Holds value unit.toValue)
    (nested : options.nested = true) :
    unit.ListsObjects profile (Call.events profile [.topLevel] (.start stream)) options := by
  obtain ⟨other, next, same, read⟩ := Value.ofBytes_eq_ok loaded.ofBytes
  cases supported.symm.trans same
  exact {
    origin := fun inside isInside => existsUnique_stemsFrom read (within.trans isInside)
    single := by
      intro one other same
      obtain ⟨index, stems, stemsOther⟩ := same
      exact stems.unique stemsOther
    preorder := fun visited => visits_eq visited options
    ends := wellFounded_called options
    objects := fun visited member lines listed => exists_firstUses_called read
      (within.trans (within_of_mem_visits unit member)) nested listed
    nodes := fun tree listed => (forall₂_visits_nodes unit listed).imp fun _ _ alone =>
      ⟨alone, listing_eq_ok_iff.mp alone⟩
    size := fun tree _ => tree.size_eq_sum
    failure := fun error => listing_eq_error_iff }

/-- What stands behind the tag of a code unit with no other tables than its code and constants. -/
def bareUnit (code consts : Bytes) : Bytes :=
  List.replicate 24 0 ++ 0x73 :: UInt8.ofNat code.length :: 0 :: 0 :: 0 :: code ++ consts ++
    [0x29, 0, 0x29, 0, 0x29, 0, 0x29, 0, 0x7A, 0, 0x7A, 0, 1, 0, 0, 0, 0x73, 0, 0, 0, 0]

/-- A unit that loads another unit, a reference to it, one written alike and the first again. -/
def sharedAndAlike : Bytes :=
  0x63 :: bareUnit [100, 0, 100, 1, 100, 2, 100, 0, 83, 0]
    ([0x29, 3] ++ 0xE3 :: bareUnit [83, 0] [0x29, 0] ++ [0x72, 0, 0, 0, 0] ++
      0x63 :: bareUnit [83, 0] [0x29, 0])

theorem listsObjects_of_loaded_sharedAndAlike :
    Profile.ofVersion ⟨3, 8⟩ = .ok Profile.version38 ∧
      ∃ unit : CodeUnit, LoadedFrom ⟨3, 8⟩ sharedAndAlike unit.toValue ∧
        ((unit.called ⟨true, false⟩).map fun child => child.site) = [42, 102] ∧
        unit.ListsObjects Profile.version38
          (Call.events Profile.version38 [.topLevel] (.start sharedAndAlike)) ⟨true, false⟩ := by
  have evaluated : ((Value.ofBytes ⟨3, 8⟩ sharedAndAlike).toOption.bind Value.code?).map
      (fun unit => (unit.called ⟨true, false⟩).map fun child => child.site) = some [42, 102] := by
    decide +kernel
  obtain ⟨unit, isUnit, called⟩ := Option.map_eq_some_iff.mp evaluated
  obtain ⟨value, succeeded, isUnit⟩ := Option.bind_eq_some_iff.mp isUnit
  cases value with
  | code info consts =>
      cases isUnit
      have loaded : LoadedFrom ⟨3, 8⟩ sharedAndAlike (CodeUnit.toValue ⟨info, consts⟩) :=
        .stream (eq_ok_of_toOption succeeded)
      exact ⟨rfl, _, loaded, called, listsObjects_of_loaded rfl loaded .refl rfl⟩
  | _ => cases isUnit

end CodeUnit
end CodeScope

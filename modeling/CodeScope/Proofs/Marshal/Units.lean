import CodeScope.Handler
import CodeScope.Image.Basic
import CodeScope.Proofs.Listing.Lines
import CodeScope.Proofs.Listing.Visits
import CodeScope.Proofs.Marshal.Counterpart
import CodeScope.Proofs.Position.Faults
import CodeScope.Proofs.Version.Profile
import Mathlib.Logic.Relation

/-!
# Code units that have been loaded

A code unit is well formed if its tables fit the layout of its version and each other. Every unit
that is read is so, and a value that is built of values with well-formed units only is another such
value. As a slot holds what has been read, this is true of the units behind references as well. A
unit that is well formed belongs to a supported version, and so do the units that it loads.
-/

namespace CodeScope

theorem Locals.length_ofKind {kind : VariableKind} {names : List String} {kinds : Bytes}
    (paired : kinds.length = names.length) :
    (ofKind kind names kinds).length = kinds.countP fun byte => kind.isIn byte := by
  induction names generalizing kinds with
  | nil =>
      rw [List.eq_nil_of_length_eq_zero paired]
      rfl
  | cons name names induction =>
      cases kinds with
      | nil => cases paired
      | cons byte kinds =>
          have others := induction (Nat.succ.inj paired)
          simp only [ofKind] at others
          simp only [ofKind, List.zip_cons_cons, List.filterMap_cons, List.countP_cons]
          split <;> simp_all

/-- A code unit whose tables fit the layout of its version and each other. -/
structure CodeUnit.WellFormed (profile : Profile) (unit : CodeUnit) : Prop where
  version : unit.version = profile.version
  layout : unit.LaidOut profile.layout
  nlocals : profile.layout = .unified → unit.nlocals = unit.locals.varnames.length
  counts : ∀ count ∈ [unit.argcount, unit.posonlyargcount, unit.kwonlyargcount, unit.nlocals,
    unit.stacksize], count ≤ 2 ^ 31 - 1

namespace Value

/-- A value inside which all code units are well formed, and all byte strings fit. -/
def Sane (profile : Profile) (value : Value) : Prop :=
  ∀ node, Relation.ReflTransGen Holds value node →
    node.Fits ∧ ∀ unit : CodeUnit, node.code? = some unit → unit.WellFormed profile

variable {profile : Profile}

/-- A value is sane if its parts are and it is so by itself. -/
theorem Sane.ofParts {value : Value} (fits : value.Fits)
    (unit : ∀ unit : CodeUnit, value.code? = some unit → unit.WellFormed profile)
    (parts : ∀ part ∈ value.parts, part.Sane profile) : value.Sane profile := by
  intro node within
  rcases within.cases_head with rfl | ⟨part, member, within⟩
  · exact ⟨fits, unit⟩
  · exact parts part member node within

theorem Sane.bytes_lt {data : Bytes} (sane : (bytes data).Sane profile) : data.length < 2 ^ 31 :=
  (sane (bytes data) .refl).1

end Value

/-- A unit that is put together from sane values is well formed. -/
theorem CodeUnit.Assembled.wellFormed {profile : Profile} {unit : CodeUnit}
    (assembled : unit.Assembled profile (Value.Sane profile)) : unit.WellFormed profile where
  version := assembled.version
  layout := assembled.layout
  nlocals := by
    intro layout
    have laidOut := assembled.layout
    rw [layout] at laidOut
    cases laidOut with
    | unified tables paired counted qualname =>
        rw [counted, tables, Locals.varnames, Locals.length_ofKind paired]
  counts := by
    have small : unit.nlocals < 2 ^ 31 := by
      rcases assembled.nlocals with small | ⟨kinds, sane, bounded⟩
      · exact small
      · exact Nat.lt_of_le_of_lt bounded sane.bytes_lt
    have others := assembled.counts
    simp only [List.forall_mem_cons, List.not_mem_nil, false_implies, implies_true, and_true]
      at others ⊢
    omega

theorem CodeUnit.Assembled.sane {profile : Profile} {unit : CodeUnit}
    (assembled : unit.Assembled profile (Value.Sane profile)) : unit.toValue.Sane profile := by
  have own : ∀ other : CodeUnit, unit.toValue.code? = some other → other.WellFormed profile := by
    intro other isUnit
    cases isUnit
    exact assembled.wellFormed
  exact Value.Sane.ofParts trivial own assembled.consts

theorem Value.inherited_sane (profile : Profile) :
    Inherited profile (Sane profile) (Sane profile) where
  parts sane part member node within := sane node (within.head member)
  node plain fits parts := by
    apply Sane.ofParts fits _ parts
    intro unit isUnit
    rw [plain] at isUnit
    cases isUnit
  unit assembled := assembled.sane

/-- What is loaded has every property that values have from their parts. -/
theorem Value.Inherited.ofBytes {version : Version} {profile : Profile} {holds : Value → Prop}
    {data : Bytes} {value : Value} (inherited : Inherited profile holds holds)
    (supported : Profile.ofVersion version = .ok profile)
    (loaded : Value.ofBytes version data = .ok value) : holds value := by
  obtain ⟨other, next, same, read⟩ := ofBytes_eq_ok loaded
  cases supported.symm.trans same
  have parallel : Reading.Parallel id [] holds (Reading.topLevel profile)
      (Reading.topLevel profile) fun one other => other = one.relabel id ∧ holds one :=
    .topLevel inherited rfl rfl
  have paired := parallel (.start data) (ReaderState.stores_start data)
  rw [read] at paired
  generalize Reading.topLevel profile _ = outcome at paired
  cases paired with
  | ok ended => exact ended.2

/-- An error that blames the version. -/
def Error.BlamesVersion (error : Error) : Prop :=
  ∃ version, error = .unsupportedVersion version

theorem PositionFault.not_blamesVersion {error : Error} (fault : PositionFault error) :
    ¬error.BlamesVersion := by
  intro blames
  obtain ⟨version, rfl⟩ := blames
  cases fault

namespace CodeUnit

variable {profile : Profile} {unit : CodeUnit}

/-- An instruction without a line does not lack it because of its version. -/
theorem not_blamesVersion_of_lines {options : ListingOptions} {error : Error}
    (supported : Profile.ofVersion unit.version = .ok profile)
    (failed : unit.lines options = .error error) : ¬error.BlamesVersion := by
  rw [lines_eq_mapM supported (table_of_supported supported)] at failed
  obtain ⟨before, failing, after, split, succeeded, failed⟩ := mapM_eq_error_iff.mp failed
  cases lineAlone_eq_error_iff.mp failed with
  | opcode missing => simp [Error.BlamesVersion]
  | position known lost => exact (PositionCursor.fault_of_get lost).not_blamesVersion

/-- If a unit and the units inside belong to a supported version, no listing of it lacks one. -/
theorem not_blamesVersion_of_listing (unit : CodeUnit) {options : ListingOptions} {error : Error}
    (supported : ∀ node : CodeUnit, Relation.ReflTransGen Value.Holds unit.toValue node.toValue →
      Profile.ofVersion node.version = .ok profile)
    (failed : unit.listing options = .error error) : ¬error.BlamesVersion := by
  obtain ⟨before, failing, after, split, -, failedLines⟩ := listing_eq_error_iff.mp failed
  have visited : failing ∈ unit.visits options := by simp [split]
  have inside := within_of_mem_visits unit visited
  exact not_blamesVersion_of_lines (supported failing inside) failedLines

end CodeUnit

/-- What has been loaded for a version: the value of a stream or the code of a module. -/
inductive Loaded (version : Version) : Value → Prop
  | stream {data : Bytes} {value : Value} (loaded : Value.ofBytes version data = .ok value) :
      Loaded version value
  | image {data : Bytes} {image : Image} (loaded : Image.ofBytes data = .ok image)
      (same : image.header.version = version) : Loaded version image.code.toValue

/-- The code of a module is the value of the stream behind its header. -/
theorem Image.stream_of_ofBytes {data : Bytes} {image : Image} (loaded : ofBytes data = .ok image) :
    Value.ofBytes image.header.version (data.drop Header.size) = .ok image.code.toValue := by
  obtain ⟨header, accepted, loaded⟩ := bind_eq_ok_iff.mp loaded
  obtain ⟨value, read, loaded⟩ := bind_eq_ok_iff.mp loaded
  cases value with
  | code info consts =>
      cases loaded
      exact read
  | _ => cases loaded

/--
A code unit that is well formed and whose position table and exception table can be read. If it
cannot be listed, with the units inside or without, its version is not the reason.
-/
structure CodeUnit.Usable (profile : Profile) (unit : CodeUnit) : Prop where
  wellFormed : unit.WellFormed profile
  positions : ∃ table, PositionTable.ofUnit unit = .ok table
  handlers : ∃ table, Handler.ofUnit unit = .ok table
  listing : ∀ options version, unit.listing options ≠ .error (.unsupportedVersion version)

/-- A unit is well formed and can be used wherever it sits in what has been loaded. -/
theorem usable_of_loaded {version : Version} {profile : Profile} {value : Value} {unit : CodeUnit}
    (supported : Profile.ofVersion version = .ok profile) (loaded : Loaded version value)
    (within : Relation.ReflTransGen Value.Holds value unit.toValue) : unit.Usable profile := by
  have sane : value.Sane profile := by
    cases loaded with
    | stream loaded => exact (Value.inherited_sane profile).ofBytes supported loaded
    | image loaded same =>
        subst same
        exact (Value.inherited_sane profile).ofBytes supported (Image.stream_of_ofBytes loaded)
  have wellFormed : ∀ node : CodeUnit, Relation.ReflTransGen Value.Holds value node.toValue →
      node.WellFormed profile :=
    fun node within => (sane node.toValue within).2 node rfl
  have known : ∀ node : CodeUnit, Relation.ReflTransGen Value.Holds unit.toValue node.toValue →
      Profile.ofVersion node.version = .ok profile := by
    intro node inside
    rw [(wellFormed node (within.trans inside)).version, Profile.version_of_ofVersion supported]
    exact supported
  have own := known unit .refl
  constructor
  · exact wellFormed unit within
  · exact ⟨_, by rw [PositionTable.ofUnit, own]; rfl⟩
  · exact ⟨_, by rw [Handler.ofUnit, own]; rfl⟩
  · intro options version failed
    exact CodeUnit.not_blamesVersion_of_listing unit known failed ⟨version, rfl⟩

/-- A tuple of an empty code unit in slot 0 and a reference to it. -/
def sharedUnit : Bytes :=
  [0x29, 2, 0xE3, 0, 0, 0, 0, 0, 0, 0, 0, 0, 0, 0, 0, 0, 0, 0, 0, 0, 0, 0, 0, 0, 0, 0, 0,
    0x73, 0, 0, 0, 0, 0x29, 0, 0x29, 0, 0x29, 0, 0x29, 0, 0x29, 0, 0x7A, 0, 0x7A, 0, 1, 0, 0, 0,
    0x73, 0, 0, 0, 0, 0x72, 0, 0, 0, 0]

/-- The code unit that the second item of a tuple is. -/
def Value.secondUnit? (value : Value) : Option CodeUnit := do
  let items ← value.items?
  let item ← items[1]?
  item.code?

theorem Value.holds_of_secondUnit? {value : Value} {unit : CodeUnit}
    (second : value.secondUnit? = some unit) : value.Holds unit.toValue := by
  obtain ⟨items, isSequence, second⟩ := Option.bind_eq_some_iff.mp second
  obtain ⟨item, listed, isUnit⟩ := Option.bind_eq_some_iff.mp second
  have member : item ∈ items := List.mem_of_getElem? listed
  cases item with
  | code info consts =>
      cases isUnit
      cases value with
      | tuple others | list others =>
          cases isSequence
          exact member
      | _ => cases isSequence
  | _ => cases isUnit

theorem usable_of_loaded_sharedUnit :
    Profile.ofVersion ⟨3, 8⟩ = .ok Profile.version38 ∧
      ∃ (value : Value) (unit : CodeUnit), Loaded ⟨3, 8⟩ value ∧
        Relation.ReflTransGen Value.Holds value unit.toValue ∧
        unit.Usable Profile.version38 := by
  have evaluated :
      ((Value.ofBytes ⟨3, 8⟩ sharedUnit).toOption.bind Value.secondUnit?).isSome = true := by
    decide +kernel
  obtain ⟨unit, second⟩ := Option.isSome_iff_exists.mp evaluated
  obtain ⟨value, succeeded, second⟩ := Option.bind_eq_some_iff.mp second
  have loaded : Loaded ⟨3, 8⟩ value := by
    cases read : Value.ofBytes ⟨3, 8⟩ sharedUnit with
    | ok other =>
        rw [read] at succeeded
        cases succeeded
        exact .stream read
    | error error =>
        rw [read] at succeeded
        cases succeeded
  have within : Relation.ReflTransGen Value.Holds value unit.toValue :=
    .single (Value.holds_of_secondUnit? second)
  exact ⟨rfl, value, unit, loaded, within, usable_of_loaded rfl loaded within⟩

end CodeScope

import CodeScope.Proofs.Marshal.Opening
import CodeScope.Proofs.Marshal.Places

/-!
# What errors point at

An error of the reader tells where in the stream it has occurred. The tag of a malformed value is
the one that stands at the offset it names, with one exception: a malformed decimal literal in a
complex number is reported as one of a float. Missing bytes are missing, a nesting that is too deep
starts in the stream or at its end, and left bytes are fewer than there are.
-/

namespace CodeScope

/-- A tag stands at an offset of a stream. -/
def Bytes.HasTag (data : Bytes) (offset : Nat) (tag : UInt8) : Prop :=
  ∃ byte, data[offset]? = some byte ∧ tag = UInt8.ofNat (byte.toNat % 128)

/-- A body of a form has its tag at a site of a stream. -/
def TagSite.Introduces (data : Bytes) (site : TagSite) (form : BodyForm) : Prop :=
  ∃ byte, data[site.offset]? = some byte ∧ site.tag = UInt8.ofNat (byte.toNat % 128) ∧
    Tag.ofByte? byte = some (.body form)

namespace Error

/-- An error is about what is at the place of the stream that it tells, if it tells one. -/
def PointsInto (data : Bytes) : Error → Prop
  | malformedValue tag offset => data.HasTag offset tag
  | truncated needed offset => offset ≤ data.length ∧ data.length < offset + needed
  | nestedTooDeep offset => offset ≤ data.length
  | trailingData remaining => 0 < remaining ∧ remaining < data.length
  | _ => True

/-- An error names the tag of a float where that of a complex number stands. -/
def NamesFloat (data : Bytes) (error : Error) : Prop :=
  ∃ offset, error = .malformedValue 0x66 offset ∧ data.HasTag offset 0x78

/-- What the reader reports: what is there, or else a float in place of a complex number. -/
def Reported (data : Bytes) (error : Error) : Prop :=
  error.PointsInto data ∨ error.NamesFloat data

end Error

theorem TagSite.Introduces.hasTag {data : Bytes} {site : TagSite} {form : BodyForm}
    (introduces : site.Introduces data form) : data.HasTag site.offset site.tag := by
  obtain ⟨byte, read, same, -⟩ := introduces
  exact ⟨byte, read, same⟩

/-- What stands at a site has the character of its form. -/
theorem TagSite.Introduces.hasTag_of_named {data : Bytes} {site : TagSite} {form : BodyForm}
    (introduces : site.Introduces data form) (char : Char)
    (named : Tag.ofChar? char = some (.body form)) :
    data.HasTag site.offset (UInt8.ofNat char.toNat) := by
  obtain ⟨byte, read, -, tagged⟩ := introduces
  exact ⟨byte, read, by rw [Tag.byte_of_tag tagged named]⟩

/-- A byte has one tag. -/
theorem Bytes.HasTag.unique {data : Bytes} {offset : Nat} {tag other : UInt8}
    (one : data.HasTag offset tag) (another : data.HasTag offset other) : tag = other := by
  obtain ⟨byte, read, rfl⟩ := one
  obtain ⟨same, readSame, rfl⟩ := another
  rw [read] at readSame
  cases readSame
  rfl

namespace Script

variable {α β : Type} {data : Bytes}

/--
What a script that is run at a place of a stream fails with is an error that the reader reports,
provided that a value inside takes bytes and that the empty tag stands where one is told.
-/
def ReportsFrom (data : Bytes) : Nat → Script α → Prop
  | _, done _ => True
  | _, fail error => error.Reported data
  | place, takeBytes count next =>
      place + count ≤ data.length → ∀ taken, ReportsFrom data (place + count) (next taken)
  | place, askOffset next => ReportsFrom data place (next place)
  | place, askRemaining next => ReportsFrom data place (next (data.length - place))
  | place, markFilling next => ReportsFrom data place next
  | place, recordText _ next => ReportsFrom data place next
  | place, askChild next => ∀ answer later, place < later → later ≤ data.length →
      (answer = none → data.HasTag place Tag.nullByte) → ReportsFrom data later (next answer)

/-- The same wherever in the stream the script is run. -/
def Reports (data : Bytes) (script : Script α) : Prop :=
  ∀ place ≤ data.length, script.ReportsFrom data place

theorem ReportsFrom.bind {script : Script α} {next : α → Script β} {place : Nat}
    (inside : place ≤ data.length) (first : script.ReportsFrom data place)
    (second : ∀ value later, place ≤ later → later ≤ data.length →
      (next value).ReportsFrom data later) : (script >>= next).ReportsFrom data place := by
  induction script generalizing place with
  | done result => exact second result place (Nat.le_refl place) inside
  | fail error => exact first
  | takeBytes count follow induction =>
      intro enough taken
      refine induction taken enough (first enough taken) ?_
      intro value later reached
      exact second value later (Nat.le_trans (Nat.le_add_right place count) reached)
  | askOffset follow induction => exact induction place inside first second
  | askRemaining follow induction => exact induction _ inside first second
  | markFilling follow induction => exact induction inside first second
  | recordText content follow induction => exact induction inside first second
  | askChild follow induction =>
      intro answer later passed reached empty
      refine induction answer reached (first answer later passed reached empty) ?_
      intro value last further
      exact second value last (Nat.le_trans (Nat.le_of_lt passed) further)

namespace Reports

theorem pure (result : α) : Reports data (Pure.pure result : Script α) := fun _ _ => trivial

theorem fail {error : Error} (reported : error.Reported data) :
    Reports data (Script.fail error : Script α) := fun _ _ => reported

theorem bind {script : Script α} {next : α → Script β} (first : script.Reports data)
    (second : ∀ value, (next value).Reports data) : (script >>= next).Reports data :=
  fun place inside => (first place inside).bind inside fun value later _ => second value later

theorem bytes (count : Nat) : (Script.bytes count).Reports data := fun _ _ _ _ => trivial

theorem fill : Script.fill.Reports data := fun _ _ => trivial

theorem intern (content : String) : (Script.intern content).Reports data := fun _ _ => trivial

theorem compositional (data : Bytes) : Compositional (Error.Reported data) (Reports data) where
  pure := pure
  fail := fail
  bind := bind
  bytes := bytes

theorem number (width : Nat) : (Script.number width).Reports data :=
  (compositional data).number width

theorem i32 : Script.i32.Reports data := (compositional data).i32

/-- The empty tag is reported where a value should be. -/
theorem required : Script.required.Reports data := by
  intro place inside answer later passed reached empty
  cases answer with
  | some value => trivial
  | none => exact .inl (empty rfl)

theorem items (count : Nat) : (Script.items count).Reports data :=
  (compositional data).times required count

/-- Every key takes a byte, so the rounds are enough. -/
theorem entriesAfter {rounds place : Nat} (read : List (Value × Value))
    (inside : place ≤ data.length) (enough : data.length - place < rounds) :
    (Script.entriesAfter rounds read).ReportsFrom data place := by
  induction rounds generalizing place read with
  | zero => cases enough
  | succ rounds induction =>
      intro answer later passed reached empty
      cases answer with
      | none => trivial
      | some key =>
          show (Script.required >>= fun value =>
            Script.entriesAfter rounds ((key, value) :: read)).ReportsFrom data later
          refine (required later reached).bind reached ?_
          intro value last further limit
          exact induction _ limit (by omega)

theorem entries : Script.entries.Reports data := by
  intro place inside
  exact entriesAfter [] inside (Nat.lt_succ_self _)

/-- A code unit that is malformed is reported without a place. -/
theorem code (profile : Profile) (site : Nat) : (Script.code profile site).Reports data :=
  (compositional data).code required (fun _ _ => .inl trivial) profile site

theorem body (profile : Profile) {site : TagSite} {form : BodyForm}
    (introduces : site.Introduces data form) : (Script.body profile site form).Reports data := by
  have parts := compositional data
  have malformed : site.malformed.Reported data := .inl introduces.hasTag
  cases form with
  | int32 => exact parts.map _ i32
  | int64 => exact parts.map _ (number 8)
  | long => exact parts.map _ (parts.long malformed)
  | float form =>
      refine parts.map _ (parts.float fun decimal => ?_)
      subst decimal
      exact .inl (introduces.hasTag_of_named 'f' rfl)
  | complex form =>
      -- Its decimal literals are read as those of a float, whose tag is told if they are malformed.
      have part : (Script.float site.offset form).Reports data := by
        refine parts.float fun decimal => ?_
        subst decimal
        exact .inr ⟨site.offset, rfl, introduces.hasTag_of_named 'x' rfl⟩
      exact part.bind fun real => parts.map _ part
  | bytes => exact parts.map _ (parts.byteString malformed)
  | text form interned =>
      apply (parts.text malformed form).bind
      intro content
      cases interned with
      | false => exact pure _
      | true => exact (intern content).bind fun _ => pure _
  | tuple short =>
      cases short with
      | true => exact (number 1).bind fun size => parts.map _ (items size)
      | false => exact (parts.length malformed).bind fun size => parts.map _ (items size)
  | list =>
      apply (parts.length malformed).bind
      intro size
      exact fill.bind fun _ => parts.map _ (items size)
  | set =>
      apply (parts.length malformed).bind
      intro size
      exact fill.bind fun _ => parts.map _ (items size)
  | frozenSet => exact (parts.length malformed).bind fun size => parts.map _ (items size)
  | dict => exact fill.bind fun _ => parts.map _ entries
  | code => exact parts.map _ (code profile site.offset)

end Reports
end Script

/-- A cursor at a place of a stream. -/
structure Cursor.Inside (data : Bytes) (cursor : Cursor) : Prop where
  reached : cursor.offset ≤ data.length
  rest : cursor.rest = data.drop cursor.offset

theorem Cursor.inside_start (data : Bytes) : (start data).Inside data :=
  ⟨Nat.zero_le _, rfl⟩

theorem Cursor.Past.inside {data taken : Bytes} {later earlier : Cursor}
    (past : later.Past earlier taken) (inside : earlier.Inside data) : later.Inside data := by
  have split : data.drop earlier.offset = taken ++ later.rest := inside.rest.symm.trans past.rest
  have size := congrArg List.length split
  have reached := inside.reached
  rw [List.length_drop, List.length_append] at size
  refine ⟨?_, ?_⟩
  · rw [past.offset]
    omega
  · rw [past.offset, ← List.drop_drop, split, List.drop_left]

theorem Cursor.Inside.length_rest {data : Bytes} {cursor : Cursor} (inside : cursor.Inside data) :
    cursor.rest.length = data.length - cursor.offset := by
  rw [inside.rest, List.length_drop]

namespace Reading

variable {α β : Type} {data : Bytes} {state : ReaderState}

/--
A part of a reader ends at a place of the stream with a result that is accepted, or else with an
error that is reported.
-/
inductive Lands (data : Bytes) (accepts : α → Prop) : EStateM.Result Error ReaderState α → Prop
  | ok {value : α} {next : ReaderState} (inside : next.cursor.Inside data)
      (accepted : accepts value) : Lands data accepts (.ok value next)
  | error {error : Error} {next : ReaderState} (reported : error.Reported data) :
      Lands data accepts (.error error next)

namespace Lands

variable {accepts : α → Prop} {admits : β → Prop}

theorem bind {part : Reading α} {after : α → Reading β} (first : Lands data accepts (part state))
    (second : ∀ value next, part state = .ok value next → next.cursor.Inside data →
      accepts value → Lands data admits (after value next)) :
    Lands data admits ((part >>= after) state) := by
  cases read : part state with
  | error error next =>
      rw [read] at first
      rw [bind_of_error read]
      cases first with
      | error reported => exact .error reported
  | ok value next =>
      rw [read] at first
      rw [bind_of_ok read]
      cases first with
      | ok inside accepted => exact second value next read inside accepted

theorem map {part : Reading α} (convert : α → β) (lands : Lands data accepts (part state)) :
    Lands data (fun _ => True) ((convert <$> part) state) := by
  rw [map_eq_pure_bind]
  exact lands.bind fun value next _ inside _ => .ok inside trivial

end Lands

/-- Bytes are taken from the stream, or those that miss are reported. -/
theorem scan_bytes_cases (count : Nat) (inside : state.cursor.Inside data) :
    (∃ error, scan (Scan.bytes count) state = .error error state ∧ error.Reported data) ∨
    ∃ taken next, scan (Scan.bytes count) state = .ok taken next ∧ next.cursor.Inside data ∧
      next.cursor.offset = state.cursor.offset + count := by
  have size := inside.length_rest
  have reached := inside.reached
  rcases Nat.lt_or_ge state.cursor.rest.length count with short | enough
  · exact .inl ⟨_, scan_bytes_of_short short, .inl ⟨reached, by omega⟩⟩
  · have read := scan_bytes_of_enough enough
    obtain ⟨_, past⟩ := Advances.bytes count _ _ _ read
    exact .inr ⟨_, _, read, past.inside inside, rfl⟩

theorem lands_littleEndian (width : Nat) (inside : state.cursor.Inside data) :
    Lands data (fun _ => True) (scan (Scan.littleEndian width) state) := by
  have bytes : Lands data (fun _ => True) (scan (Scan.bytes width) state) := by
    rcases scan_bytes_cases width inside with
      ⟨error, failed, reported⟩ | ⟨taken, next, read, insideNext, -⟩
    · exact failed ▸ .error reported
    · exact read ▸ .ok insideNext trivial
  rw [scan_littleEndian]
  exact bytes.map _

/-- A byte that is read stands in the stream. -/
theorem lands_u8 (inside : state.cursor.Inside data) :
    Lands data (fun byte => data[state.cursor.offset]? = some byte) (scan Scan.u8 state) := by
  have lands : Lands data (fun _ => True) (scan Scan.u8 state) := by
    rw [Scan.u8, scan_map]
    exact (lands_littleEndian 1 inside).map _
  cases read : scan Scan.u8 state with
  | error error next =>
      rw [read] at lands
      cases lands with
      | error reported => exact .error reported
  | ok byte next =>
      rw [read] at lands
      obtain ⟨tail, stream⟩ := rest_eq_of_scan_u8 read
      cases lands with
      | ok insideNext _ =>
          refine .ok insideNext ?_
          rw [← Nat.add_zero state.cursor.offset, ← List.getElem?_drop, ← inside.rest, stream]
          rfl

theorem lands_u32 (inside : state.cursor.Inside data) :
    Lands data (fun _ => True) (scan Scan.u32 state) := by
  rw [Scan.u32, scan_map]
  exact (lands_littleEndian 4 inside).map _

theorem lands_resolve (index : UInt32) (inside : state.cursor.Inside data) :
    Lands data (fun _ => True) (resolve index state) := by
  rw [resolve]
  split
  · exact .ok inside trivial
  · exact .ok inside trivial
  · exact .error (.inl trivial)
  · exact .error (.inl trivial)

theorem lands_resolveInterned (index : UInt32) (inside : state.cursor.Inside data) :
    Lands data (fun _ => True) (resolveInterned index state) := by
  rw [resolveInterned]
  split
  · exact .ok inside trivial
  · exact .error (.inl trivial)

theorem lands_reserveFor (byte : UInt8) (inside : state.cursor.Inside data) :
    Lands data (fun _ => True) (reserveFor byte state) := by
  rw [reserveFor]
  split
  · exact .ok inside trivial
  · exact .ok inside trivial

/-- What the tag at an offset of a stream leaves to be read. -/
def TellsOf (data : Bytes) (offset : Nat) : Opening → Prop
  | .settled answer => answer = none → data.HasTag offset Tag.nullByte
  | .body form site _ => site.Introduces data form

theorem tellsOf_settled (offset : Nat) (value : Value) :
    TellsOf data offset (.settled (some value)) := by
  intro none
  cases none

theorem lands_opening (inside : state.cursor.Inside data) :
    Lands data (TellsOf data state.cursor.offset) (opening state) := by
  refine (lands_u8 inside).bind ?_
  intro byte next _ insideNext here
  cases tagged : Tag.ofByte? byte with
  | none =>
      refine (lands_reserveFor byte insideNext).bind fun slot last _ _ _ => ?_
      exact .error (.inl ⟨byte, here, rfl⟩)
  | some tag =>
      cases tag with
      | null =>
          refine .ok insideNext fun _ => ⟨byte, here, ?_⟩
          rw [Tag.byte_of_tag tagged (rfl : Tag.ofChar? '0' = some .null)]
          rfl
      | constant value => exact .ok insideNext (tellsOf_settled _ value)
      | reference =>
          refine (lands_u32 insideNext).bind fun index middle _ insideMiddle _ => ?_
          refine (lands_resolve index insideMiddle).bind fun value last _ insideLast _ => ?_
          exact .ok insideLast (tellsOf_settled _ value)
      | internedText =>
          refine (lands_u32 insideNext).bind fun index middle _ insideMiddle _ => ?_
          refine (lands_resolveInterned index insideMiddle).bind fun value last _ insideLast _ => ?_
          exact .ok insideLast (tellsOf_settled _ value)
      | body form =>
          refine (lands_reserveFor byte insideNext).bind fun slot last _ insideLast _ => ?_
          exact .ok insideLast ⟨byte, here, rfl, tagged⟩

/-- A reader of values for which the scripts of bodies report what they should. -/
structure ReportsValues (data : Bytes) (inner : Reading (Option Value)) : Prop where
  lands : ∀ state : ReaderState, state.cursor.Inside data →
    Lands data (fun answer => answer = none → data.HasTag state.cursor.offset Tag.nullByte)
      (inner state)
  passes : ∀ (state next : ReaderState) (answer : Option Value),
    inner state = .ok answer next → state.cursor.offset < next.cursor.offset

/-- A script reports what it should in every stream. -/
theorem lands_run {inner : Reading (Option Value)} (reports : ReportsValues data inner)
    (slot : Option Nat) {script : Script α} (inside : state.cursor.Inside data)
    (sound : script.ReportsFrom data state.cursor.offset) :
    Lands data (fun _ => True) (script.run inner slot state) := by
  induction script generalizing state with
  | done result => exact .ok inside trivial
  | fail error => exact .error sound
  | takeBytes count next induction =>
      rcases scan_bytes_cases count inside with
        ⟨error, failed, reported⟩ | ⟨taken, later, read, insideLater, offset⟩
      · rw [Script.run, bind_of_error failed]
        exact .error reported
      · rw [Script.run, bind_of_ok read]
        apply induction taken insideLater
        rw [offset]
        exact sound (offset ▸ insideLater.reached) taken
  | askOffset next induction => exact induction _ inside sound
  | askRemaining next induction =>
      have counted : remaining state = .ok (data.length - state.cursor.offset) state := by
        rw [← inside.length_rest]
        rfl
      rw [Script.run, bind_of_ok counted]
      exact induction _ inside sound
  | markFilling next induction =>
      cases slot with
      | none => exact induction inside sound
      | some slot => exact @induction { state with slots := _ } inside sound
  | recordText content next induction => exact @induction { state with interned := _ } inside sound
  | askChild next induction =>
      refine (reports.lands state inside).bind ?_
      intro answer later read insideLater empty
      exact induction answer insideLater
        (sound answer _ (reports.passes state later answer read) insideLater.reached empty)

theorem lands_tagged (profile : Profile) {inner : Reading (Option Value)}
    (reports : ReportsValues data inner) (inside : state.cursor.Inside data) :
    Lands data (fun answer => answer = none → data.HasTag state.cursor.offset Tag.nullByte)
      (tagged profile inner state) := by
  refine (lands_opening inside).bind ?_
  intro opened next _ insideNext tells
  cases opened with
  | settled answer => exact .ok insideNext tells
  | body form site slot =>
      have sound := Script.Reports.body profile tells next.cursor.offset insideNext.reached
      refine (lands_run reports slot insideNext sound).bind fun value last _ insideLast _ => ?_
      cases slot with
      | none => exact .ok insideLast fun none => by cases none
      | some slot => exact .ok insideLast fun none => by cases none

/-- The byte of its tag is taken for every value. -/
theorem tagged_passes (profile : Profile) {inner : Reading (Option Value)} {next : ReaderState}
    {answer : Option Value} (advances : inner.Advances)
    (read : tagged profile inner state = .ok answer next) :
    state.cursor.offset < next.cursor.offset := by
  obtain ⟨opened, middle, started, read⟩ := bind_eq_ok read
  refine Nat.lt_of_lt_of_le (lt_of_opening started) ?_
  cases opened with
  | settled value =>
      cases read
      exact Nat.le_refl _
  | body form site slot =>
      have parts := Advances.compositional
      refine Advances.le ?_ read
      refine parts.bind (parts.run advances slot _) fun value => ?_
      exact parts.bind (parts.setSlot slot _) fun _ => parts.pure _

theorem lands_nested {part : Reading α} {accepts : α → Prop}
    (lands : Lands data accepts (part { state with depth := state.depth + 1 })) :
    Lands data accepts (nested part state) := by
  rw [nested_eq_endLevel]
  generalize part { state with depth := state.depth + 1 } = outcome at lands ⊢
  cases lands with
  | ok inside accepted => exact .ok inside accepted
  | error reported => exact .error reported

/-- The reader of values with any number of levels reports what it should. -/
theorem reportsValues_optional (data : Bytes) (profile : Profile) (levels : Nat) :
    ReportsValues data (optional profile levels) := by
  induction levels with
  | zero =>
      refine ⟨fun state inside => .error (.inl inside.reached), fun state next answer read => ?_⟩
      cases read
  | succ levels induction =>
      refine ⟨fun state inside => ?_, fun state next answer read => ?_⟩
      · have deeper : { state with depth := state.depth + 1 }.cursor.Inside data := inside
        exact lands_nested (lands_tagged profile induction deeper)
      · obtain ⟨inner, deeper, rfl⟩ := nested_eq_ok read
        have passed :=
          tagged_passes profile (Advances.compositional.optional profile levels) deeper
        exact passed

theorem lands_value (profile : Profile) (inside : state.cursor.Inside data) :
    Lands data (fun _ => True) (value profile state) :=
  lands_run (reportsValues_optional data profile _) none inside
    (Script.Reports.required _ inside.reached)

/-- A value takes at least the byte of its tag. -/
theorem value_passes {profile : Profile} {next : ReaderState} {result : Value}
    (read : value profile state = .ok result next) :
    state.cursor.offset < next.cursor.offset := by
  obtain ⟨offset, start, asked, read⟩ := bind_eq_ok read
  cases asked
  obtain ⟨answer, last, inner, read⟩ := bind_eq_ok read
  have passed := (reportsValues_optional [] profile _).passes _ _ _ inner
  cases answer with
  | none => cases read
  | some value =>
      cases read
      exact passed

theorem lands_topLevel (profile : Profile) (data : Bytes) :
    Lands data (fun _ => True) (topLevel profile (.start data)) := by
  have inside : (ReaderState.start data).cursor.Inside data := Cursor.inside_start data
  have lands := lands_value profile inside
  cases read : value profile (.start data) with
  | error error next =>
      rw [read] at lands
      rw [topLevel, bind_of_error read]
      cases lands with
      | error reported => exact .error reported
  | ok result next =>
      rw [read] at lands
      rw [topLevel_of_value read]
      cases lands with
      | ok insideNext _ =>
          have passed : 0 < next.cursor.offset := value_passes read
          have size := insideNext.length_rest
          have reached := insideNext.reached
          split
          · exact .ok insideNext trivial
          · next left =>
              have some := List.length_pos_iff.mpr left
              exact .error (.inl ⟨some, by omega⟩)

end Reading

namespace Error

variable {data : Bytes} {error : Error}

/-- No error is told both ways. -/
theorem Reported.pointsInto_iff (reported : error.Reported data) :
    error.PointsInto data ↔ ¬error.NamesFloat data := by
  constructor
  · intro points ⟨offset, same, complex⟩
    rw [same] at points
    have float : data.HasTag offset 0x66 := points
    exact absurd (float.unique complex) (by decide)
  · intro plain
    exact reported.resolve_right plain

end Error

/-- An error of loading points at what it is about, unless it names a float for a complex number. -/
theorem Value.pointsInto_iff_of_ofBytes {version : Version} {data : Bytes} {error : Error}
    (failed : ofBytes version data = .error error) :
    error.PointsInto data ↔ ¬error.NamesFloat data := by
  apply Error.Reported.pointsInto_iff
  rcases ofBytes_eq_error failed with rfl | ⟨profile, next, -, read⟩
  · exact .inl trivial
  · have lands := Reading.lands_topLevel profile data
    rw [read] at lands
    cases lands with
    | error reported => exact reported

/-- A tuple of a byte string of a length below zero, whose tag asks for a slot. -/
def tupleOfNegativeLength : Bytes := [0x29, 1, 0xF3, 0xFF, 0xFF, 0xFF, 0xFF]

theorem Value.pointsInto_iff_of_ofBytes_negativeLength :
    ofBytes ⟨3, 11⟩ tupleOfNegativeLength = .error (.malformedValue 0x73 2) ∧
      ((Error.malformedValue 0x73 2).PointsInto tupleOfNegativeLength ↔
        ¬(Error.malformedValue 0x73 2).NamesFloat tupleOfNegativeLength) := by
  have failed : ofBytes ⟨3, 11⟩ tupleOfNegativeLength = .error (.malformedValue 0x73 2) := by
    rfl
  exact ⟨failed, pointsInto_iff_of_ofBytes failed⟩

/-- A complex number whose real part is a letter. -/
def complexOfLetter : Bytes := [0x78, 1, 0x7A]

/-- The tag at the start of the stream is not the one that the error names. -/
theorem Value.not_pointsInto_complexOfLetter :
    ofBytes ⟨3, 8⟩ complexOfLetter = .error (.malformedValue 0x66 0) ∧
      ¬(Error.malformedValue 0x66 0).PointsInto complexOfLetter := by
  constructor
  · rfl
  · intro points
    have float : complexOfLetter.HasTag 0 0x66 := points
    have complex : complexOfLetter.HasTag 0 0x78 := ⟨0x78, rfl, rfl⟩
    exact absurd (float.unique complex) (by decide)

end CodeScope

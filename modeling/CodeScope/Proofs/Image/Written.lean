import CodeScope.Image.Basic
import CodeScope.Proofs.Bytes.Encoding
import CodeScope.Proofs.Image.Header
import CodeScope.Proofs.Value.Parts

/-!
# Writing of headers

A header has sixteen bytes, and they are the only ones that are read as that header. The module
behind a header is the code unit that its stream loads for the version of the header, so the rest of
the header does not matter for it.
-/

namespace CodeScope
namespace MagicRange

/-- No two ranges share a magic number. -/
theorem eq_of_contains {one other : MagicRange} {magic : UInt16} (listed : one ∈ all)
    (listedOther : other ∈ all) (inOne : one.contains magic) (inOther : other.contains magic) :
    one = other := by
  have apart : ∀ one ∈ all, ∀ other ∈ all,
      one = other ∨ one.last < other.first ∨ other.last < one.first := by
    decide
  simp only [contains, Bool.and_eq_true, decide_eq_true_eq, UInt16.le_iff_toNat_le] at inOne inOther
  rcases apart one listed other listedOther with same | before | after
  · exact same
  · rw [UInt16.lt_iff_toNat_lt] at before
    omega
  · rw [UInt16.lt_iff_toNat_lt] at after
    omega

end MagicRange

namespace Version

/-- A magic number lies in a range of the version. -/
def Writes (version : Version) (magic : UInt16) : Prop :=
  ∃ range ∈ MagicRange.all, range.contains magic ∧ range.version = version

variable {version other : Version} {magic : UInt16} {data : Bytes}

theorem ofMagic_eq_ok_iff : ofMagic magic = .ok version ↔ version.Writes magic := by
  rw [ofMagic]
  cases found : MagicRange.all.find? fun range => range.contains magic with
  | none =>
      have outside := List.find?_eq_none.mp found
      constructor
      · intro resolved
        cases resolved
      · rintro ⟨range, listed, inside, -⟩
        exact absurd inside (outside range listed)
  | some range =>
      have listed := List.mem_of_find?_eq_some found
      have inside := List.find?_some found
      constructor
      · intro resolved
        cases resolved
        exact ⟨range, listed, inside, rfl⟩
      · rintro ⟨other, listedOther, insideOther, rfl⟩
        rw [MagicRange.eq_of_contains listed listedOther inside insideOther]

theorem ofMagic_of_outside (outside : ∀ version : Version, ¬version.Writes magic) :
    ofMagic magic = .error (.unknownMagic magic) := by
  have unfound : MagicRange.all.find? (fun range => range.contains magic) = none :=
    List.find?_eq_none.mpr fun range listed inside =>
      outside range.version ⟨range, listed, inside, rfl⟩
  rw [ofMagic, unfound]

/-- Two bytes are those of a magic number. -/
theorem ofBytes_of_pair (pair : data.length = 2) :
    ofBytes data = ofMagic (UInt16.ofNat data.littleEndian) := by
  cases data with
  | nil => cases pair
  | cons low rest =>
      cases rest with
      | nil => cases pair
      | cons high rest =>
          have done : rest = [] := by simpa using pair
          simp [ofBytes, Bytes.littleEndian, done]

end Version

/-- The bytes of the data about the source. -/
def Invalidation.bytes : Invalidation → Bytes
  | timestamp mtime sourceSize =>
      Bytes.digits 4 mtime.toNat ++ Bytes.digits 4 sourceSize.toNat
  | hash _ digest => digest

/-- Data about the source that the lowest two flags allow. A hash has eight bytes. -/
def Invalidation.Suits (flags : UInt32) : Invalidation → Prop
  | timestamp _ _ => flags.toNat.testBit 0 = false
  | hash checkSource digest =>
      flags.toNat.testBit 0 = true ∧ checkSource = flags.toNat.testBit 1 ∧ digest.length = 8

namespace Invalidation

variable {flags : UInt32} {invalidation : Invalidation} {data : Bytes}

theorem length_bytes (suits : invalidation.Suits flags) : invalidation.bytes.length = 8 := by
  cases invalidation with
  | timestamp mtime sourceSize => simp [bytes]
  | hash checkSource digest => exact suits.2.2

/-- The data about the source is read back from its bytes. -/
theorem ofBytes_bytes (suits : invalidation.Suits flags) :
    ofBytes flags invalidation.bytes = invalidation := by
  cases invalidation with
  | timestamp mtime sourceSize =>
      have size : (Bytes.digits 4 mtime.toNat).length = 4 := Bytes.length_digits 4 _
      have flag : ¬flags.toNat.testBit 0 = true := by
        rw [show flags.toNat.testBit 0 = false from suits]
        exact Bool.false_ne_true
      rw [ofBytes, if_neg flag, bytes, List.take_left' size, List.drop_left' size,
        Bytes.littleEndian_digits_of_lt mtime.toNat_lt,
        Bytes.littleEndian_digits_of_lt sourceSize.toNat_lt, UInt32.ofNat_toNat,
        UInt32.ofNat_toNat]
  | hash checkSource digest =>
      obtain ⟨flag, check, -⟩ := suits
      rw [ofBytes, if_pos flag, check]
      rfl

theorem suits_ofBytes (size : data.length = 8) : (ofBytes flags data).Suits flags := by
  rw [ofBytes]
  split
  · next flag => exact ⟨flag, rfl, size⟩
  · next flag => exact Bool.eq_false_iff.mpr flag

/-- The bytes of the data about the source are those that it was read from. -/
theorem bytes_ofBytes (size : data.length = 8) : (ofBytes flags data).bytes = data := by
  rw [ofBytes]
  split
  · rfl
  · have front : (data.take 4).length = 4 := by simp [size]
    have back : (data.drop 4).length = 4 := by simp [size]
    have small := Bytes.littleEndian_lt (data.take 4)
    have smallBack := Bytes.littleEndian_lt (data.drop 4)
    rw [front] at small
    rw [back] at smallBack
    rw [bytes, UInt32.toNat_ofNat_of_lt' small, UInt32.toNat_ofNat_of_lt' smallBack]
    calc
      Bytes.digits 4 (Bytes.littleEndian (data.take 4)) ++
          Bytes.digits 4 (Bytes.littleEndian (data.drop 4)) =
        data.take 4 ++ data.drop 4 := by
          have first := Bytes.digits_littleEndian (data.take 4)
          have second := Bytes.digits_littleEndian (data.drop 4)
          rw [front] at first
          rw [back] at second
          rw [first, second]
      _ = data := List.take_append_drop 4 data

end Invalidation

namespace Header

/-- The bytes of a header. -/
def bytes (header : Header) : Bytes :=
  Bytes.digits 2 header.magic.toNat ++
    ([13, 10] ++ (Bytes.digits 4 header.flags.toNat ++ header.invalidation.bytes))

/-- A header of the version of its magic number, with the data about the source of its flags. -/
structure WellFormed (header : Header) : Prop where
  version : header.version.Writes header.magic
  invalidation : header.invalidation.Suits header.flags

/-- The magic number that the first two bytes write. -/
def magicOf (data : Bytes) : UInt16 :=
  UInt16.ofNat (Bytes.littleEndian (data.take 2))

/-- The two bytes behind the magic number. -/
def endingOf (data : Bytes) : Bytes :=
  (data.drop 2).take 2

namespace Layout

variable (layout : Layout) (rest : Bytes)

theorem magicOf_bytes :
    magicOf (layout.bytes ++ rest) = UInt16.ofNat layout.magic.littleEndian := by
  rw [magicOf, bytes, List.append_assoc, List.take_left' layout.magicSize]

theorem endingOf_bytes : endingOf (layout.bytes ++ rest) = layout.lineEnding := by
  rw [endingOf, bytes, List.append_assoc, List.drop_left' layout.magicSize, List.append_assoc,
    List.take_left' layout.lineEndingSize]

/-- The bytes of the fields are those of their header, if they have the line ending. -/
theorem bytes_header (version : Version) (ending : layout.lineEnding = [13, 10]) :
    (layout.header version).bytes = layout.bytes := by
  have smallMagic := Bytes.littleEndian_lt layout.magic
  have smallFlags := Bytes.littleEndian_lt layout.flags
  have magic := Bytes.digits_littleEndian layout.magic
  have flags := Bytes.digits_littleEndian layout.flags
  rw [layout.magicSize] at smallMagic magic
  rw [layout.flagsSize] at smallFlags flags
  rw [Header.bytes, header, UInt16.toNat_ofNat_of_lt' smallMagic,
    UInt32.toNat_ofNat_of_lt' smallFlags, magic, flags,
    Invalidation.bytes_ofBytes layout.sourceSize, bytes, ending]

end Layout

variable {header : Header} {data : Bytes} {version : Version} {error : Error}

/-- The fields of the bytes of a header. -/
def WellFormed.layout (wellFormed : header.WellFormed) : Layout where
  magic := Bytes.digits 2 header.magic.toNat
  lineEnding := [13, 10]
  flags := Bytes.digits 4 header.flags.toNat
  source := header.invalidation.bytes
  magicSize := Bytes.length_digits 2 _
  lineEndingSize := rfl
  flagsSize := Bytes.length_digits 4 _
  sourceSize := Invalidation.length_bytes wellFormed.invalidation

theorem WellFormed.header_layout (wellFormed : header.WellFormed) :
    wellFormed.layout.header header.version = header := by
  have magic := Bytes.littleEndian_digits_of_lt (show header.magic.toNat < 256 ^ 2 from
    header.magic.toNat_lt)
  have flags := Bytes.littleEndian_digits_of_lt (show header.flags.toNat < 256 ^ 4 from
    header.flags.toNat_lt)
  rw [Layout.header, layout, magic, flags, UInt16.ofNat_toNat, UInt32.ofNat_toNat,
    Invalidation.ofBytes_bytes wellFormed.invalidation]

/-- A header is read back from its bytes, whatever stands behind them. -/
theorem ofBytes_bytes (wellFormed : header.WellFormed) (rest : Bytes) :
    ofBytes (header.bytes ++ rest) = .ok header := by
  have magic := Bytes.littleEndian_digits_of_lt (show header.magic.toNat < 256 ^ 2 from
    header.magic.toNat_lt)
  have version : Version.ofBytes wellFormed.layout.magic = .ok header.version := by
    rw [Version.ofBytes_of_pair wellFormed.layout.magicSize, WellFormed.layout, magic,
      UInt16.ofNat_toNat]
    exact Version.ofMagic_eq_ok_iff.mpr wellFormed.version
  have fields : header.bytes = wellFormed.layout.bytes := rfl
  have ending : wellFormed.layout.lineEnding = [13, 10] := rfl
  rw [fields, ofBytes_layout, version]
  simp only [bind, Except.bind, ending, if_true, wellFormed.header_layout]

theorem exists_layout (whole : size ≤ data.length) :
    ∃ layout : Layout, data = layout.bytes ++ data.drop size ∧ layout.bytes = data.take size := by
  obtain ⟨layout, same⟩ := Layout.exists_bytes_eq (List.length_take_of_le whole)
  exact ⟨layout, by rw [same, List.take_append_drop], same⟩

/-- What can come of the header at the front of some bytes. The first fault in this order counts. -/
inductive Outcome (data : Bytes) : Except Error Header → Prop
  | short (short : data.length < size) :
      Outcome data (.error (.invalidHeader (.tooShort data.length)))
  | unknown (whole : size ≤ data.length)
      (unwritten : ∀ version : Version, ¬version.Writes (magicOf data)) :
      Outcome data (.error (.unknownMagic (magicOf data)))
  | unended {version : Version} (whole : size ≤ data.length)
      (written : version.Writes (magicOf data)) (unended : endingOf data ≠ [13, 10]) :
      Outcome data (.error (.invalidHeader .lineEnding))
  | read {header : Header} (whole : size ≤ data.length) (ended : endingOf data = [13, 10])
      (magic : header.magic = magicOf data) (wellFormed : header.WellFormed)
      (front : header.bytes = data.take size) : Outcome data (.ok header)

theorem outcome_ofBytes (data : Bytes) : Outcome data (ofBytes data) := by
  rcases Nat.lt_or_ge data.length size with short | whole
  · have refused : ofBytes data = .error (.invalidHeader (.tooShort data.length)) := if_pos short
    rw [refused]
    exact .short short
  · obtain ⟨layout, split, front⟩ := exists_layout whole
    have magic : magicOf data = UInt16.ofNat layout.magic.littleEndian := by
      rw [split, layout.magicOf_bytes]
    have ending : endingOf data = layout.lineEnding := by
      rw [split, layout.endingOf_bytes]
    have read := ofBytes_layout layout (data.drop size)
    rw [← split, Version.ofBytes_of_pair layout.magicSize, ← magic] at read
    by_cases known : ∃ version : Version, version.Writes (magicOf data)
    · obtain ⟨version, writes⟩ := known
      rw [Version.ofMagic_eq_ok_iff.mpr writes] at read
      simp only [bind, Except.bind] at read
      by_cases ended : layout.lineEnding = [13, 10]
      · rw [if_pos ended] at read
        rw [read]
        refine .read whole (ending.trans ended) magic.symm ⟨?_, ?_⟩ ?_
        · rwa [magic] at writes
        · exact Invalidation.suits_ofBytes layout.sourceSize
        · rw [layout.bytes_header version ended, front]
      · rw [if_neg ended] at read
        rw [read]
        exact .unended whole writes (ending ▸ ended)
    · have unwritten := not_exists.mp known
      rw [Version.ofMagic_of_outside unwritten] at read
      rw [read]
      exact .unknown whole unwritten

/-- The version that the front of a module tells, without the rest of its header. -/
def versionOf (data : Bytes) : Except Error Version :=
  if data.length < size then
    .error (.invalidHeader (.tooShort data.length))
  else do
    let version ← Version.ofMagic (magicOf data)
    if endingOf data = [13, 10] then .ok version else .error (.invalidHeader .lineEnding)

theorem version_ofBytes (data : Bytes) : Header.version <$> ofBytes data = versionOf data := by
  rw [versionOf]
  generalize read : ofBytes data = result
  have outcome := outcome_ofBytes data
  rw [read] at outcome
  cases outcome with
  | short short =>
      rw [if_pos short]
      rfl
  | unknown whole unwritten =>
      rw [if_neg (Nat.not_lt_of_le whole), Version.ofMagic_of_outside unwritten]
      rfl
  | unended whole written unended =>
      rw [if_neg (Nat.not_lt_of_le whole), Version.ofMagic_eq_ok_iff.mpr written]
      exact (if_neg unended).symm
  | read whole ended magic wellFormed front =>
      have written := wellFormed.version
      rw [magic] at written
      rw [if_neg (Nat.not_lt_of_le whole), Version.ofMagic_eq_ok_iff.mpr written]
      exact (if_pos ended).symm

end Header

namespace Image

variable {header : Header} {code : CodeUnit} {data : Bytes} {error : Error}

/-- The code of the module that a stream holds. -/
def codeOf (version : Version) (stream : Bytes) : Except Error CodeUnit := do
  let value ← Value.ofBytes version stream
  match value.code? with
  | some code => return code
  | none => .error (.malformedCode .unit (.notCode value.kind))

theorem codeOf_eq_ok_iff {version : Version} {stream : Bytes} :
    codeOf version stream = .ok code ↔ Value.ofBytes version stream = .ok code.toValue := by
  rw [codeOf]
  constructor
  · intro loaded
    obtain ⟨value, read, loaded⟩ := bind_eq_ok_iff.mp loaded
    split at loaded
    · next isCode =>
        cases loaded
        rwa [← Value.code?_eq_some_iff.mp isCode]
    · cases loaded
  · intro read
    rw [read]
    rfl

theorem codeOf_eq_error_iff {version : Version} {stream : Bytes} :
    codeOf version stream = .error error ↔
      Value.ofBytes version stream = .error error ∨
        ∃ value, Value.ofBytes version stream = .ok value ∧
          (∀ code : CodeUnit, value ≠ code.toValue) ∧
          error = .malformedCode .unit (.notCode value.kind) := by
  rw [codeOf]
  cases read : Value.ofBytes version stream with
  | error other => simp [bind, Except.bind]
  | ok value =>
      cases isCode : value.code? with
      | some code =>
          obtain rfl := Value.code?_eq_some_iff.mp isCode
          have coded : ¬∀ other : CodeUnit, code.toValue ≠ other.toValue :=
            fun plain => plain code rfl
          simp [bind, Except.bind, isCode, pure, Except.pure, coded]
      | none =>
          have plain : ∀ code : CodeUnit, value ≠ code.toValue := by
            rintro code rfl
            cases isCode
          simp [bind, Except.bind, isCode, plain, eq_comm]

/-- A module is a header and the code behind it. -/
theorem ofBytes_eq (data : Bytes) :
    ofBytes data = (do
      let header ← Header.ofBytes data
      let code ← codeOf header.version (data.drop Header.size)
      return ⟨header, code⟩) := by
  rw [ofBytes]
  refine bind_congr fun header => ?_
  rw [codeOf, bind_assoc]
  refine bind_congr fun value => ?_
  cases value.code? <;> rfl

theorem ofBytes_eq_ok_iff :
    ofBytes data = .ok ⟨header, code⟩ ↔
      Header.ofBytes data = .ok header ∧
        Value.ofBytes header.version (data.drop Header.size) = .ok code.toValue := by
  rw [ofBytes_eq, bind_eq_ok_iff]
  constructor
  · rintro ⟨read, accepted, loaded⟩
    obtain ⟨unit, coded, same⟩ := bind_eq_ok_iff.mp loaded
    cases same
    exact ⟨accepted, codeOf_eq_ok_iff.mp coded⟩
  · rintro ⟨accepted, loaded⟩
    refine ⟨header, accepted, bind_eq_ok_iff.mpr ⟨code, codeOf_eq_ok_iff.mpr loaded, rfl⟩⟩

theorem ofBytes_eq_error_iff :
    ofBytes data = .error error ↔
      Header.ofBytes data = .error error ∨
        ∃ header, Header.ofBytes data = .ok header ∧
          codeOf header.version (data.drop Header.size) = .error error := by
  rw [ofBytes_eq]
  cases read : Header.ofBytes data with
  | error other => simp [bind, Except.bind]
  | ok header =>
      cases coded : codeOf header.version (data.drop Header.size) with
      | error other => simp [bind, Except.bind, coded]
      | ok code => simp [bind, Except.bind, coded, pure, Except.pure]

/-- The code of a module depends on nothing of its header but the version. -/
theorem code_ofBytes (data : Bytes) :
    Image.code <$> ofBytes data =
      Header.version <$> Header.ofBytes data >>= (codeOf · (data.drop Header.size)) := by
  rw [ofBytes_eq]
  cases Header.ofBytes data with
  | error error => rfl
  | ok header =>
      simp only [bind, Except.bind, Functor.map, Except.map]
      cases codeOf header.version (data.drop Header.size) <;> rfl

end Image

/--
Headers are their sixteen bytes, and a module is its header and the code unit that the stream behind
it loads for the version of the header.
-/
structure HeaderFactoring : Prop where
  /-- A header is accepted for its length, its magic number and its line ending. -/
  accepted : ∀ data : Bytes, (∃ header, Header.ofBytes data = .ok header) ↔
    Header.size ≤ data.length ∧ (∃ version : Version, version.Writes (Header.magicOf data)) ∧
      Header.endingOf data = [13, 10]
  /-- Of several faults the first one is told: the length, the magic number, the line ending. -/
  outcome : ∀ data : Bytes, Header.Outcome data (Header.ofBytes data)
  /-- An accepted header is well formed, and it is written as it was read. -/
  written : ∀ {data : Bytes} {header : Header}, Header.ofBytes data = .ok header →
    header.WellFormed ∧ header.bytes = data.take Header.size
  /-- A well-formed header is read as it was written, whatever stands behind it. -/
  readBack : ∀ {header : Header}, header.WellFormed →
    ∀ rest : Bytes, Header.ofBytes (header.bytes ++ rest) = .ok header
  /-- A module loads with the code unit that its stream loads. -/
  loaded : ∀ {data : Bytes} {header : Header} {code : CodeUnit},
    Image.ofBytes data = .ok ⟨header, code⟩ ↔
      Header.ofBytes data = .ok header ∧
        Value.ofBytes header.version (data.drop Header.size) = .ok code.toValue
  /-- A module fails with the error of its header or of its stream, or for want of a code unit. -/
  failed : ∀ {data : Bytes} {error : Error},
    Image.ofBytes data = .error error ↔
      Header.ofBytes data = .error error ∨
        ∃ header, Header.ofBytes data = .ok header ∧
          (Value.ofBytes header.version (data.drop Header.size) = .error error ∨
            ∃ value, Value.ofBytes header.version (data.drop Header.size) = .ok value ∧
              (∀ code : CodeUnit, value ≠ code.toValue) ∧
              error = .malformedCode .unit (.notCode value.kind))
  /-- Nothing of a header matters for the code behind it but the range of the magic number. -/
  sameCode : ∀ {one other : Bytes} {version : Version}, one.length = other.length →
    version.Writes (Header.magicOf one) → version.Writes (Header.magicOf other) →
    Header.endingOf one = Header.endingOf other →
    one.drop Header.size = other.drop Header.size →
    Image.code <$> Image.ofBytes one = Image.code <$> Image.ofBytes other

/-- Reading a header and writing it undo each other, and modules factor through it. -/
theorem headerFactoring : HeaderFactoring where
  accepted data := by
    generalize read : Header.ofBytes data = result
    have outcome := Header.outcome_ofBytes data
    rw [read] at outcome
    cases outcome with
    | short short => simp [Nat.not_le_of_lt short]
    | unknown whole unwritten => simp [unwritten]
    | unended whole written unended => simp [unended]
    | read whole ended magic wellFormed front =>
        have written := wellFormed.version
        rw [magic] at written
        exact ⟨fun _ => ⟨whole, ⟨_, written⟩, ended⟩, fun _ => ⟨_, rfl⟩⟩
  outcome := Header.outcome_ofBytes
  written {data header} read := by
    have outcome := Header.outcome_ofBytes data
    rw [read] at outcome
    cases outcome with
    | read whole ended magic wellFormed front => exact ⟨wellFormed, front⟩
  readBack := Header.ofBytes_bytes
  loaded := Image.ofBytes_eq_ok_iff
  failed := by
    intro data error
    simp only [Image.ofBytes_eq_error_iff, Image.codeOf_eq_error_iff]
  sameCode := by
    intro one other version length written writtenOther ending stream
    rw [Image.code_ofBytes, Image.code_ofBytes, Header.version_ofBytes, Header.version_ofBytes,
      Header.versionOf, Header.versionOf, Version.ofMagic_eq_ok_iff.mpr written,
      Version.ofMagic_eq_ok_iff.mpr writtenOther, length, ending, stream]

/-- A header with a hash that is checked. -/
def Header.checkedHash : Header :=
  ⟨3531, ⟨3, 12⟩, 3, .hash true [9, 8, 7, 6, 5, 4, 3, 2]⟩

theorem headerFactoring_checkedHash :
    Header.checkedHash.WellFormed ∧
      Header.checkedHash.bytes = [0xCB, 13, 13, 10, 3, 0, 0, 0, 9, 8, 7, 6, 5, 4, 3, 2] ∧
      Header.ofBytes (Header.checkedHash.bytes ++ [0x63]) = .ok Header.checkedHash := by
  have wellFormed : Header.checkedHash.WellFormed :=
    ⟨Version.ofMagic_eq_ok_iff.mp rfl, by decide, by decide, rfl⟩
  exact ⟨wellFormed, by decide, headerFactoring.readBack wellFormed [0x63]⟩

end CodeScope

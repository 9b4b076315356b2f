import CodeScope.Image.Header
import CodeScope.Proofs.Bytes.Scanning

/-!
# Fields of a header

A header is decided by its sixteen bytes: what stands behind them does not matter.
-/

namespace CodeScope

/-- A version is told by two bytes. -/
theorem Version.ofBytes_append {front : Bytes} (long : 2 ≤ front.length) (back : Bytes) :
    ofBytes (front ++ back) = ofBytes front := by
  cases front with
  | nil => contradiction
  | cons low later =>
      cases later with
      | nil => contradiction
      | cons high later => rfl

/-- The data about the source that eight bytes write under some flags. -/
def Invalidation.ofBytes (flags : UInt32) (data : Bytes) : Invalidation :=
  if flags.toNat.testBit 0 then
    .hash (flags.toNat.testBit 1) data
  else
    .timestamp (UInt32.ofNat (Bytes.littleEndian (data.take 4)))
      (UInt32.ofNat (Bytes.littleEndian (data.drop 4)))

namespace Header

/-- The bytes of a header, field by field. -/
structure Layout where
  magic : Bytes
  lineEnding : Bytes
  flags : Bytes
  source : Bytes
  magicSize : magic.length = 2
  lineEndingSize : lineEnding.length = 2
  flagsSize : flags.length = 4
  sourceSize : source.length = 8

namespace Layout

/-- The fields one after the other. -/
def bytes (layout : Layout) : Bytes :=
  layout.magic ++ (layout.lineEnding ++ (layout.flags ++ layout.source))

/-- The header that the bytes write for a version. -/
def header (layout : Layout) (version : Version) : Header where
  magic := UInt16.ofNat layout.magic.littleEndian
  version := version
  flags := UInt32.ofNat layout.flags.littleEndian
  invalidation := .ofBytes (UInt32.ofNat layout.flags.littleEndian) layout.source

theorem length_bytes (layout : Layout) : layout.bytes.length = size := by
  simp only [bytes, List.length_append, layout.magicSize, layout.lineEndingSize,
    layout.flagsSize, layout.sourceSize]
  rfl

/-- Sixteen bytes are those of some fields. -/
theorem exists_bytes_eq {data : Bytes} (whole : data.length = size) :
    ∃ layout : Layout, layout.bytes = data := by
  refine ⟨⟨data.take 2, (data.drop 2).take 2, (data.drop 4).take 4, data.drop 8, ?_, ?_, ?_, ?_⟩,
    ?_⟩
  · simp [whole, size]
  · simp [whole, size]
  · simp [whole, size]
  · simp [whole, size]
  · have third : (data.drop 4).take 4 ++ data.drop 8 = data.drop 4 := by
      have split := List.take_append_drop 4 (data.drop 4)
      rwa [List.drop_drop] at split
    have second : (data.drop 2).take 2 ++ data.drop 4 = data.drop 2 := by
      have split := List.take_append_drop 2 (data.drop 2)
      rwa [List.drop_drop] at split
    rw [bytes, third, second, List.take_append_drop]

theorem scan_source (layout : Layout) (flags : UInt32) (rest : Bytes) (offset : Nat) :
    invalidationScan flags ⟨layout.source ++ rest, offset⟩ =
      .ok (.ofBytes flags layout.source, ⟨rest, offset + 8⟩) := by
  rw [invalidationScan, Invalidation.ofBytes]
  split
  · exact Scan.bind_of_ok (Scan.bytes_append rest offset layout.sourceSize)
  · have first : (layout.source.take 4).length = 4 := by simp [layout.sourceSize]
    have second : (layout.source.drop 4).length = 4 := by simp [layout.sourceSize]
    have split : layout.source ++ rest =
        layout.source.take 4 ++ (layout.source.drop 4 ++ rest) := by
      rw [← List.append_assoc, List.take_append_drop]
    rw [split, Scan.bind_of_ok (Scan.u32_append _ offset first),
      Scan.bind_of_ok (Scan.u32_append rest (offset + 4) second)]
    rfl

/-- The fields are read in their order, and the line ending is checked before those after it. -/
theorem scan_bytes (layout : Layout) (version : Version) (rest : Bytes) :
    scan version (.start (layout.bytes ++ rest)) =
      if layout.lineEnding = [13, 10] then .ok (layout.header version, ⟨rest, size⟩)
      else .error (.invalidHeader .lineEnding) := by
  simp only [scan, bytes, Cursor.start, List.append_assoc]
  rw [Scan.bind_of_ok (Scan.u16_append _ 0 layout.magicSize),
    Scan.bind_of_ok (Scan.bytes_append _ 2 layout.lineEndingSize)]
  by_cases ending : layout.lineEnding = [13, 10]
  · simp only [ending, ne_eq, not_true_eq_false, if_false, if_true]
    rw [Scan.bind_of_ok (Scan.u32_append _ 4 layout.flagsSize),
      Scan.bind_of_ok (layout.scan_source _ rest 8)]
    rfl
  · simp only [ending, ne_eq, not_false_eq_true, if_true, if_false]
    rfl

end Layout

/-- A header is decided by the bytes of its fields. -/
theorem ofBytes_layout (layout : Layout) (rest : Bytes) :
    ofBytes (layout.bytes ++ rest) = (do
      let version ← Version.ofBytes layout.magic
      if layout.lineEnding = [13, 10] then .ok (layout.header version)
      else .error (.invalidHeader .lineEnding)) := by
  have long : ¬(layout.bytes ++ rest).length < size := by
    rw [List.length_append, layout.length_bytes]
    exact Nat.not_lt_of_le (Nat.le_add_right _ _)
  have versioned : Version.ofBytes (layout.bytes ++ rest) = Version.ofBytes layout.magic := by
    rw [Layout.bytes, List.append_assoc]
    exact Version.ofBytes_append (Nat.le_of_eq layout.magicSize.symm) _
  rw [ofBytes, if_neg long, versioned]
  cases Version.ofBytes layout.magic with
  | error error => rfl
  | ok version =>
      by_cases ending : layout.lineEnding = [13, 10]
      · simp only [bind, Except.bind, layout.scan_bytes, ending, if_true]
        rfl
      · simp only [bind, Except.bind, layout.scan_bytes, ending, if_false]

/-- What stands behind the bytes of a header does not matter. -/
theorem ofBytes_append {front : Bytes} (whole : size ≤ front.length) (back : Bytes) :
    ofBytes (front ++ back) = ofBytes front := by
  obtain ⟨layout, same⟩ := Layout.exists_bytes_eq (List.length_take_of_le whole)
  have split : front = layout.bytes ++ front.drop size := by
    rw [same, List.take_append_drop]
  rw [split, List.append_assoc, ofBytes_layout, ofBytes_layout]

end Header
end CodeScope

import CodeScope.Bytes.Cursor
import CodeScope.Version.Magic

/-!
# Headers

A compiled module opens with sixteen bytes: the magic number, a line ending, a flag word, and the
data by which an importer sees that the source has changed.
-/

namespace CodeScope

/-- How a compiled module tells that its source has changed. -/
inductive Invalidation where
  /-- By the time of the last change of the source and its size, both modulo 2³². -/
  | timestamp (mtime sourceSize : UInt32)
  /-- By a hash of the source, which is computed again on import if `checkSource` holds. -/
  | hash (checkSource : Bool) (digest : Bytes)
  deriving DecidableEq, Repr

/-- The header of a compiled module. -/
structure Header where
  /-- Magic number. -/
  magic : UInt16
  /-- Version that the magic number stands for. -/
  version : Version
  /-- Flag word. -/
  flags : UInt32
  /-- Data about the source. -/
  invalidation : Invalidation
  deriving DecidableEq, Repr

namespace Header

/-- Number of bytes in a header. -/
def size : Nat := 16

/-- The data about the source. The lowest flag asks for a hash, the next one for its check. -/
def invalidationScan (flags : UInt32) : Scan Invalidation :=
  if flags.toNat.testBit 0 then do
    let digest ← Scan.bytes 8
    return .hash (flags.toNat.testBit 1) digest
  else do
    let mtime ← Scan.u32
    let sourceSize ← Scan.u32
    return .timestamp mtime sourceSize

/-- The parts of a header whose version is known. -/
def scan (version : Version) : Scan Header := do
  let magic ← Scan.u16
  let lineEnding ← Scan.bytes 2
  if lineEnding ≠ [13, 10] then
    Scan.fail (.invalidHeader .lineEnding)
  let flags ← Scan.u32
  let invalidation ← invalidationScan flags
  return { magic, version, flags, invalidation }

/-- The header at the front of a compiled module. -/
def ofBytes (data : Bytes) : Except Error Header :=
  if data.length < size then
    .error (.invalidHeader (.tooShort data.length))
  else do
    let version ← Version.ofBytes data
    let (header, _) ← scan version (Cursor.start data)
    return header

end Header
end CodeScope

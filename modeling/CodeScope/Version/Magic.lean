import CodeScope.Error

/-!
# Magic numbers

A compiled module opens with a magic number that tells its version. A version used several numbers
while it was developed; the last of its range is the one of its release.
-/

namespace CodeScope

/-- The magic numbers of one version. -/
structure MagicRange where
  /-- First number used during development. -/
  first : UInt16
  /-- Number of the release. -/
  last : UInt16
  /-- Version that writes these numbers. -/
  version : Version
  deriving DecidableEq, Repr

namespace MagicRange

/-- The ranges of all supported versions, oldest first. -/
def all : List MagicRange :=
  [⟨3400, 3413, ⟨3, 8⟩⟩, ⟨3420, 3425, ⟨3, 9⟩⟩, ⟨3430, 3439, ⟨3, 10⟩⟩,
    ⟨3450, 3495, ⟨3, 11⟩⟩, ⟨3500, 3531, ⟨3, 12⟩⟩]

/-- Whether a magic number lies in the range, both ends included. -/
def contains (range : MagicRange) (magic : UInt16) : Bool :=
  range.first ≤ magic && magic ≤ range.last

end MagicRange

namespace Version

/-- The version that writes a magic number. -/
def ofMagic (magic : UInt16) : Except Error Version :=
  match MagicRange.all.find? fun range => range.contains magic with
  | some range => .ok range.version
  | none => .error (.unknownMagic magic)

/-- The version that the first two bytes of a compiled module tell. -/
def ofBytes : List UInt8 → Except Error Version
  | low :: high :: _ => ofMagic (UInt16.ofNat (low.toNat + 256 * high.toNat))
  | _ => .error (.invalidHeader .magicTooShort)

/-- The magic number of the release of a version. -/
def magic (version : Version) : Except Error UInt16 :=
  match MagicRange.all.find? fun range => range.version == version with
  | some range => .ok range.last
  | none => .error (.unsupportedVersion version)

/-- The first four bytes of a module that the release of a version compiles. -/
def magicBytes (version : Version) : Except Error (List UInt8) := do
  let magic ← version.magic
  return [UInt8.ofNat magic.toNat, UInt8.ofNat (magic.toNat / 256), 13, 10]

end Version
end CodeScope

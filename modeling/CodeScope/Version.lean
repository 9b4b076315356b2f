/-!
# Interpreter versions

The versions whose compiled modules can be read. Every decision that depends on the version goes
through its profile, so a version itself only has an order and a text.
-/

namespace CodeScope

/-- An interpreter version, ordered by its major and then its minor number. -/
structure Version where
  /-- Major number. -/
  major : UInt8
  /-- Minor number. -/
  minor : UInt8
  deriving DecidableEq, Repr, Inhabited

namespace Version

/-- Whether `left` comes before, is or comes after `right`. -/
def order (left right : Version) : Ordering :=
  (compare left.major right.major).then (compare left.minor right.minor)

/-- The versions that can be read, oldest first. -/
def supported : List Version :=
  [⟨3, 8⟩, ⟨3, 9⟩, ⟨3, 10⟩, ⟨3, 11⟩, ⟨3, 12⟩]

/-- Whether compiled modules of this version can be read. -/
def isSupported (version : Version) : Bool :=
  version ∈ supported

/-- The two numbers with a point between them. -/
def text (version : Version) : String :=
  let major := version.major.toNat
  let minor := version.minor.toNat
  s!"{major}.{minor}"

end Version
end CodeScope

import CodeScope.Image.Header
import CodeScope.Marshal.Stream

/-!
# Compiled modules

A compiled module is a header and a stream with one code unit.
-/

namespace CodeScope

/-- A compiled module. -/
structure Image where
  /-- Header. -/
  header : Header
  /-- Code of the module. -/
  code : CodeUnit

namespace Image

/-- The module that a file holds. -/
def ofBytes (data : Bytes) : Except Error Image := do
  let header ← Header.ofBytes data
  let value ← Value.ofBytes header.version (data.drop Header.size)
  match value.code? with
  | some code => return ⟨header, code⟩
  | none => .error (.malformedCode .unit (.notCode value.kind))

end Image
end CodeScope

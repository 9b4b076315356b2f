import CodeScope.Bytes.Cursor

/-!
# Decoded tables

A table is a byte string that holds one entry after the other. Decoding it gives the entries before
the first malformed one and, if there is one, its error.
-/

namespace CodeScope

/-- The entries of a table up to its end or its first error. -/
structure Decoded (α : Type) where
  /-- Entries before the end or the first error. -/
  entries : List α
  /-- The error that ends the table, if it is malformed. -/
  fault : Option Error
  deriving Repr

namespace Decoded

/-- All entries of a well-formed table. -/
def toExcept {α : Type} (decoded : Decoded α) : Except Error (List α) :=
  match decoded.fault with
  | some error => .error error
  | none => .ok decoded.entries

/-- A table with one more entry at its front. -/
def push {α : Type} (entry : α) (decoded : Decoded α) : Decoded α :=
  { decoded with entries := entry :: decoded.entries }

end Decoded
end CodeScope

import CodeScope.Error

/-!
# Source positions

A position table divides the code of a unit into ranges with the same place in the source. It is
read through a cursor that answers queries whose offsets do not decrease.
-/

namespace CodeScope

/-- A place in the source. A field is -1 when it is not known. -/
structure Span where
  /-- First line. -/
  line : Int
  /-- Last line. -/
  endLine : Int
  /-- Column of the first character. -/
  column : Int
  /-- Column after the last character. -/
  endColumn : Int
  deriving DecidableEq, Repr

namespace Span

/-- A place of which only the first line is known. -/
def ofLine (line : Int) : Span := ⟨line, -1, -1, -1⟩

/-- No place. -/
def unknown : Span := ⟨-1, -1, -1, -1⟩

end Span

/-- The span that holds at an offset. -/
structure Position where
  /-- Byte offset in the code. -/
  offset : Nat
  /-- Place in the source. -/
  span : Span
  deriving DecidableEq, Repr

namespace Position

/-- Refuse a query at an offset before that of the last one. -/
def checkOrder (last : Option Nat) (offset : Nat) : Except Error Unit :=
  match last with
  | none => .ok ()
  | some current =>
      if offset < current then .error (.positionRewind offset current) else .ok ()

end Position
end CodeScope

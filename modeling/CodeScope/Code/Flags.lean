import CodeScope.Text.Hex

/-!
# Code flags

The flag word of a code unit. Bits without a name are kept.
-/

namespace CodeScope

/-- The flag word of a code unit. -/
structure CodeFlags where
  /-- All bits, named or not. -/
  bits : UInt32
  deriving DecidableEq, Repr, Inhabited

namespace CodeFlags

/-- The named flags in the order of their bits, from the lowest on. -/
def names : List String :=
  ["OPTIMIZED", "NEWLOCALS", "VARARGS", "VARKEYWORDS", "NESTED", "GENERATOR", "NOFREE",
    "COROUTINE", "ITERABLE_COROUTINE", "ASYNC_GENERATOR"]

/-- The names of the flags that are set. -/
def setNames (flags : CodeFlags) : List String :=
  names.zipIdx.filterMap fun (name, index) =>
    if flags.bits.toNat.testBit index then some name else none

/-- The bits above the named ones, as a number. -/
def unnamed (flags : CodeFlags) : Nat :=
  (flags.bits.toNat >>> names.length) <<< names.length

/-- The names of the flags that are set, and the other bits as a hexadecimal numeral. -/
def text (flags : CodeFlags) : String :=
  let numeral := Hex.numeral flags.unnamed
  let others := if flags.unnamed = 0 then [] else [s!"0x{numeral}"]
  String.intercalate " | " (flags.setNames ++ others)

end CodeFlags
end CodeScope

/-!
# Rounding

Rounding of a quotient of natural numbers to a natural number.
-/

namespace CodeScope
namespace Rounding

/-- The nearest natural number to a quotient; of two that are equally near, the even one. -/
def halfEven (numerator denominator : Nat) : Nat :=
  let quotient := numerator / denominator
  let twice := 2 * (numerator % denominator)
  if twice < denominator then
    quotient
  else if denominator < twice then
    quotient + 1
  else
    quotient + quotient % 2

end Rounding
end CodeScope

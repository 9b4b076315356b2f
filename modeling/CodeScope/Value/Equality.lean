import CodeScope.Value.Basic

/-!
# Equality of values

Two values are equal if they have the same shape and equal leaves. Numbers are compared as numbers
of one encoding, so a value that holds no number at some place differs from itself. Whether a text
is interned and where a code unit was read do not count.
-/

namespace CodeScope
namespace Value

mutual

/-- Whether two values are equal. -/
def agrees : Value → Value → Bool
  | none, none => true
  | bool left, bool right => left == right
  | stopIteration, stopIteration => true
  | ellipsis, ellipsis => true
  | int32 left, int32 right => left == right
  | int64 left, int64 right => left == right
  | long left, long right => left == right
  | float left, float right => left.agrees right
  | complex leftReal leftImaginary, complex rightReal rightImaginary =>
      leftReal.agrees rightReal && leftImaginary.agrees rightImaginary
  | bytes left, bytes right => left == right
  | text left _, text right _ => left == right
  | tuple left, tuple right => agreeAll left right
  | list left, list right => agreeAll left right
  | dict left, dict right => agreeEntries left right
  | set left, set right => agreeAll left right
  | frozenSet left, frozenSet right => agreeAll left right
  | reference left, reference right => left == right
  | code leftInfo left, code rightInfo right => leftInfo.agrees rightInfo && agreeAll left right
  | _, _ => false

/-- Whether two sequences have equal values in the same order. -/
def agreeAll : List Value → List Value → Bool
  | [], [] => true
  | left :: lefts, right :: rights => left.agrees right && agreeAll lefts rights
  | _, _ => false

/-- Whether two mappings have equal keys and values in the same order. -/
def agreeEntries : List (Value × Value) → List (Value × Value) → Bool
  | [], [] => true
  | (leftKey, left) :: lefts, (rightKey, right) :: rights =>
      leftKey.agrees rightKey && left.agrees right && agreeEntries lefts rights
  | _, _ => false

end

end Value
end CodeScope

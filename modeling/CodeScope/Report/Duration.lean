import CodeScope.Number.Shortest

/-!
# Durations

The text of the time that a task took: whole microseconds below one millisecond, otherwise
milliseconds with two places after the point.
-/

namespace CodeScope

/-- A length of time. -/
structure Duration where
  /-- Nanoseconds. -/
  nanoseconds : Nat
  deriving DecidableEq, Repr

namespace Duration

/-- The duration in seconds: whole seconds plus the rest, each rounded. -/
def seconds (duration : Duration) : Binary64 :=
  (Binary64.ofRatio (duration.nanoseconds / powerOfTen 9) 1).addMagnitudes
    (Binary64.ofRatio (duration.nanoseconds % powerOfTen 9) (powerOfTen 9))

/-- The text of a duration. -/
def text (duration : Duration) : String :=
  if duration.nanoseconds < powerOfTen 6 then
    let microseconds := duration.nanoseconds / 1000
    s!"{microseconds} µs"
  else
    let milliseconds := duration.seconds.mulMagnitudes (Binary64.ofRatio 1000 1)
    (milliseconds.roundedTo 2).positional ++ " ms"

end Duration
end CodeScope

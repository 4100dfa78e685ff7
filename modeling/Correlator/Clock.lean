/-!
# The clock

Times are whole seconds from the start of a bridge, and the clock has an end.

* `Clock.after?`: the time so many seconds from now, if the clock can hold it.
* `Clock.afterOrFar`: the same, or a time far away if the clock cannot hold it.
-/

namespace Correlator.Clock

/-- The last second that the clock can hold. -/
def last : Nat := Nat.pow 2 63 - 1

/-- Thirty years in seconds. -/
def far : Nat := 30 * 365 * 86400

/-- The time so many seconds from now, if the clock can hold it. -/
def after? (now seconds : Nat) : Option Nat :=
  if now + seconds ≤ last then some (now + seconds) else none

/-- The time so many seconds from now, or in thirty years if the clock cannot hold it. -/
def afterOrFar (now seconds : Nat) : Nat := (after? now seconds).getD (now + far)

end Correlator.Clock

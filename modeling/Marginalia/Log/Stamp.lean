import Marginalia.Binary64.Basic
import Marginalia.Calendar

/-!
# The time of an entry

An entry bears the time at which it is made, as a binary number of seconds. Which moment is shown
depends on that number and not on the clock it was taken from, so that the microseconds of a late
time differ from the milliseconds that were read.
-/

namespace Marginalia.Log

/-- The time of an entry. -/
structure Stamp where
  /-- The seconds since the beginning of 1970. -/
  created : Binary64
  /-- The milliseconds within the second, as they were read. -/
  millisecond : Nat
  deriving DecidableEq, Repr

namespace Stamp

/-- The time so many milliseconds after the beginning of 1970. -/
def ofMilliseconds (ms : Int) : Stamp :=
  ⟨.ofRatio (ms < 0) ms.natAbs 1000, (ms % 1000).toNat⟩

/-- Date and time to the second, if they can be shown. -/
def plain? (t : Stamp) : Option String :=
  t.created.floor?.bind fun s => (Calendar.Moment.ofSeconds s).plain?

/-- Date and time to the nearest microsecond, if they can be shown. -/
def iso? (t : Stamp) : Option String :=
  (t.created.nearestMultiple? 1000000).bind fun n =>
    (Calendar.Moment.ofSeconds (n / 1000000)).iso? (n % 1000000).toNat

end Stamp

end Marginalia.Log

import RecordFilter.Calendar.Basic

/-!
# The system time zone

A zone keeps one offset from UTC, except for one period of summer time between two instants.
`offsetAt` is the offset at an instant, `offsetOf?` the one under which a wall-clock time is read:
clocks that are put forward skip times, which then have no offset, and of the two offsets of a
repeated time the standard one is taken.

Which offset a wall-clock time has is decided by a library that is not among the sources, from the zone of
the system.  `offsetOf?` is fixed after the answers that it was seen to give, and `system` is the zone in
which they were given.
-/

namespace RecordFilter.Calendar

/-- Offsets are in seconds; summer time lasts from the instant `starts` up to the instant `ends`. -/
structure Zone where
  standard : Int
  summer : Int
  starts : Int
  ends : Int
deriving DecidableEq

namespace Zone

/-- The offset that clocks show at an instant. -/
def offsetAt (z : Zone) (seconds : Int) : Int :=
  if z.starts ≤ seconds ∧ seconds < z.ends then z.summer else z.standard

/-- The offset under which a wall-clock time, in seconds, is read. -/
def offsetOf? (z : Zone) (wall : Int) : Option Int :=
  if wall ≤ z.starts + z.standard then some z.standard
  else if wall < z.starts + z.summer then none
  else if wall < z.ends + z.standard then some z.summer
  else some z.standard

/-- Two hours ahead of UTC, three from 2019-03-31 01:00 to 2019-10-27 01:00 UTC. -/
def system : Zone := ⟨7200, 10800, 1553994000, 1572138000⟩

end Zone

/-- An instant on a clock that is `offset` seconds ahead of UTC. -/
structure Zoned where
  instant : Instant
  offset : Int
deriving DecidableEq

def Zoned.render (z : Zoned) : String := z.instant.render z.offset

/-- The first second for which there is a date. -/
def leastSecond : Int := 86400 * (Date.mk Date.leastYear 1 1).toDays

/-- The instant at which a clock with the offset shows the wall-clock time, if there is a date for
it. -/
def WallTime.at? (w : WallTime) (offset : Int) : Option Zoned :=
  let seconds := w.toSeconds - offset
  if seconds < leastSecond then none else some ⟨⟨seconds, w.time.nano⟩, offset⟩

/-- The wall-clock time in a zone. -/
def WallTime.inZone? (w : WallTime) (z : Zone) : Option Zoned :=
  (z.offsetOf? w.toSeconds).bind w.at?

end RecordFilter.Calendar

import RecordFilter.Text.Class

/-!
# Dates, times of day and instants

A wall-clock time is a date with a time of day.  A leap second is written `:60` and held as second 59
with at least a whole second of nanoseconds, so it lies after the last nanosecond of its minute and
before the next minute.  An instant counts seconds from the start of 1970 in UTC; `Date.toDays` and
`Date.ofDays` are the two directions of the Gregorian calendar, in which a year is taken to begin in
March so that the leap day is its last day.
-/

namespace RecordFilter.Calendar

open RecordFilter.Text

/-! ### Dates -/

structure Date where
  year : Int
  month : Nat
  day : Nat
deriving DecidableEq

def isLeapYear (year : Int) : Bool := year % 4 == 0 && (year % 100 != 0 || year % 400 == 0)

def daysInMonth (year : Int) (month : Nat) : Nat :=
  if month = 2 then if isLeapYear year then 29 else 28
  else if month = 4 ∨ month = 6 ∨ month = 9 ∨ month = 11 then 30
  else 31

namespace Date

/-- The years for which there are dates. -/
def leastYear : Int := -262143

def greatestYear : Int := 262142

/-- The date is one of the calendar, in a year for which there are dates. -/
def isValid (d : Date) : Bool :=
  leastYear ≤ d.year && d.year ≤ greatestYear && 1 ≤ d.month && d.month ≤ 12 && 1 ≤ d.day &&
    d.day ≤ daysInMonth d.year d.month

def compare (a b : Date) : Ordering :=
  (Ord.compare a.year b.year).then ((Ord.compare a.month b.month).then (Ord.compare a.day b.day))

/-- Days since 1970-01-01. -/
def toDays (d : Date) : Int :=
  let year := if d.month ≤ 2 then d.year - 1 else d.year
  let month : Int := if d.month ≤ 2 then d.month + 9 else d.month - 3
  let century := year / 400
  let yearOfCentury := year % 400
  let dayOfYear := (153 * month + 2) / 5 + d.day - 1
  century * 146097 + yearOfCentury * 365 + yearOfCentury / 4 - yearOfCentury / 100 + dayOfYear -
    719468

/-- The date that lies so many days after 1970-01-01. -/
def ofDays (days : Int) : Date :=
  let shifted := days + 719468
  let century := shifted / 146097
  let day := shifted % 146097
  let year := (day - day / 1460 + day / 36524 - day / 146096) / 365
  let dayOfYear := day - (365 * year + year / 4 - year / 100)
  let month := (5 * dayOfYear + 2) / 153
  let dayOfMonth := dayOfYear - (153 * month + 2) / 5 + 1
  let civilMonth := if month < 10 then month + 3 else month - 9
  let civilYear := century * 400 + year + (if civilMonth ≤ 2 then 1 else 0)
  ⟨civilYear, civilMonth.toNat, dayOfMonth.toNat⟩

/-- Four digits for the years 0 to 9999, a sign and at least four digits elsewhere. -/
def yearText (year : Int) : String :=
  if 0 ≤ year ∧ year ≤ 9999 then padded 4 year.toNat
  else (if year < 0 then "-" else "+") ++ padded 4 year.natAbs

def render (d : Date) : String := yearText d.year ++ "-" ++ padded 2 d.month ++ "-" ++ padded 2 d.day

end Date

/-! ### Times of day -/

/-- A time of day; `nano` is below two thousand million and passes one thousand million in a leap
second only. -/
structure Time where
  hour : Nat
  minute : Nat
  second : Nat
  nano : Nat
deriving DecidableEq

def nanosPerSecond : Nat := 1000000000

namespace Time

def compare (a b : Time) : Ordering :=
  (Ord.compare a.hour b.hour).then ((Ord.compare a.minute b.minute).then
    ((Ord.compare a.second b.second).then (Ord.compare a.nano b.nano)))

/-- Whole seconds since midnight. -/
def toSeconds (t : Time) : Nat := 3600 * t.hour + 60 * t.minute + t.second

def ofSeconds (seconds nano : Nat) : Time :=
  ⟨seconds / 3600, seconds / 60 % 60, seconds % 60, nano⟩

/-- A second as it is written, 0 to 60, with the nanoseconds after it. -/
def ofWritten (hour minute second nano : Nat) : Time :=
  if second = 60 then ⟨hour, minute, 59, nanosPerSecond + nano⟩ else ⟨hour, minute, second, nano⟩

/-- The second as it is written. -/
def writtenSecond (t : Time) : Nat := if t.nano < nanosPerSecond then t.second else t.second + 1

/-- Three, six or nine digits, as many as are needed, or none. -/
def fractionText (nano : Nat) : String :=
  if nano = 0 then ""
  else if nano % 1000000 = 0 then "." ++ padded 3 (nano / 1000000)
  else if nano % 1000 = 0 then "." ++ padded 6 (nano / 1000)
  else "." ++ padded 9 nano

/-- Hours, minutes and seconds. -/
def renderWhole (t : Time) : String :=
  padded 2 t.hour ++ ":" ++ padded 2 t.minute ++ ":" ++ padded 2 t.writtenSecond

def render (t : Time) : String := t.renderWhole ++ fractionText (t.nano % nanosPerSecond)

end Time

/-! ### Wall-clock times and instants -/

structure WallTime where
  date : Date
  time : Time
deriving DecidableEq

namespace WallTime

def compare (a b : WallTime) : Ordering :=
  (a.date.compare b.date).then (a.time.compare b.time)

/-- Whole seconds since 1970-01-01 00:00:00 on the same clock. -/
def toSeconds (w : WallTime) : Int := 86400 * w.date.toDays + w.time.toSeconds

def ofSeconds (seconds : Int) (nano : Nat) : WallTime :=
  ⟨Date.ofDays (seconds / 86400), Time.ofSeconds (seconds % 86400).toNat nano⟩

/-- Date and time to the second, with a space between them. -/
def render (w : WallTime) : String := w.date.render ++ " " ++ w.time.renderWhole

end WallTime

/-- Seconds since 1970-01-01 00:00:00 UTC and nanoseconds, with leap seconds as in `Time`. -/
structure Instant where
  seconds : Int
  nano : Nat
deriving DecidableEq

namespace Instant

def compare (a b : Instant) : Ordering :=
  (Ord.compare a.seconds b.seconds).then (Ord.compare a.nano b.nano)

/-- The instant with a leap second counted as the second after it. -/
def smooth (t : Instant) : Instant :=
  if t.nano < nanosPerSecond then t else ⟨t.seconds + 1, t.nano - nanosPerSecond⟩

/-- `+HH:MM` or `-HH:MM`. -/
def offsetText (offset : Int) : String :=
  (if offset < 0 then "-" else "+") ++ padded 2 (offset.natAbs / 3600) ++ ":" ++
    padded 2 (offset.natAbs / 60 % 60)

/-- Date, `T`, time and offset of the instant on a clock that is so many seconds ahead of UTC. -/
def render (t : Instant) (offset : Int) : String :=
  let w := WallTime.ofSeconds (t.seconds + offset) t.nano
  w.date.render ++ "T" ++ w.time.render ++ offsetText offset

end Instant

end RecordFilter.Calendar

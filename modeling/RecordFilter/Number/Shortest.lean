import RecordFilter.Number.Binary

/-!
# Shortest digits

The fewest decimal digits that name a positive number of a binary format: of the decimal grids
`10 ^ t`, from coarse to fine, the first one with a point in the interval of reals that round to the
number.  Only the two grid points next to the number need to be tested.  Of two hits the nearer one
is taken, and a `Tie` says which one if both are equally near.
-/

namespace RecordFilter.Number

/-- Which of two equally near digit strings is chosen. -/
inductive Tie
  | upper
  | even
deriving DecidableEq

namespace Shortest

/-- The reals that round to a number, in units of a quarter of its last place: `middle` is the number
itself, and the ends belong to the interval if `closed`. -/
structure Interval where
  lower : Nat
  middle : Nat
  upper : Nat
  closed : Bool
  exponent : Int

/-- Below a power of two the numbers lie twice as close, so that end of the interval is nearer. -/
def interval (f : Format) (mantissa : Nat) (exponent : Int) : Interval where
  lower := if mantissa = power 2 (f.precision - 1) ∧ exponent > f.least then 4 * mantissa - 1
    else 4 * mantissa - 2
  middle := 4 * mantissa
  upper := 4 * mantissa + 2
  closed := mantissa % 2 = 0
  exponent := exponent - 2

/-- `unit / grid` as a fraction, for the unit of the interval and the grid `10 ^ t`. -/
def ratio (i : Interval) (t : Int) : Nat × Nat :=
  (power 2 i.exponent.toNat * power 10 (-t).toNat,
    power 2 (-i.exponent).toNat * power 10 t.toNat)

/-- Whether the grid point `point` rounds to the number. -/
def Interval.holds (i : Interval) (num den point : Nat) : Bool :=
  if i.closed then i.lower * num ≤ point * den && point * den ≤ i.upper * num
  else i.lower * num < point * den && point * den < i.upper * num

/-- Of two neighbours the nearer one. -/
def nearer (tie : Tie) (num den middle below : Nat) : Nat :=
  let low := middle * num - below * den
  let high := (below + 1) * den - middle * num
  if low < high then below
  else if high < low then below + 1
  else match tie with
    | .upper => below + 1
    | .even => if below % 2 = 0 then below else below + 1

/-- The point of the grid `10 ^ t` that names the number, if there is one. -/
def point? (tie : Tie) (i : Interval) (t : Int) : Option Nat :=
  let (num, den) := ratio i t
  let below := i.middle * num / den
  match i.holds num den below, i.holds num den (below + 1) with
  | true, true => some (nearer tie num den i.middle below)
  | true, false => some below
  | false, true => some (below + 1)
  | false, false => none

/-- Tries `fuel` grids, each ten times finer than the one before. -/
def search (tie : Tie) (i : Interval) : Nat → Int → Nat × Int
  | 0, t => (i.middle * (ratio i t).1 / (ratio i t).2, t)
  | fuel + 1, t =>
    match point? tie i t with
    | some p => (p, t)
    | none => search tie i fuel (t - 1)

/-- A power of ten above the number, from the number of its bits. -/
def startGrid (mantissa : Nat) (exponent : Int) : Int :=
  ((mantissa.log2 : Int) + exponent + 1) * 30103 / 100000 + 1

end Shortest

/-- Digits and power of ten of the shortest decimal that names the positive number
`mantissa * 2 ^ exponent` of the format.  Eighteen digits name every number of a format of at most
53 bits, and the search starts at most two grids too high. -/
def shortest (tie : Tie) (f : Format) (mantissa : Nat) (exponent : Int) : Nat × Int :=
  let (m, e) := Binary.normalise f mantissa exponent
  Shortest.search tie (Shortest.interval f m e) 21 (Shortest.startGrid m e)

end RecordFilter.Number

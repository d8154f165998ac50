import RecordFilter.Text.Class
import RecordFilter.Number.Binary

/-!
# Decimals

A decimal is a sign, a mantissa below `2 ^ 96` and a scale of at most 28 places.  Trailing zeros are
kept and count in the text only: `compare` goes by value, and a zero has no sign there.

Decimals belong to a library that is not among the sources.  The definitions here, and those by which
`DecimalText` reads them, are fixed after its documentation and the answers that it was seen to give.
-/

namespace RecordFilter.Number

open RecordFilter.Text

/-- The number `± mantissa / 10 ^ scale`. -/
structure Decimal where
  negative : Bool
  mantissa : Nat
  scale : Nat
deriving DecidableEq

namespace Decimal

/-- Mantissas lie below this bound. -/
def capacity : Nat := power 2 96

def maxScale : Nat := 28

/-! ### Order and text -/

/-- The value with the scale raised to `scale`, as an integer. -/
def scaled (d : Decimal) (places : Nat) : Int :=
  let n : Int := d.mantissa * power 10 places
  if d.negative then -n else n

/-- Order by value. -/
def compare (a b : Decimal) : Ordering :=
  Ord.compare (a.scaled b.scale) (b.scaled a.scale)

def render (d : Decimal) : String :=
  let digits := (Nat.repr d.mantissa).toList
  let sign := if d.negative then "-" else ""
  if d.scale = 0 then sign ++ String.ofList digits
  else
    let digits := List.replicate (d.scale + 1 - digits.length) '0' ++ digits
    let whole := digits.length - d.scale
    sign ++ String.ofList (digits.take whole ++ '.' :: digits.drop whole)

/-- A mantissa with its sign; a zero is never negative. -/
def make (negative : Bool) (mantissa scale : Nat) : Decimal :=
  ⟨negative && mantissa != 0, mantissa, scale⟩

/-- An integer, if its magnitude is below the bound. -/
def ofInt? (n : Int) : Option Decimal :=
  if n.natAbs < capacity then some ⟨n < 0, n.natAbs, 0⟩ else none

/-! ### Dropping digits -/

/-- Drops the last digit of the mantissa, a half going up. -/
def dropDigit (m : Nat) : Nat := if m % 10 ≥ 5 then m / 10 + 1 else m / 10

/-- Drops trailing zeros of the fraction. -/
def stripZeros : Nat → Nat → Nat × Nat
  | m, 0 => (m, 0)
  | m, scale + 1 => if m % 10 = 0 then stripZeros (m / 10) scale else (m, scale + 1)

/-- Drops digits, one at a time, until the scale is at most `maxScale`; a mantissa that has become
zero needs no scale. -/
def limitScale : Nat → Nat → Nat → Nat × Nat
  | 0, m, scale => (m, scale)
  | excess + 1, m, scale =>
    if m / 10 = 0 then (0, 0) else limitScale excess (dropDigit m) (scale - 1)

/-- Drops digits of the fraction, one at a time, while the mantissa is not below the limit. -/
def limitDigits (limit : Nat) : Nat → Nat → Nat × Nat
  | m, 0 => (m, 0)
  | m, scale + 1 => if limit ≤ m then limitDigits limit (dropDigit m) scale else (m, scale + 1)

/-! ### From binary numbers -/

/-- Turns `m / 2 ^ k` into a mantissa and a scale.  A factor two is cancelled while there is one;
otherwise both sides are multiplied by five, which raises the scale, and where the product passes
the bound the last bit is given up. -/
def cancelTwos : Nat → Nat → Nat → Nat × Nat
  | 0, m, scale => (m, scale)
  | k + 1, m, scale =>
    if m % 2 = 0 then cancelTwos k (m / 2) scale
    else if 5 * m < capacity then cancelTwos k (5 * m) (scale + 1)
    else cancelTwos k (m / 2) scale

/-- The decimal of a binary number, with no more digits than stay below `limit` while there is a
fraction; one that is too small for any digit keeps its sign.  There is none for values that are no
numbers and for those beyond the capacity, of which `2 ^ 96` is the first on either side of zero. -/
def ofBinary? (limit : Nat) : Binary → Option Decimal
  | .finite negative m e =>
    if m = 0 then some ⟨negative, 0, 0⟩
    else if e ≥ 0 then
      let n := m * power 2 e.toNat
      if n < capacity then some ⟨negative, n, 0⟩ else none
    else
      let (m, scale) := cancelTwos (-e).toNat m 0
      let (m, scale) := limitScale (scale - maxScale) m scale
      let (m, scale) := limitDigits limit m scale
      let (m, scale) := stripZeros m scale
      some ⟨negative, m, scale⟩
  | _ => none

/-- Digit limits of the two binary formats. -/
def singleLimit : Nat := power 2 24

def doubleLimit : Nat := power 2 52

end Decimal

end RecordFilter.Number

import RecordFilter.Number.Integer

/-!
# Binary floating point

A finite number is a sign, a mantissa and a power of two, so that rounding is exact arithmetic on
natural numbers.  A `Format` says how many bits a mantissa has and which exponents exist; `round`
gives the number of the format nearest to a quotient, a half going to the even mantissa.
-/

namespace RecordFilter.Number

/-- A number `± mantissa * 2 ^ exponent`, an infinity, or no number. -/
inductive Binary
  | finite (negative : Bool) (mantissa : Nat) (exponent : Int)
  | infinite (negative : Bool)
  | nan
deriving DecidableEq

/-- The mantissas below `2 ^ precision` and the exponents from `least` to `greatest`. -/
structure Format where
  precision : Nat
  least : Int
  greatest : Int
deriving DecidableEq

def Format.single : Format := ⟨24, -149, 104⟩

def Format.double : Format := ⟨53, -1074, 971⟩

namespace Binary

def zero (negative : Bool) : Binary := finite negative 0 0

/-- The same magnitude with the sign set. -/
def withSign (negative : Bool) : Binary → Binary
  | finite _ m e => finite negative m e
  | infinite _ => infinite negative
  | nan => nan

def isFinite : Binary → Bool
  | finite _ _ _ => true
  | _ => false

/-! ### Rounding -/

/-- The integer nearest to a quotient, a half going to the even one. -/
def roundQuotient (num den : Nat) : Nat :=
  let q := num / den
  let r := num % den
  if 2 * r > den || (2 * r == den && q % 2 == 1) then q + 1 else q

/-- The fraction `num / (den * 2 ^ e)`. -/
def overPower (num den : Nat) (e : Int) : Nat × Nat :=
  (num * power 2 (-e).toNat, den * power 2 e.toNat)

/-- The least exponent of the format at which the quotient has a mantissa of the format.  The guess
from the lengths of the two numbers is right or one too small. -/
def fittingExponent (f : Format) (num den : Nat) : Int :=
  let e := max f.least ((num.log2 : Int) - den.log2 - f.precision)
  let (n, d) := overPower num den e
  if n / d ≥ power 2 f.precision then e + 1 else e

/-- A mantissa that was rounded up to the next power of two moves to the next exponent, and one that was
rounded down to nothing has the exponent of `zero`. -/
def carry (f : Format) (mantissa : Nat) (e : Int) : Nat × Int :=
  if mantissa = power 2 f.precision then (power 2 (f.precision - 1), e + 1)
  else if mantissa = 0 then (0, 0)
  else (mantissa, e)

/-- The number of the format nearest to `num / den`. -/
def round (f : Format) (negative : Bool) (num den : Nat) : Binary :=
  if num = 0 then zero negative
  else
    let e := fittingExponent f num den
    let (n, d) := overPower num den e
    let (m, e) := carry f (roundQuotient n d) e
    if e > f.greatest then infinite negative else finite negative m e

/-- The number of the format nearest to `mantissa * 2 ^ exponent`. -/
def roundPower (f : Format) (negative : Bool) (mantissa : Nat) (exponent : Int) : Binary :=
  round f negative (mantissa * power 2 exponent.toNat) (power 2 (-exponent).toNat)

/-- The number of the format nearest to `digits * 10 ^ exponent`.  Powers that no format reaches are
decided without being computed. -/
def ofDecimal (f : Format) (negative : Bool) (digits : Nat) (exponent : Int) : Binary :=
  if digits = 0 then zero negative
  else if exponent > 400 then infinite negative
  else if exponent < -400 - (digits.log2 : Int) then zero negative
  else round f negative (digits * power 10 exponent.toNat) (power 10 (-exponent).toNat)

/-! ### Arithmetic -/

/-- Product of two finite numbers, rounded to the format; any other operand gives no number. -/
def mul (f : Format) : Binary → Binary → Binary
  | finite s m e, finite t n d => roundPower f (s != t) (m * n) (e + d)
  | _, _ => nan

/-- Quotient of two finite numbers, rounded to the format; any other operand gives no number. -/
def div (f : Format) : Binary → Binary → Binary
  | finite s m e, finite t n d =>
    round f (s != t) (m * power 2 (e - d).toNat) (n * power 2 (d - e).toNat)
  | _, _ => nan

/-! ### Mantissa and exponent in a format -/

/-- Brings a positive `mantissa * 2 ^ exponent` of the format to the form in which the mantissa has
all its bits, or the exponent is the least. -/
def normalise (f : Format) (mantissa : Nat) (exponent : Int) : Nat × Int :=
  match roundPower f false mantissa exponent with
  | finite _ m e => (m, e)
  | _ => (mantissa, exponent)

end Binary

end RecordFilter.Number

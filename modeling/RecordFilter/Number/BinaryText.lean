import RecordFilter.Text.Class
import RecordFilter.Number.Shortest

/-!
# Texts of binary numbers

Reading: an optional sign, then `inf`, `infinity` or `nan` in any case, or digits with an optional
point and an optional exponent, rounded to the nearest number of the format.  Writing: the shortest
digits, placed without an exponent (`plain`), or as JSON wants them (`json`).
-/

namespace RecordFilter.Number

open RecordFilter.Text

namespace Binary

/-! ### Reading -/

/-- Why a text is no binary number. -/
inductive Fault
  | empty
  | malformed
deriving DecidableEq

def Fault.message : Fault → String
  | empty => "cannot parse float from empty string"
  | malformed => "invalid float literal"

/-- Splits an optional sign off: whether it is a minus, and the rest. -/
def splitSign : List Char → Bool × List Char
  | '-' :: cs => (true, cs)
  | '+' :: cs => (false, cs)
  | cs => (false, cs)

/-- Reads a signed run of at least one digit up to the end of the text. -/
def readExponent? (cs : List Char) : Option Int :=
  let (negative, digits) := splitSign cs
  if digits.isEmpty || !digits.all Char.isDigit then none
  else
    let n : Int := digitsValue digits
    some (if negative then -n else n)

/-- The digits before and after an optional point, and what follows them. -/
def splitPoint (cs : List Char) : List Char × List Char × List Char :=
  let whole := cs.takeWhile Char.isDigit
  match cs.dropWhile Char.isDigit with
  | '.' :: rest => (whole, rest.takeWhile Char.isDigit, rest.dropWhile Char.isDigit)
  | rest => (whole, [], rest)

/-- Reads an unsigned number in digits. -/
def readDigits? (f : Format) (negative : Bool) (cs : List Char) : Option Binary :=
  let (whole, fraction, rest) := splitPoint cs
  if whole.isEmpty && fraction.isEmpty then none
  else
    let number (shift : Int) :=
      ofDecimal f negative (digitsValue (whole ++ fraction)) (shift - fraction.length)
    match rest with
    | [] => some (number 0)
    | c :: rest => if c = 'e' ∨ c = 'E' then (readExponent? rest).map number else none

/-- Reads the named values, in any case. -/
def readNamed? (negative : Bool) (cs : List Char) : Option Binary :=
  match String.ofList (cs.map Char.toLower) with
  | "inf" => some (infinite negative)
  | "infinity" => some (infinite negative)
  | "nan" => some nan
  | _ => none

/-- Reads a number of the format. -/
def read (f : Format) (text : String) : Except Fault Binary :=
  match text.toList with
  | [] => .error .empty
  | cs =>
    let (negative, rest) := splitSign cs
    match readNamed? negative rest <|> readDigits? f negative rest with
    | some x => .ok x
    | none => .error .malformed

/-! ### Writing -/

def signText (negative : Bool) : String := if negative then "-" else ""

/-- Digits times a power of ten, written without an exponent. -/
def positional (digits : List Char) (exponent : Int) : List Char :=
  if exponent ≥ 0 then digits ++ List.replicate exponent.toNat '0'
  else
    let places := (-exponent).toNat
    if places < digits.length then
      digits.take (digits.length - places) ++ '.' :: digits.drop (digits.length - places)
    else '0' :: '.' :: List.replicate (places - digits.length) '0' ++ digits

/-- The shortest digits of a number of the format without an exponent; a tie goes up. -/
def plain (f : Format) : Binary → String
  | nan => "NaN"
  | infinite negative => signText negative ++ "inf"
  | finite negative m e =>
    if m = 0 then signText negative ++ "0"
    else
      let (digits, exponent) := shortest .upper f m e
      signText negative ++ String.ofList (positional (Nat.repr digits).toList exponent)

/-- Digits with a point after the first one, and the exponent of that digit with its sign. -/
def scientific (digits : List Char) (exponent : Int) : List Char :=
  let mantissa := match digits with
    | d :: e :: ds => d :: '.' :: e :: ds
    | ds => ds
  mantissa ++ 'e' :: (if exponent < 0 then '-' else '+') :: (Nat.repr exponent.natAbs).toList

/-- The JSON text of a finite double: positional with a point where the first digit stands for a
power of ten from -5 to 15, with an exponent elsewhere; a tie goes to the even digit.  The values
that are no numbers of JSON are `null`. -/
def json : Binary → String
  | finite negative m e =>
    if m = 0 then signText negative ++ "0.0"
    else
      let (digits, exponent) := shortest .even .double m e
      let ds := (Nat.repr digits).toList
      let first : Int := exponent + ds.length - 1
      signText negative ++ String.ofList (
        if -5 ≤ first ∧ first ≤ 15 then
          if exponent ≥ 0 then positional ds exponent ++ ['.', '0'] else positional ds exponent
        else scientific ds first)
  | _ => "null"

end Binary

end RecordFilter.Number

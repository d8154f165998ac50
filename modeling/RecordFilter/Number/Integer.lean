import RecordFilter.Text.Class

/-!
# Integers

Powers, and reading integers, bounded by a width or unbounded.  The bounded reader goes from left to
right and reports the first character at which something is wrong, so that of a bad digit and a number
too large the one further left wins.
-/

namespace RecordFilter.Number

open RecordFilter.Text

/-- Powers in the arithmetic of `Nat` itself, whatever other powers are known where this is used. -/
def power (base exponent : Nat) : Nat :=
  @HPow.hPow Nat Nat Nat (@instHPow Nat Nat instPowNat) base exponent

/-- Widths of the bounded signed integers, in bits. -/
inductive IntWidth
  | w8
  | w16
  | w32
  | w64
  | w128
deriving DecidableEq

namespace IntWidth

def bits : IntWidth → Nat
  | w8 => 8
  | w16 => 16
  | w32 => 32
  | w64 => 64
  | w128 => 128

def greatest (w : IntWidth) : Int := power 2 (w.bits - 1) - 1

def least (w : IntWidth) : Int := -power 2 (w.bits - 1)

end IntWidth

/-- Why a text is no integer. -/
inductive IntFault
  | empty
  | badDigit
  | tooLarge
  | tooSmall
deriving DecidableEq

def IntFault.message : IntFault → String
  | empty => "cannot parse integer from empty string"
  | badDigit => "invalid digit found in string"
  | tooLarge => "number too large to fit in target type"
  | tooSmall => "number too small to fit in target type"

/-! ### Bounded integers -/

/-- One digit of a bounded number: the bounds are checked as soon as it is read. -/
def digitStep (negative : Bool) (least greatest n : Int) (c : Char) : Except IntFault Int :=
  if !c.isDigit then .error .badDigit
  else if negative then
    let m := 10 * n - digitValue c
    if m < least then .error .tooSmall else .ok m
  else
    let m := 10 * n + digitValue c
    if m > greatest then .error .tooLarge else .ok m

/-- Reads an optional sign and at least one digit, within the bounds. -/
def readBounded (least greatest : Int) : List Char → Except IntFault Int
  | [] => .error .empty
  | ['+'] => .error .badDigit
  | ['-'] => .error .badDigit
  | '+' :: cs => cs.foldlM (digitStep false least greatest) 0
  | '-' :: cs => cs.foldlM (digitStep true least greatest) 0
  | cs => cs.foldlM (digitStep false least greatest) 0

/-- Reads an integer of the width. -/
def IntWidth.read (w : IntWidth) (text : String) : Except IntFault Int :=
  readBounded w.least w.greatest text.toList

/-! ### Unbounded integers -/

/-- Digits of an unbounded integer; underscores may stand after the first digit. -/
def readDigits (cs : List Char) : Except IntFault Nat :=
  match cs with
  | [] => .error .empty
  | '_' :: _ => .error .badDigit
  | _ =>
    if cs.all fun c => c.isDigit || c == '_' then .ok (digitsValue (cs.filter Char.isDigit))
    else .error .badDigit

/-- Drops one leading plus sign, unless a second one follows. -/
def dropPlus : List Char → List Char
  | '+' :: '+' :: cs => '+' :: '+' :: cs
  | '+' :: cs => cs
  | cs => cs

/-- Reads an unbounded integer: a minus sign is not followed by a plus sign. -/
def readBig (text : String) : Except IntFault Int :=
  match text.toList with
  | '-' :: '+' :: _ => .error .badDigit
  | '-' :: cs => (readDigits cs).map fun n => -(n : Int)
  | cs => (readDigits (dropPlus cs)).map Int.ofNat

end RecordFilter.Number

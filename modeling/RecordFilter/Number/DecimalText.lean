import RecordFilter.Number.Integer
import RecordFilter.Number.Decimal

/-!
# Reading decimals

A decimal is written with an optional sign, digits among which underscores may stand once a digit
has been read, at most one point, and an optional exponent.  A digit that would need a scale past 28
or a mantissa past the capacity ends what is kept of the number: it decides the rounding, alone, and
behind it there may be digits and underscores only.
-/

namespace RecordFilter.Number.Decimal

open RecordFilter.Text

/-- Why a text is no decimal. -/
inductive Fault
  | empty
  | noDigits
  | secondPoint
  | strayUnderscore
  | unknownCharacter
  | tooManyDigits
  | roundedTooLarge
  | badExponent
  | scaleTooLarge (scale : Nat)
  | tooLarge
deriving DecidableEq

def Fault.message : Fault → String
  | empty => "Invalid decimal: empty"
  | noDigits => "Invalid decimal: no digits found"
  | secondPoint => "Invalid decimal: two decimal points"
  | strayUnderscore => "Invalid decimal: must start lead with a number"
  | unknownCharacter => "Invalid decimal: unknown character"
  | tooManyDigits => "Invalid decimal: overflow from too many digits"
  | roundedTooLarge => "Invalid decimal: overflow from mantissa after rounding"
  | badExponent => "Failed to parse"
  | scaleTooLarge scale =>
    "Scale exceeds the maximum precision allowed: " ++ Nat.repr scale ++ " > " ++ Nat.repr maxScale
  | tooLarge => "Number exceeds maximum value that can be represented."

/-- The fault of a character that fits nowhere in a number. -/
def strayFault (c : Char) : Fault :=
  if c = '.' then .secondPoint else if c = '_' then .strayUnderscore else .unknownCharacter

/-! ### Digits -/

/-- What is wrong behind the digit that decides the rounding, if anything is. -/
def strayBehind? (cs : List Char) : Option Fault :=
  (cs.find? fun c => !(c.isDigit || c == '_')).map strayFault

/-- Rounds half up.  A mantissa that leaves the capacity by this gives up one more digit. -/
def roundUp (m scale : Nat) : Except Fault (Nat × Nat) :=
  if m + 1 < capacity then .ok (m + 1, scale)
  else if scale = 0 then .error .roundedTooLarge
  else .ok ((m + 5) / 10, scale - 1)

/-- Rounds on a digit that does not fit, of which the rest of the number is behind.  A number that
rounding makes too large is reported before what is wrong with the rest. -/
def roundOn (m scale digit : Nat) (behind : List Char) : Except Fault (Nat × Nat) := do
  let rounded ← if digit ≥ 5 then roundUp m scale else .ok (m, scale)
  match strayBehind? behind with
  | some fault => .error fault
  | none => .ok rounded

/-- The digits of a number that has already passed `wideStart`. -/
def readWide (point : Bool) (m scale : Nat) : List Char → Except Fault (Nat × Nat)
  | [] => .ok (m, scale)
  | c :: cs =>
    if c.isDigit then
      let n := 10 * m + digitValue c
      if point ∧ (scale ≥ maxScale ∨ n ≥ capacity) then roundOn m scale (digitValue c) cs
      else if n < capacity then readWide point n (if point then scale + 1 else scale) cs
      else .error .tooManyDigits
    else if c = '.' ∧ ¬point then readWide true m scale cs
    else if c = '_' then readWide point m scale cs
    else .error (strayFault c)

/-- Mantissas from here on are read as wide ones. -/
def wideStart : Nat := (power 2 64 - 1) / 10 - 255

/-- The digits of a number.  Only a `long` text can hold more digits than a decimal keeps; there an
underscore at the place of the digit that decides the rounding counts as a zero. -/
def readNarrow (long point seen : Bool) (m scale : Nat) : List Char → Except Fault (Nat × Nat)
  | [] => if seen then .ok (m, scale) else .error .noDigits
  | c :: cs =>
    let full := long ∧ point ∧ scale ≥ maxScale
    if c.isDigit then
      if full then roundOn m scale (digitValue c) cs
      else
        let n := 10 * m + digitValue c
        let places := if point then scale + 1 else scale
        if long ∧ n ≥ wideStart ∧ ¬(point ∧ places ≥ maxScale) then readWide point n places cs
        else readNarrow long point true n places cs
    else if c = '.' ∧ ¬point then readNarrow long true seen m scale cs
    else if c = '_' ∧ seen then
      if full then roundOn m scale 0 cs else readNarrow long point seen m scale cs
    else .error (strayFault c)

/-- Texts of fewer bytes never pass the capacity. -/
def longText : Nat := 18

/-- Reads a decimal without an exponent. -/
def readPlain (text : String) : Except Fault Decimal :=
  let long := longText ≤ text.utf8ByteSize
  let build (negative : Bool) (r : Except Fault (Nat × Nat)) :=
    r.map fun (m, scale) => make negative m scale
  match text.toList with
  | [] => .error .empty
  | '-' :: cs => build true (readNarrow long false false 0 0 cs)
  | '+' :: cs => build false (readNarrow long false false 0 0 cs)
  | cs => build false (readNarrow long false false 0 0 cs)

/-! ### Exponents -/

def isExponentMark (c : Char) : Bool := c == 'e' || c == 'E'

/-- Reads an exponent without a minus sign, below `2 ^ 32`. -/
def readExponent (cs : List Char) : Except Fault Nat :=
  match cs with
  | '-' :: _ => .error .badExponent
  | cs =>
    match readBounded 0 (power 2 32 - 1) cs with
    | .ok n => .ok n.toNat
    | .error _ => .error .badExponent

/-- Drops `places` digits and rounds half up on the last one dropped. -/
def dropDigits (m : Nat) : Nat → Nat
  | 0 => m
  | places + 1 => (m / power 10 places + 5) / 10

/-- Moves the point `exponent` places to the left. -/
def shiftDown (d : Decimal) (exponent : Nat) : Except Fault Decimal :=
  if exponent > maxScale then .error (.scaleTooLarge exponent)
  else if d.scale + exponent > maxScale then
    .ok { d with mantissa := dropDigits d.mantissa (d.scale + exponent - maxScale), scale := maxScale }
  else .ok { d with scale := d.scale + exponent }

/-- Moves the point `exponent` places to the right. -/
def shiftUp (d : Decimal) (exponent : Nat) : Except Fault Decimal :=
  if exponent ≤ d.scale then .ok { d with scale := d.scale - exponent }
  else if exponent > maxScale then .error (.scaleTooLarge exponent)
  else
    let m := d.mantissa * power 10 (exponent - d.scale)
    if m < capacity then .ok (make d.negative m 0) else .error .tooLarge

/-- Reads a decimal with an exponent. -/
def readScientific (text : String) : Except Fault Decimal := do
  let base := text.toList.takeWhile fun c => !isExponentMark c
  let exponent := (text.toList.dropWhile fun c => !isExponentMark c).drop 1
  let d ← readPlain (String.ofList base)
  match exponent with
  | '-' :: cs => shiftDown d (← readExponent cs)
  | cs => shiftUp d (← readExponent cs)

/-- Reads a decimal: without an exponent, and if that fails and there is an exponent mark, with
one. -/
def read (text : String) : Except Fault Decimal :=
  match readPlain text with
  | .ok d => .ok d
  | .error fault => if text.toList.any isExponentMark then readScientific text else .error fault

end RecordFilter.Number.Decimal

import RecordFilter.Calendar.Zone
import RecordFilter.Number.Integer

/-!
# Reading dates and times

The fixed patterns are `year-month-day`, `hour:minute:second` with an optional fraction,
`hour:minute`, and date and time with a space between them.  Blanks may stand before every number.
A number out of its range is reported where it stands; text that is left over is reported before a
day that its month does not have.  `readInstant?` reads a record's text: the stricter form with an
offset, or else the pattern of date and time in the system zone.

The patterns are read by a library that is not among the sources; how it reads them and what it reports is
fixed here after its documentation and the answers that it was seen to give.
-/

namespace RecordFilter.Calendar

open RecordFilter.Text

/-- Why a text is no date or time. -/
inductive Fault
  | tooShort
  | badCharacter
  | trailing
  | outOfRange
deriving DecidableEq

def Fault.message : Fault → String
  | tooShort => "premature end of input"
  | badCharacter => "input contains invalid characters"
  | trailing => "trailing input"
  | outOfRange => "input is out of range"

/-- A reader takes a value off the front of a text. -/
abbrev Reader (α : Type) := List Char → Except Fault (α × List Char)

namespace Reader

/-- Reads one character. -/
def character (c : Char) : Reader Unit
  | [] => .error .tooShort
  | d :: cs => if d = c then .ok ((), cs) else .error .badCharacter

/-- Reads a run of at least one digit, of which it takes at most `width`. -/
def digits (width : Nat) : Reader Nat
  | [] => .error .tooShort
  | c :: cs =>
    if c.isDigit then
      let run := ((c :: cs).take width).takeWhile Char.isDigit
      .ok (digitsValue run, (c :: cs).drop run.length)
    else .error .badCharacter

/-- Reads a number of at most two digits after blanks, within bounds. -/
def bounded (least greatest : Nat) : Reader Nat := fun cs => do
  let (n, rest) ← digits 2 (skipBlanks cs)
  if least ≤ n ∧ n ≤ greatest then .ok (n, rest) else .error .outOfRange

/-- Reads a year after blanks: at most four digits, or a sign and any number of digits. -/
def year : Reader Int := fun cs => do
  let (n, rest) ← match skipBlanks cs with
    | '-' :: rest => do
      let (n, rest) ← digits rest.length rest
      .ok (-(n : Int), rest)
    | '+' :: rest => do
      let (n, rest) ← digits rest.length rest
      .ok ((n : Int), rest)
    | rest => do
      let (n, rest) ← digits 4 rest
      .ok ((n : Int), rest)
  if -Number.power 2 31 ≤ n ∧ n < Number.power 2 31 then .ok (n, rest) else .error .outOfRange

/-- Reads `year-month-day`; whether the month has the day is not yet decided. -/
def date : Reader Date := fun cs => do
  let (y, cs) ← year cs
  let ((), cs) ← character '-' cs
  let (m, cs) ← bounded 1 12 cs
  let ((), cs) ← character '-' cs
  let (d, cs) ← bounded 1 31 cs
  .ok (⟨y, m, d⟩, cs)

/-- Reads `hour:minute`. -/
def hourMinute : Reader (Nat × Nat) := fun cs => do
  let (h, cs) ← bounded 0 23 cs
  let ((), cs) ← character ':' cs
  let (m, cs) ← bounded 0 59 cs
  .ok ((h, m), cs)

/-- Reads the digits of a fraction of a second; those after the ninth are passed over. -/
def fraction : Reader Nat := fun cs => do
  let (_, _) ← digits 9 cs
  let run := (cs.take 9).takeWhile Char.isDigit
  .ok (digitsValue run * Number.power 10 (9 - run.length), cs.dropWhile Char.isDigit)

/-- Reads a fraction if there is a point. -/
def optionalFraction : Reader Nat
  | '.' :: cs => fraction cs
  | cs => .ok (0, cs)

/-- Reads `hour:minute:second`; the second may be 60. -/
def clock : Reader (Nat → Time) := fun cs => do
  let ((h, m), cs) ← hourMinute cs
  let ((), cs) ← character ':' cs
  let (s, cs) ← bounded 0 60 cs
  .ok (fun nano => Time.ofWritten h m s nano, cs)

end Reader

/-- Accepts a value if nothing is left of the text. -/
def complete {α : Type} : α × List Char → Except Fault α
  | (a, []) => .ok a
  | _ => .error .trailing

def validDate (d : Date) : Except Fault Date := if d.isValid then .ok d else .error .outOfRange

def readDate (text : String) : Except Fault Date := do
  let d ← complete (← Reader.date text.toList)
  validDate d

def readTimeWithSecond (text : String) : Except Fault Time := do
  let (time, cs) ← Reader.clock text.toList
  let (nano, cs) ← Reader.optionalFraction cs
  complete (time nano, cs)

def readTimeWithoutSecond (text : String) : Except Fault Time := do
  let ((h, m), cs) ← Reader.hourMinute text.toList
  complete (⟨h, m, 0, 0⟩, cs)

/-- Reads a time with a second or else one without, whose fault is the one reported. -/
def readTime (text : String) : Except Fault Time :=
  match readTimeWithSecond text with
  | .ok t => .ok t
  | .error _ => readTimeWithoutSecond text

def readWallTime (text : String) : Except Fault WallTime := do
  let (d, cs) ← Reader.date text.toList
  let (time, cs) ← Reader.clock (skipBlanks cs)
  let w ← complete ((⟨d, time 0⟩ : WallTime), cs)
  let _ ← validDate w.date
  .ok w

/-! ### Instants -/

/-- Takes exactly `width` digits. -/
def exactDigits? (width : Nat) (cs : List Char) : Option (Nat × List Char) :=
  let run := cs.take width
  if run.length = width ∧ run.all Char.isDigit then some (digitsValue run, cs.drop width) else none

/-- Takes exactly `width` digits within bounds. -/
def exactBounded? (width least greatest : Nat) (cs : List Char) : Option (Nat × List Char) :=
  (exactDigits? width cs).filter fun r => least ≤ r.1 ∧ r.1 ≤ greatest

def exactCharacter? (accepts : Char → Bool) : List Char → Option (List Char)
  | [] => none
  | c :: cs => if accepts c then some cs else none

/-- The sign of an offset; a minus sign may be the typographic one. -/
def offsetSign? : List Char → Option (Int × List Char)
  | '+' :: cs => some (1, cs)
  | '-' :: cs => some (-1, cs)
  | '\u2212' :: cs => some (-1, cs)
  | _ => none

/-- An offset up to the end of the text: `Z`, or a sign, hours and minutes. -/
def offset? : List Char → Option Int
  | ['Z'] => some 0
  | ['z'] => some 0
  | cs => do
    let (sign, cs) ← offsetSign? cs
    let (h, cs) ← exactBounded? 2 0 23 cs
    let cs ← exactCharacter? (· == ':') cs
    let (m, cs) ← exactBounded? 2 0 59 cs
    if cs.isEmpty then some (sign * (3600 * h + 60 * m)) else none

/-- Reads date, `T` or a space, time with an optional fraction, and offset, all at full width. -/
def readOffsetTime? (text : String) : Option Instant := do
  let (y, cs) ← exactDigits? 4 text.toList
  let cs ← exactCharacter? (· == '-') cs
  let (m, cs) ← exactBounded? 2 1 12 cs
  let cs ← exactCharacter? (· == '-') cs
  let (d, cs) ← exactBounded? 2 1 31 cs
  let cs ← exactCharacter? (fun c => c == 'T' || c == 't' || c == ' ') cs
  let (h, cs) ← exactBounded? 2 0 23 cs
  let cs ← exactCharacter? (· == ':') cs
  let (min, cs) ← exactBounded? 2 0 59 cs
  let cs ← exactCharacter? (· == ':') cs
  let (s, cs) ← exactBounded? 2 0 60 cs
  let (nano, cs) ← (Reader.optionalFraction cs).toOption
  let offset ← offset? cs
  let date : Date := ⟨y, m, d⟩
  if date.isValid then
    let w : WallTime := ⟨date, Time.ofWritten h min s nano⟩
    some ⟨w.toSeconds - offset, w.time.nano⟩
  else none

/-- Reads a wall-clock time in the system zone. -/
def readLocal? (text : String) : Option Instant := do
  let w ← (readWallTime text).toOption
  let z ← w.inZone? .system
  some z.instant

/-- Reads the instant that a record's text stands for. -/
def readInstant? (text : String) : Option Instant := readOffsetTime? text <|> readLocal? text

end RecordFilter.Calendar

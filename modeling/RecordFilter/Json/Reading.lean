import RecordFilter.Json.Basic
import RecordFilter.Text.Class

/-!
# Reading JSON

`Json.read` reads one value up to the end of the text, or says what is wrong and in which line and
column.  Columns count bytes.  A reader that stops says how many bytes are left after the place of
the fault, which lies behind the last character read (`Stop.here`) or behind the one that is looked
at (`Stop.next`).  Integers of more than 64 bits and numbers with a point or an exponent are
doubles: the digits that fit 64 bits, rounded, times or over a rounded power of ten.
-/

namespace RecordFilter.Json

open RecordFilter.Text RecordFilter.Number

/-! ### Faults -/

/-- Why a text is no JSON. -/
inductive Fault
  | endInList
  | endInObject
  | endInString
  | endInValue
  | expectedColon
  | expectedCommaOrBracket
  | expectedCommaOrBrace
  | expectedWord
  | expectedValue
  | badEscape
  | badNumber
  | numberOutOfRange
  | controlCharacter
  | keyNotString
  | loneSurrogate
  | trailingComma
  | trailingCharacters
  | endOfHexEscape
  | tooDeep
deriving DecidableEq

def Fault.message : Fault → String
  | endInList => "EOF while parsing a list"
  | endInObject => "EOF while parsing an object"
  | endInString => "EOF while parsing a string"
  | endInValue => "EOF while parsing a value"
  | expectedColon => "expected `:`"
  | expectedCommaOrBracket => "expected `,` or `]`"
  | expectedCommaOrBrace => "expected `,` or `\x7d`"
  | expectedWord => "expected ident"
  | expectedValue => "expected value"
  | badEscape => "invalid escape"
  | badNumber => "invalid number"
  | numberOutOfRange => "number out of range"
  | controlCharacter => "control character (\\u0000-\\u001F) found while parsing a string"
  | keyNotString => "key must be a string"
  | loneSurrogate => "lone leading surrogate in hex escape"
  | trailingComma => "trailing comma"
  | trailingCharacters => "trailing characters"
  | endOfHexEscape => "unexpected end of hex escape"
  | tooDeep => "recursion limit exceeded"

/-- A fault and the number of bytes after its place. -/
structure Stop where
  fault : Fault
  left : Nat

def byteCount (cs : List Char) : Nat := cs.foldl (fun n c => n + c.utf8Size) 0

/-- The place before the unread text. -/
def Stop.here (fault : Fault) (unread : List Char) : Stop := ⟨fault, byteCount unread⟩

/-- The place after the first byte of the unread text. -/
def Stop.next (fault : Fault) (unread : List Char) : Stop := ⟨fault, byteCount unread - 1⟩

/-- A reader takes a value off the front of a text. -/
abbrev Reader (α : Type) := List Char → Except Stop (α × List Char)

def isSpace (c : Char) : Bool := c == ' ' || c == '\n' || c == '\t' || c == '\r'

def skipSpaces (cs : List Char) : List Char := cs.dropWhile isSpace

/-! ### Numbers -/

/-- Digits gathered into a word of 64 bits: how many fitted, and how many more there were. -/
structure Gathered where
  word : Nat
  taken : Nat
  skipped : Nat
  rest : List Char

def gather (word taken : Nat) : List Char → Gathered
  | [] => ⟨word, taken, 0, []⟩
  | c :: cs =>
    if c.isDigit then
      let n := 10 * word + digitValue c
      if n < power 2 64 then gather n (taken + 1) cs
      else
        let more := (c :: cs).takeWhile Char.isDigit
        ⟨word, taken, more.length, (c :: cs).dropWhile Char.isDigit⟩
    else ⟨word, taken, 0, c :: cs⟩

def powerOfTen (exponent : Nat) : Binary := Binary.ofDecimal .double false 1 exponent

/-- A double times a power of ten, in steps that doubles can name; none if it is infinite. -/
def scale? : Nat → Binary → Int → Option Binary
  | 0, x, _ => some x
  | steps + 1, x, exponent =>
    if exponent.natAbs ≤ 308 then
      if exponent ≥ 0 then
        let y := Binary.mul .double x (powerOfTen exponent.natAbs)
        if y.isFinite then some y else none
      else some (Binary.div .double x (powerOfTen exponent.natAbs))
    else if x = Binary.zero false then some x
    else if exponent ≥ 0 then none
    else scale? steps (Binary.div .double x (powerOfTen 308)) (exponent + 308)

/-- The double for gathered digits and a power of ten; nothing is left of a word after two steps. -/
def toDouble (negative : Bool) (word : Nat) (exponent : Int) : Reader Json := fun cs =>
  match scale? 4 (Binary.roundPower .double false word 0) exponent with
  | some x => .ok (double (x.withSign negative), cs)
  | none => .error (.here .numberOutOfRange cs)

/-- The digits of an exponent, or what follows the digit that makes it too large. -/
def exponentDigits (n : Nat) : List Char → Except (List Char) (Nat × List Char)
  | [] => .ok (n, [])
  | c :: cs =>
    if c.isDigit then
      let m := 10 * n + digitValue c
      if m < power 2 31 then exponentDigits m cs else .error cs
    else .ok (n, c :: cs)

/-- What follows the mark of an exponent. -/
def readExponent (negative : Bool) (word : Nat) (shift : Int) : Reader Json := fun cs =>
  let (down, digits) := match cs with
    | '+' :: rest => (false, rest)
    | '-' :: rest => (true, rest)
    | rest => (false, rest)
  match digits with
  | [] => .error (.here .endInValue [])
  | c :: rest =>
    if !c.isDigit then .error (.next .badNumber digits)
    else match exponentDigits (digitValue c) rest with
      | .ok (n, rest) => toDouble negative word (if down then shift - n else shift + n) rest
      | .error rest =>
        if word ≠ 0 ∧ !down then .error (.here .numberOutOfRange rest)
        else .ok (double (Binary.zero negative), rest.dropWhile Char.isDigit)

def isExponentMark (c : Char) : Bool := c == 'e' || c == 'E'

/-- What follows the digits before and after the point. -/
def readScale (negative : Bool) (word : Nat) (shift : Int) : Reader Json
  | [] => toDouble negative word shift []
  | c :: cs =>
    if isExponentMark c then readExponent negative word shift cs
    else toDouble negative word shift (c :: cs)

/-- What follows the point. -/
def readFraction (negative : Bool) (word : Nat) (shift : Int) : Reader Json := fun cs =>
  let g := gather word 0 cs
  if g.taken = 0 ∧ g.skipped = 0 then
    .error (.next (if cs.isEmpty then .endInValue else .badNumber) cs)
  else readScale negative g.word (shift - g.taken) g.rest

/-- An integer if it fits a word of 64 bits with its sign; a negative zero is a double. -/
def wholeNumber (negative : Bool) (word : Nat) : Json :=
  if !negative then integer word
  else if word = 0 ∨ word > power 2 63 then
    double ((Binary.roundPower .double false word 0).withSign true)
  else integer (-word)

/-- What follows the digits before the point. -/
def readAfterWhole (negative : Bool) (g : Gathered) : Except Stop (Json × List Char) :=
  match g.rest with
  | '.' :: rest => readFraction negative g.word g.skipped rest
  | rest =>
    if g.skipped ≠ 0 ∨ (rest.head?.any isExponentMark) then readScale negative g.word g.skipped rest
    else .ok (wholeNumber negative g.word, rest)

/-- A number after its sign; a zero stands alone before the point. -/
def readNumber (negative : Bool) : Reader Json
  | [] => .error (.here .endInValue [])
  | '0' :: cs =>
    if cs.head?.any Char.isDigit then .error (.next .badNumber cs)
    else readAfterWhole negative ⟨0, 1, 0, cs⟩
  | c :: cs =>
    if c.isDigit then readAfterWhole negative (gather 0 0 (c :: cs))
    else .error (.next .badNumber (c :: cs))

/-! ### Strings -/

def hexValue? (c : Char) : Option Nat :=
  if c.isDigit then some (digitValue c)
  else if 'a' ≤ c ∧ c ≤ 'f' then some (c.toNat - 87)
  else if 'A' ≤ c ∧ c ≤ 'F' then some (c.toNat - 55)
  else none

/-- Four hexadecimal digits. -/
def readHex : Reader Nat := fun cs =>
  let stop : Stop :=
    if byteCount cs < 4 then .here .endInString [] else ⟨.badEscape, byteCount cs - 4⟩
  match cs with
  | a :: b :: c :: d :: rest =>
    match hexValue? a, hexValue? b, hexValue? c, hexValue? d with
    | some a, some b, some c, some d => .ok (4096 * a + 256 * b + 16 * c + d, rest)
    | _, _, _, _ => .error stop
  | _ => .error stop

/-- The second half of a pair of surrogates, of which the first has been read. -/
def readTrailingSurrogate (leading : Nat) : Reader Char
  | '\\' :: 'u' :: cs => do
    let (n, rest) ← readHex cs
    if 0xDC00 ≤ n ∧ n ≤ 0xDFFF then
      .ok (Char.ofNat (0x10000 + 1024 * (leading - 0xD800) + (n - 0xDC00)), rest)
    else .error (.here .loneSurrogate rest)
  | '\\' :: cs => .error (if cs.isEmpty then .here .endInString [] else .next .endOfHexEscape cs)
  | cs => .error (if cs.isEmpty then .here .endInString [] else .next .endOfHexEscape cs)

/-- What follows `\u`. -/
def readUnicodeEscape : Reader Char := fun cs => do
  let (n, rest) ← readHex cs
  if 0xDC00 ≤ n ∧ n ≤ 0xDFFF then .error (.here .loneSurrogate rest)
  else if 0xD800 ≤ n ∧ n ≤ 0xDBFF then readTrailingSurrogate n rest
  else .ok (Char.ofNat n, rest)

/-- What follows a backslash. -/
def readEscape : Reader Char
  | [] => .error (.here .endInString [])
  | '"' :: cs => .ok ('"', cs)
  | '\\' :: cs => .ok ('\\', cs)
  | '/' :: cs => .ok ('/', cs)
  | 'b' :: cs => .ok (Char.ofNat 8, cs)
  | 'f' :: cs => .ok (Char.ofNat 12, cs)
  | 'n' :: cs => .ok ('\n', cs)
  | 'r' :: cs => .ok ('\r', cs)
  | 't' :: cs => .ok ('\t', cs)
  | 'u' :: cs => readUnicodeEscape cs
  | cs => .error (.next .badEscape cs)

/-- The characters up to the closing quote.  Every step reads a character, so as many steps as there
are characters are enough. -/
def readQuoted : Nat → List Char → Reader String
  | 0, _, cs => .error (.here .endInString cs)
  | _ + 1, _, [] => .error (.here .endInString [])
  | steps + 1, read, c :: cs =>
    if c = '"' then .ok (String.ofList read.reverse, cs)
    else if c = '\\' then do
      let (d, rest) ← readEscape cs
      readQuoted steps (d :: read) rest
    else if c.toNat < 32 then .error (.here .controlCharacter cs)
    else readQuoted steps (c :: read) cs

/-- What follows an opening quote. -/
def readString : Reader String := fun cs => readQuoted (cs.length + 1) [] cs

/-! ### Values -/

/-- The rest of a word of which the first letter has been read. -/
def readWord (value : Json) : List Char → Reader Json
  | [], cs => .ok (value, cs)
  | _ :: _, [] => .error (.here .endInValue [])
  | w :: ws, c :: cs =>
    if w = c then readWord value ws cs else .error (.next .expectedWord (c :: cs))

/-- The items after one that has been read; every step reads one. -/
def readItems (item : Reader Json) : Nat → List Json → Reader Json
  | 0, _, cs => .error (.here .endInList cs)
  | steps + 1, read, cs =>
    match skipSpaces cs with
    | [] => .error (.next .endInList [])
    | ']' :: rest => .ok (array read.reverse, rest)
    | ',' :: rest =>
      match skipSpaces rest with
      | [] => .error (.next .endInValue [])
      | ']' :: rest => .error (.next .trailingComma (']' :: rest))
      | rest => do
        let (j, rest) ← item rest
        readItems item steps (j :: read) rest
    | rest => .error (.next .expectedCommaOrBracket rest)

/-- What follows an opening bracket. -/
def readArray (item : Reader Json) : Reader Json := fun cs =>
  match skipSpaces cs with
  | [] => .error (.next .endInList [])
  | ']' :: rest => .ok (array [], rest)
  | rest => do
    let (j, rest) ← item rest
    readItems item (rest.length + 1) [j] rest

/-- A member from its opening quote on. -/
def readMember (item : Reader Json) : Reader (String × Json) := fun cs => do
  let (key, rest) ← readString (cs.drop 1)
  match skipSpaces rest with
  | [] => .error (.next .endInObject [])
  | ':' :: rest => do
    let (value, rest) ← item rest
    .ok ((key, value), rest)
  | rest => .error (.next .expectedColon rest)

/-- The members after one that has been read; every step reads one. -/
def readMembers (item : Reader Json) : Nat → List (String × Json) → Reader Json
  | 0, _, cs => .error (.here .endInObject cs)
  | steps + 1, read, cs =>
    match skipSpaces cs with
    | [] => .error (.next .endInObject [])
    | '\x7d' :: rest => .ok (ofMembers read.reverse, rest)
    | ',' :: rest =>
      match skipSpaces rest with
      | [] => .error (.next .endInValue [])
      | '"' :: rest => do
        let (m, rest) ← readMember item ('"' :: rest)
        readMembers item steps (m :: read) rest
      | '\x7d' :: rest => .error (.next .trailingComma ('\x7d' :: rest))
      | rest => .error (.next .keyNotString rest)
    | rest => .error (.next .expectedCommaOrBrace rest)

/-- What follows an opening brace. -/
def readObject (item : Reader Json) : Reader Json := fun cs =>
  match skipSpaces cs with
  | [] => .error (.next .endInObject [])
  | '\x7d' :: rest => .ok (object [], rest)
  | '"' :: rest => do
    let (m, rest) ← readMember item ('"' :: rest)
    readMembers item (rest.length + 1) [m] rest
  | rest => .error (.next .keyNotString rest)

/-- Reads a value inside of which at most `depth - 1` brackets may be open at a time. -/
def readValue : Nat → Reader Json
  | 0 => fun cs => .error (.next .tooDeep cs)
  | depth + 1 => fun cs =>
    match skipSpaces cs with
    | [] => .error (.next .endInValue [])
    | 'n' :: rest => readWord null ['u', 'l', 'l'] rest
    | 't' :: rest => readWord (bool true) ['r', 'u', 'e'] rest
    | 'f' :: rest => readWord (bool false) ['a', 'l', 's', 'e'] rest
    | '"' :: rest => (readString rest).map fun r => (string r.1, r.2)
    | '-' :: rest => readNumber true rest
    | '[' :: rest =>
      if depth = 0 then .error (.next .tooDeep ('[' :: rest)) else readArray (readValue depth) rest
    | '\x7b' :: rest =>
      if depth = 0 then .error (.next .tooDeep ('\x7b' :: rest))
      else readObject (readValue depth) rest
    | c :: rest =>
      if c.isDigit then readNumber false (c :: rest) else .error (.next .expectedValue (c :: rest))

/-- Brackets nest at most one less deep than this. -/
def depthLimit : Nat := 128

/-! ### Texts -/

/-- A fault with its line and its column, both counted from one and zero. -/
structure Failure where
  fault : Fault
  line : Nat
  column : Nat
deriving DecidableEq

def Failure.message (f : Failure) : String :=
  f.fault.message ++ " at line " ++ Nat.repr f.line ++ " column " ++ Nat.repr f.column

/-- Line and column after `index` bytes. -/
def placeAfter (index : Nat) (text : String) : Nat × Nat :=
  let bytes := (text.toUTF8.data.toList).take index
  let column := (bytes.reverse.takeWhile (· != 10)).length
  (1 + bytes.count 10, column)

/-- Reads one value with spaces around it. -/
def read (text : String) : Except Failure Json :=
  let cs := text.toList
  let result := do
    let (j, rest) ← readValue depthLimit cs
    match skipSpaces rest with
    | [] => .ok j
    | rest => .error (Stop.next .trailingCharacters rest)
  match result with
  | .ok j => .ok j
  | .error stop =>
    let (line, column) := placeAfter (byteCount cs - stop.left) text
    .error ⟨stop.fault, line, column⟩

end RecordFilter.Json

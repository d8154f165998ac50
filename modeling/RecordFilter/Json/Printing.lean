import RecordFilter.Json.Basic
import RecordFilter.Number.BinaryText

/-!
# JSON texts

`compact` writes a value without any space, `pretty` with a line for every item and two spaces for
every level.  In strings only the quote, the backslash and the controls below the space are escaped.
-/

namespace RecordFilter.Json

open RecordFilter.Text RecordFilter.Number

/-- Two hexadecimal digits in lower case. -/
def hexByte (n : Nat) : List Char := [Nat.digitChar (n / 16), Nat.digitChar (n % 16)]

def escapeChar (c : Char) : List Char :=
  if c = '"' then ['\\', '"']
  else if c = '\\' then ['\\', '\\']
  else if c.toNat = 8 then ['\\', 'b']
  else if c.toNat = 9 then ['\\', 't']
  else if c.toNat = 10 then ['\\', 'n']
  else if c.toNat = 12 then ['\\', 'f']
  else if c.toNat = 13 then ['\\', 'r']
  else if c.toNat < 32 then ['\\', 'u', '0', '0'] ++ hexByte c.toNat
  else [c]

/-- The string in quotes. -/
def quote (s : String) : String :=
  String.ofList ('"' :: s.toList.flatMap escapeChar ++ ['"'])

/-- The text of a number, as a string comparison sees it. -/
def numberText? : Json → Option String
  | integer n => some (toString n)
  | double x => some x.json
  | _ => none

/-- The text of a value that is no array and no object. -/
def scalarText : Json → String
  | null => "null"
  | bool b => if b then "true" else "false"
  | integer n => toString n
  | double x => x.json
  | string s => quote s
  | array _ => ""
  | object _ => ""

/-! ### Without spaces -/

mutual

def compact : Json → String
  | array items => "[" ++ String.intercalate "," (compactItems items) ++ "]"
  | object members => "\x7b" ++ String.intercalate "," (compactMembers members) ++ "\x7d"
  | scalar => scalarText scalar

def compactItems : List Json → List String
  | [] => []
  | item :: rest => compact item :: compactItems rest

def compactMembers : List (String × Json) → List String
  | [] => []
  | (key, value) :: rest => (quote key ++ ":" ++ compact value) :: compactMembers rest

end

/-! ### With lines and levels -/

/-- A new line at a level. -/
def newLine (level : Nat) : String := String.ofList ('\n' :: List.replicate (2 * level) ' ')

mutual

def prettyAt (level : Nat) : Json → String
  | array [] => "[]"
  | array items =>
    "[" ++ String.intercalate "," (prettyItems (level + 1) items) ++ newLine level ++ "]"
  | object [] => "\x7b\x7d"
  | object members =>
    "\x7b" ++ String.intercalate "," (prettyMembers (level + 1) members) ++ newLine level ++ "\x7d"
  | scalar => scalarText scalar

def prettyItems (level : Nat) : List Json → List String
  | [] => []
  | item :: rest => (newLine level ++ prettyAt level item) :: prettyItems level rest

def prettyMembers (level : Nat) : List (String × Json) → List String
  | [] => []
  | (key, value) :: rest =>
    (newLine level ++ quote key ++ ": " ++ prettyAt level value) :: prettyMembers level rest

end

def pretty (j : Json) : String := prettyAt 0 j

/-- The text in one of the two layouts. -/
def render (lines : Bool) (j : Json) : String := if lines then j.pretty else j.compact

end RecordFilter.Json

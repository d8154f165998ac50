import RecordFilter.Filter.Operator

/-!
# Tokens

The words of a filter.  A string is held without its quotes and escapes, a number as it is written;
`Token.spelling` writes a token in its canonical form, `Token.describe` names it in a message.
-/

namespace RecordFilter

/-- Line and column of a character, both counted from one. -/
structure Position where
  line : Nat
  column : Nat
deriving DecidableEq

namespace Position

def start : Position := ⟨1, 1⟩

/-- The position behind a character. -/
def step (p : Position) (c : Char) : Position :=
  if c = '\n' then ⟨p.line + 1, 1⟩ else ⟨p.line, p.column + 1⟩

/-- The position behind a text. -/
def after (p : Position) (text : List Char) : Position := text.foldl step p

@[simp] theorem after_nil (p : Position) : p.after [] = p := rfl

@[simp] theorem after_cons (p : Position) (c : Char) (cs : List Char) :
    p.after (c :: cs) = (p.step c).after cs := rfl

@[simp] theorem after_append (p : Position) (a b : List Char) :
    p.after (a ++ b) = (p.after a).after b := List.foldl_append

/-- `line:column`. -/
def render (p : Position) : String := Nat.repr p.line ++ ":" ++ Nat.repr p.column

end Position

inductive Token
  | path (text : String)
  | string (text : String)
  | number (text : String)
  | openParen
  | closeParen
  | comma
  | operator (o : Operator)
  | connective (c : Connective)
  | endOfText
deriving DecidableEq

/-- A quote or a backslash is written with a backslash before it. -/
def escapeQuoted (cs : List Char) : List Char :=
  cs.flatMap fun c => if c = '\\' ∨ c = '\'' then ['\\', c] else [c]

/-- The string between quotes. -/
def quoted (s : String) : String := String.ofList ('\'' :: escapeQuoted s.toList ++ ['\''])

namespace Token

def spelling : Token → String
  | path text => text
  | string text => quoted text
  | number text => text
  | openParen => "("
  | closeParen => ")"
  | comma => ","
  | operator o => o.symbol
  | connective c => c.word
  | endOfText => ""

/-- The token as a message names it; a string is shown as it reads, without escapes. -/
def describe : Token → String
  | path text => "attribute '" ++ text ++ "'"
  | string text => "string '" ++ text ++ "'"
  | number text => "number " ++ text
  | endOfText => "end of input"
  | t => "'" ++ t.spelling ++ "'"

def operator? : Token → Option Operator
  | operator o => some o
  | _ => none

def connective? : Token → Option Connective
  | connective c => some c
  | _ => none

end Token

/-- A token with the text it was read from and the position of its first character. -/
structure Lexeme where
  token : Token
  text : String
  position : Position
deriving DecidableEq

end RecordFilter

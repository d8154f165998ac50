/-!
# Regular expressions

Patterns are matched by a library of regular expressions.  `RegexLibrary` is what is used of such a
library; what its documentation says of it is a hypothesis wherever a result needs it.

The library itself is not among the sources.  `RegexProgram.library` stands in for it where the program
runs, and is fixed here after the documentation: it reads the part of the syntax in which patterns are
written, that is `(?s)` in front, the two anchors, a point with or without an asterisk, and characters that
stand for themselves.  An expression is held against a text from left to right, and what is kept in between
is one bit for each place of the text: whether the items that have been read can end there.  So the work is
that of the length of the expression times that of the text.  The sizes of the items and the limit are those
that the library was seen to have.
-/

namespace RecordFilter

/-- What is used of a library of regular expressions. -/
class RegexLibrary where
  Regex : Type
  /-- An expression for the text itself. -/
  escape : String → String
  /-- The expression that a text writes, if it is usable. -/
  compile? : String → Option Regex
  /-- Whether the expression matches somewhere in the text. -/
  isMatch : Regex → String → Bool

inductive RegexItem
  | start
  | finish
  | run
  | one
  | literal (c : Char)
deriving DecidableEq

namespace RegexItem

/-- Whether the item stands for the character, taken as a single one. -/
def accepts : RegexItem → Char → Bool
  | one, _ => true
  | literal c, d => c == d
  | _, _ => false

/-- What an item adds to the size of an expression; a literal counts by the bytes of its UTF-8 form. -/
def weight : RegexItem → Nat
  | start => 32
  | finish => 32
  | run => 1004
  | one => 964
  | literal c => 32 * c.utf8Size

end RegexItem

/-- An expression as the row of its items. -/
abbrev RegexProgram := List RegexItem

namespace RegexProgram

open RegexItem

/-! ### Syntax -/

/-- The characters that mean something else than themselves, and those that may come to. -/
def isMeta (c : Char) : Bool :=
  ['\\', '.', '+', '*', '?', '(', ')', '|', '[', ']', '\x7b', '\x7d', '^', '$', '#', '&', '-', '~'].contains c

def escapeChar (c : Char) : List Char := if isMeta c then ['\\', c] else [c]

def escape (text : String) : String := String.ofList (text.toList.flatMap escapeChar)

/-- The items that are written behind those that have been read; an asterisk makes a run of the point
before it. -/
def readItems : List RegexItem → List Char → Option RegexProgram
  | read, [] => some read.reverse
  | read, '\\' :: c :: cs => if isMeta c then readItems (literal c :: read) cs else none
  | read, '^' :: cs => readItems (start :: read) cs
  | read, '$' :: cs => readItems (finish :: read) cs
  | read, '.' :: cs => readItems (one :: read) cs
  | one :: read, '*' :: cs => readItems (run :: read) cs
  | read, c :: cs => if isMeta c then none else readItems (literal c :: read) cs

/-- The items of an expression in which a point stands for a line break too. -/
def read? (text : String) : Option RegexProgram :=
  match text.toList with
  | '(' :: '?' :: 's' :: ')' :: cs => readItems [] cs
  | _ => none

/-! ### Size -/

/-- The size of the empty expression: the start and the end of a match. -/
def emptySize : Nat := 2 * 32

def size (p : RegexProgram) : Nat := p.foldl (fun size item => size + item.weight) emptySize

/-- Usable expressions are at most of this size, which is ten mebibytes. -/
def sizeLimit : Nat := 10 * 1024 * 1024

def compile? (text : String) : Option RegexProgram :=
  (read? text).filter fun p => p.size ≤ sizeLimit

/-! ### Matching -/

/-- Keeps the first place only. -/
def onlyFirst : List Bool → List Bool
  | [] => []
  | b :: bs => b :: bs.map fun _ => false

/-- Keeps the last place only. -/
def onlyLast : List Bool → List Bool
  | [] => []
  | b :: bs => if bs.isEmpty then [b] else false :: onlyLast bs

/-- The places that a run reaches: every place behind one that was reached. -/
def spread (reached : Bool) : List Bool → List Bool
  | [] => []
  | b :: bs => (reached || b) :: spread (reached || b) bs

/-- The places that an item reaches from the places reached before it. -/
def step (text : List Char) (row : List Bool) (item : RegexItem) : List Bool :=
  match item with
  | .start => onlyFirst row
  | .finish => onlyLast row
  | .run => spread false row
  | item => false :: List.zipWith (fun b c => b && item.accepts c) row text

/-- A match may start at every place. -/
def startRow (text : List Char) : List Bool := true :: text.map fun _ => true

/-- The expression matches somewhere in the text. -/
def isMatch (p : RegexProgram) (text : List Char) : Bool :=
  (p.foldl (step text) (startRow text)).any id

/-- The library that the program runs with. -/
instance library : RegexLibrary where
  Regex := RegexProgram
  escape := escape
  compile? := compile?
  isMatch p text := p.isMatch text.toList

end RegexProgram

end RecordFilter

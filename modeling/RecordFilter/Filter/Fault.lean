import RecordFilter.Filter.Token

/-!
# Faults of a filter

What can be wrong with the text of a filter, as causes; the wording is in `SyntaxFault.message`.  A
`SyntaxError` is a cause with the position at which it is reported.
-/

namespace RecordFilter

/-- The words after which an operator of several words goes on. -/
inductive Lead
  | is
  | isNot
  | not
deriving DecidableEq

namespace Lead

def words : Lead → String
  | is => "is"
  | isNot => "is not"
  | not => "not"

/-- The words that may follow, as a message lists them. -/
def followers : Lead → String
  | is => "'true', 'false', 'null' or 'not null'"
  | isNot => "'null'"
  | not => "'contains', 'starts' or 'in'"

end Lead

/-- Where a punctuation mark or a connective was expected. -/
inductive Spot
  | closingGroup
  | betweenBounds
  | openingList (o : Operator)
  | closingList
deriving DecidableEq

namespace Spot

def expected : Spot → Token
  | closingGroup => .closeParen
  | betweenBounds => .connective .and
  | openingList _ => .openParen
  | closingList => .closeParen

def purpose : Spot → String
  | closingGroup => "to close group"
  | betweenBounds => "between range bounds"
  | openingList o => "after '" ++ o.symbol ++ "'"
  | closingList => "to close value list"

end Spot

inductive SyntaxFault
  | attributeAfterPoint (path : String) (found : Option Char)
  | wordAfter (lead : Lead) (found : Option Char)
  | wrongWord (lead : Lead) (found : String)
  | badEscape (c : Char)
  | openString
  | digitAfterPoint (number : String)
  | lone (c : Char)
  | strayCharacter (c : Char)
  | emptyFilter
  | clauseExpected (found : Token)
  | operatorExpected (path : String) (found : Token)
  | valueExpected (o : Operator) (found : Token)
  | stringExpected (o : Operator) (found : Token)
  | markExpected (spot : Spot) (found : Token)
  | endExpected (found : Token)
  | noValue (o : Operator)
  | noString (o : Operator)
  | noBounds
deriving DecidableEq

namespace SyntaxFault

/-- The character in quotes, or the end of the text. -/
def foundText : Option Char → String
  | some c => "'" ++ c.toString ++ "'"
  | none => "end of input"

def message : SyntaxFault → String
  | attributeAfterPoint path found =>
    "expected attribute name after '.' in '" ++ path ++ "', found " ++ foundText found
  | wordAfter lead (some c) =>
    "unexpected character '" ++ c.toString ++ "' after '" ++ lead.words ++ "'"
  | wordAfter lead none => "unexpected end of input after '" ++ lead.words ++ "'"
  | wrongWord lead found =>
    "expected " ++ lead.followers ++ " after '" ++ lead.words ++ "', found '" ++ found ++ "'"
  | badEscape c => "invalid escape sequence '\\" ++ c.toString ++ "'"
  | openString => "unterminated string literal"
  | digitAfterPoint number => "expected digit after '" ++ number ++ ".'"
  | lone c =>
    let second := if c = '!' then '=' else c
    "unexpected '" ++ c.toString ++ "' (did you mean '" ++ String.ofList [c, second] ++ "'?)"
  | strayCharacter c => "unexpected character '" ++ c.toString ++ "'"
  | emptyFilter => "empty filter"
  | clauseExpected found => "expected attribute or '(', found " ++ found.describe
  | operatorExpected path found =>
    "expected operator after '" ++ path ++ "', found " ++ found.describe
  | valueExpected o found =>
    "expected string or number after '" ++ o.symbol ++ "', found " ++ found.describe
  | stringExpected o found =>
    "expected string after '" ++ o.symbol ++ "', found " ++ found.describe
  | markExpected spot found =>
    "expected '" ++ spot.expected.spelling ++ "' " ++ spot.purpose ++ ", found " ++ found.describe
  | endExpected found =>
    "expected logical operator or end of input, found " ++ found.describe
  | noValue o => "'" ++ o.symbol ++ "' needs a value"
  | noString o => "'" ++ o.symbol ++ "' needs a string"
  | noBounds => "'between' needs a low and a high bound"

end SyntaxFault

structure SyntaxError where
  position : Position
  fault : SyntaxFault
deriving DecidableEq

namespace SyntaxError

def detail (e : SyntaxError) : String := e.fault.message

def message (e : SyntaxError) : String :=
  "Failed to parse at line " ++ Nat.repr e.position.line ++ " and column " ++
    Nat.repr e.position.column ++ ": " ++ e.detail

end SyntaxError

end RecordFilter

/-!
# Operators

The operators of predicates, sorted by what they do with their operands, and the two connectives that
join predicates.  Every operator has one canonical spelling (`Operator.symbol`), by which it can be
found again (`Operator.ofSymbol?`).
-/

namespace RecordFilter

/-! ### Comparisons -/

inductive Comparison
  | equal
  | notEqual
  | greater
  | greaterOrEqual
  | less
  | lessOrEqual
deriving DecidableEq

namespace Comparison

def symbol : Comparison → String
  | equal => "="
  | notEqual => "!="
  | greater => ">"
  | greaterOrEqual => ">="
  | less => "<"
  | lessOrEqual => "<="

/-- Whether a value passes that orders so against the operand. -/
def accepts : Comparison → Ordering → Bool
  | equal, o => o == .eq
  | notEqual, o => o != .eq
  | greater, o => o == .gt
  | greaterOrEqual, o => o != .lt
  | less, o => o == .lt
  | lessOrEqual, o => o != .gt

end Comparison

/-! ### Tests -/

/-- Tests without an operand. -/
inductive Test
  | isTrue
  | isFalse
  | isNull
  | isNotNull
deriving DecidableEq

namespace Test

def symbol : Test → String
  | isTrue => "is true"
  | isFalse => "is false"
  | isNull => "is null"
  | isNotNull => "is not null"

/-- The spelling in a condition. -/
def capitals : Test → String
  | isTrue => "IS TRUE"
  | isFalse => "IS FALSE"
  | isNull => "IS NULL"
  | isNotNull => "IS NOT NULL"

end Test

/-! ### Operators -/

/-- Where a text may stand inside the text that is matched. -/
inductive Placement
  | anywhere
  | atStart
deriving DecidableEq

inductive Operator
  | compare (c : Comparison)
  | test (t : Test)
  | like (placement : Placement) (negated : Bool)
  | member (negated : Bool)
  | between
deriving DecidableEq

/-- What operands an operator takes: none, one value, one string that is never converted, a list of
values, or two values. -/
inductive Arity
  | none
  | one
  | pattern
  | list
  | range
deriving DecidableEq

namespace Operator

def arity : Operator → Arity
  | compare _ => .one
  | test _ => .none
  | like _ _ => .pattern
  | member _ => .list
  | between => .range

def symbol : Operator → String
  | compare c => c.symbol
  | test t => t.symbol
  | like .anywhere false => "contains"
  | like .anywhere true => "not contains"
  | like .atStart false => "starts"
  | like .atStart true => "not starts"
  | member false => "in"
  | member true => "not in"
  | between => "between"

def all : List Operator :=
  [compare .equal, compare .notEqual, compare .greater, compare .greaterOrEqual, compare .less,
    compare .lessOrEqual, test .isTrue, test .isFalse, test .isNull, test .isNotNull,
    like .anywhere false, like .anywhere true, like .atStart false, like .atStart true,
    member false, member true, between]

/-- The operator with this canonical spelling. -/
def ofSymbol? (s : String) : Option Operator := all.find? fun o => o.symbol == s

theorem ofSymbol?_symbol (o : Operator) : ofSymbol? o.symbol = some o := by
  rcases o with c | t | ⟨p, n⟩ | n | _
  · cases c <;> decide
  · cases t <;> decide
  · cases p <;> cases n <;> decide
  · cases n <;> decide
  · decide

end Operator

/-! ### Connectives -/

/-- The two connectives bind equally strongly. -/
inductive Connective
  | and
  | or
deriving DecidableEq

def Connective.symbol : Connective → String
  | and => "&&"
  | or => "||"

def Connective.word : Connective → String
  | and => "and"
  | or => "or"

end RecordFilter

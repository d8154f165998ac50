import RecordFilter.Filter.Token

/-!
# Clauses and groups

What a filter says.  A `Group` is a row of clauses with a connective between neighbours, and it is
read from the left: `Group.join g op c` joins the clause `c` to all of `g`, whatever the connectives
are.  A clause is a predicate or a group in brackets.  `Group.render` writes a group in its canonical
form.
-/

namespace RecordFilter

/-- A literal as it is written; its type is that of the field it is held against. -/
inductive Operand
  | string (text : String)
  | number (text : String)
deriving DecidableEq

namespace Operand

def text : Operand → String
  | string t => t
  | number t => t

def render : Operand → String
  | string t => quoted t
  | number t => t

end Operand

/-- A condition on one attribute, with the position of the attribute. -/
structure Predicate where
  path : String
  operator : Operator
  operands : List Operand
  position : Position
deriving DecidableEq

namespace Predicate

/-- The low and the high bound of a range: the last two operands. -/
def bounds? (p : Predicate) : Option (Operand × Operand) :=
  match p.operands.reverse with
  | high :: low :: _ => some (low, high)
  | _ => none

/-- The operands as they stand behind an operator. -/
def renderOperands (p : Predicate) : String :=
  match p.operator with
  | .member _ => " (" ++ ", ".intercalate (p.operands.map Operand.render) ++ ")"
  | .between =>
    match p.bounds? with
    | some (low, high) => " " ++ low.render ++ " and " ++ high.render
    | none => ""
  | _ => String.join (p.operands.map fun o => " " ++ o.render)

def render (p : Predicate) : String := p.path ++ " " ++ p.operator.symbol ++ p.renderOperands

end Predicate

mutual

inductive Group
  | one (clause : Clause)
  | join (group : Group) (connective : Connective) (clause : Clause)

inductive Clause
  | predicate (predicate : Predicate)
  | group (group : Group)

end

deriving instance DecidableEq for Group, Clause

namespace Group

/-- The clauses from left to right. -/
def children : Group → List Clause
  | one c => [c]
  | join g _ c => g.children ++ [c]

/-- The connectives from left to right. -/
def connectives : Group → List Connective
  | one _ => []
  | join g op _ => g.connectives ++ [op]

/-- The group of these clauses, of which each but the first has its connective before it. -/
def ofClauses (first : Clause) (rest : List (Connective × Clause)) : Group :=
  rest.foldl (fun g r => join g r.1 r.2) (one first)

mutual

/-- The predicates in the order in which they are written. -/
def predicates : Group → List Predicate
  | one c => clausePredicates c
  | join g _ c => predicates g ++ clausePredicates c

def clausePredicates : Clause → List Predicate
  | .predicate p => [p]
  | .group g => predicates g

end

mutual

def render : Group → String
  | one c => renderClause c
  | join g op c => render g ++ " " ++ op.symbol ++ " " ++ renderClause c

def renderClause : Clause → String
  | .predicate p => p.render
  | .group g => "(" ++ render g ++ ")"

end

/-- There is one connective between each two neighbours. -/
theorem length_children (g : Group) : g.children.length = g.connectives.length + 1 := by
  match g with
  | one _ => rfl
  | join g _ _ =>
    have ih := length_children g
    simp [children, connectives, ih]

end Group

namespace Clause

def predicates (c : Clause) : List Predicate := Group.clausePredicates c

def render (c : Clause) : String := Group.renderClause c

end Clause

end RecordFilter

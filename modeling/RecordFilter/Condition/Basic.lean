import RecordFilter.Filter.Operator
import RecordFilter.Value.Basic

/-!
# Conditions

A condition is what a filter means for the records of one entity type: tests of fields, joined by `not`,
`and` and `or`.  Literals have become values and paths have become fields.
-/

namespace RecordFilter

/-- A field that is reached from the root along relationships; `join` is the number of the join that
it is taken from, if there is one. -/
structure FieldRef where
  path : List String
  name : String
  join : Option Nat
deriving DecidableEq

/-- The path with its points; a path without any letter leaves out the point behind it. -/
def FieldRef.dotted (f : FieldRef) : String :=
  let path := ".".intercalate f.path
  if path = "" then f.name else path ++ "." ++ f.name

inductive Condition
  | compare (field : FieldRef) (op : Comparison) (value : Value)
  | test (field : FieldRef) (t : Test)
  | like (field : FieldRef) (pattern : String) (negated : Bool)
  | member (field : FieldRef) (values : List Value)
  | between (field : FieldRef) (low high : Value)
  | not (c : Condition)
  | and (left right : Condition)
  | or (left right : Condition)
deriving DecidableEq

/-- One test of a field with the values that it holds the field against. -/
structure Atom where
  field : FieldRef
  values : List Value
deriving DecidableEq

namespace Condition

/-- The tests of fields from left to right. -/
def atoms : Condition → List Atom
  | compare f _ v => [⟨f, [v]⟩]
  | test f _ => [⟨f, []⟩]
  | like f _ _ => [⟨f, []⟩]
  | member f vs => [⟨f, vs⟩]
  | between f low high => [⟨f, [low, high]⟩]
  | not c => c.atoms
  | and l r => l.atoms ++ r.atoms
  | or l r => l.atoms ++ r.atoms

/-- Two conditions under a connective. -/
def combine : Connective → Condition → Condition → Condition
  | .and => and
  | .or => or

def render : Condition → String
  | compare f op v => f.dotted ++ " " ++ op.symbol ++ " " ++ v.render
  | test f t => f.dotted ++ " " ++ t.capitals
  | like f pattern negated =>
    "UPPER(" ++ f.dotted ++ ") " ++ (if negated then "NOT " else "") ++ "LIKE '" ++ pattern ++ "'"
  | member f vs => f.dotted ++ " IN (" ++ ", ".intercalate (vs.map Value.render) ++ ")"
  | between f low high => f.dotted ++ " BETWEEN " ++ low.render ++ " AND " ++ high.render
  | not c => "NOT (" ++ c.render ++ ")"
  | and l r => "(" ++ l.render ++ " AND " ++ r.render ++ ")"
  | or l r => "(" ++ l.render ++ " OR " ++ r.render ++ ")"

/-! ### As JSON -/

/-- A test of a field: its operator, its field and what it holds the field against. -/
def nodeJson (op : String) (f : FieldRef) (rest : List (String × Json)) : Json :=
  Json.ofMembers ([("op", .string op), ("field", .string f.dotted)] ++ rest)

def toJson : Condition → Json
  | compare f op v => nodeJson op.symbol f [("value", v.toJson)]
  | test f t => nodeJson t.symbol f []
  | like f pattern negated =>
    nodeJson (if negated then "not like" else "like") f [("pattern", .string pattern)]
  | member f vs => nodeJson "in" f [("values", .array (vs.map Value.toJson))]
  | between f low high => nodeJson "between" f [("low", low.toJson), ("high", high.toJson)]
  | not c => Json.ofMembers [("op", .string "not"), ("condition", c.toJson)]
  | and l r => Json.ofMembers [("op", .string "and"), ("left", l.toJson), ("right", r.toJson)]
  | or l r => Json.ofMembers [("op", .string "or"), ("left", l.toJson), ("right", r.toJson)]

end Condition

end RecordFilter

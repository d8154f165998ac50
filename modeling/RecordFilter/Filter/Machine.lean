import RecordFilter.Filter.Clause
import RecordFilter.Filter.Fault

/-!
# The reading machine

Groups are read by a machine with a stack.  A bracket puts the row that is being read on the stack,
and the matching bracket takes it off again, so that one pass over the tokens suffices, whatever the
depth.  `Machine.take?` is the grammar: it says which token may come next and what is known then.
`Machine.refusal` says what to report of a token that may not come.

The word `and` behind the low bound of a range separates the bounds: in that state it is the only
token that may come, and it is no connective there.
-/

namespace RecordFilter

/-- What stands before a clause in its row: nothing, or a group and a connective. -/
inductive Opening
  | first
  | after (group : Group) (connective : Connective)
deriving DecidableEq

/-- The row up to and with this clause. -/
def Opening.with : Opening → Clause → Group
  | first, c => .one c
  | after g op, c => .join g op c

/-- What is due in a predicate of which the path has been read.  The items of a list are kept with
the latest in front. -/
inductive Due
  | operator
  | value (c : Comparison)
  | string (placement : Placement) (negated : Bool)
  | openList (negated : Bool)
  | item (negated : Bool) (items : List Operand)
  | afterItem (negated : Bool) (items : List Operand)
  | low
  | betweenBounds (low : Operand)
  | high (low : Operand)
deriving DecidableEq

/-- The place of the machine in the row that is being read. -/
inductive RowState
  | clause (o : Opening)
  | predicate (o : Opening) (path : String) (position : Position) (due : Due)
  | complete (group : Group)
deriving DecidableEq

/-- The row that is being read and the rows around it, the innermost in front. -/
structure Machine where
  row : RowState
  outer : List Opening
deriving DecidableEq

/-- The literal that a token is. -/
def Token.operand? : Token → Option Operand
  | string t => some (.string t)
  | number t => some (.number t)
  | _ => none

/-- A step inside a predicate: more is due, or the predicate is complete with its operands. -/
inductive DueStep
  | more (due : Due)
  | done (operator : Operator) (operands : List Operand)
deriving DecidableEq

namespace Due

/-- What is due behind an operator. -/
def afterOperator : Operator → DueStep
  | .compare c => .more (.value c)
  | .test t => .done (.test t) []
  | .like p n => .more (.string p n)
  | .member n => .more (.openList n)
  | .between => .more .low

def take? : Due → Token → Option DueStep
  | operator, t => t.operator?.map afterOperator
  | value c, t => t.operand?.map fun x => .done (.compare c) [x]
  | string p n, .string text => some (.done (.like p n) [.string text])
  | string _ _, _ => none
  | openList n, .openParen => some (.more (.item n []))
  | openList _, _ => none
  | item n xs, t => t.operand?.map fun x => .more (.afterItem n (x :: xs))
  | afterItem n xs, .comma => some (.more (.item n xs))
  | afterItem n xs, .closeParen => some (.done (.member n) xs.reverse)
  | afterItem _ _, _ => none
  | low, t => t.operand?.map fun x => .more (.betweenBounds x)
  | betweenBounds x, .connective .and => some (.more (.high x))
  | betweenBounds _, _ => none
  | high x, t => t.operand?.map fun y => .done .between [x, y]

def refusal (path : String) : Due → Token → SyntaxFault
  | operator, t => .operatorExpected path t
  | value c, t => .valueExpected (.compare c) t
  | string p n, t => .stringExpected (.like p n) t
  | openList n, t => .markExpected (.openingList (.member n)) t
  | item n _, t => .valueExpected (.member n) t
  | afterItem _ _, t => .markExpected .closingList t
  | low, t => .valueExpected .between t
  | betweenBounds _, t => .markExpected .betweenBounds t
  | high _, t => .valueExpected .between t

end Due

namespace Machine

/-- Nothing has been read. -/
def start : Machine := ⟨.clause .first, []⟩

/-- The machine after a token, if the token may come. -/
def take? (m : Machine) (l : Lexeme) : Option Machine :=
  match m.row with
  | .clause o =>
    match l.token with
    | .path text => some ⟨.predicate o text l.position .operator, m.outer⟩
    | .openParen => some ⟨.clause .first, o :: m.outer⟩
    | _ => none
  | .predicate o path position due =>
    (due.take? l.token).map fun
      | .more d => ⟨.predicate o path position d, m.outer⟩
      | .done op xs => ⟨.complete (o.with (.predicate ⟨path, op, xs, position⟩)), m.outer⟩
  | .complete g =>
    match l.token, m.outer with
    | .connective op, _ => some ⟨.clause (.after g op), m.outer⟩
    | .closeParen, o :: os => some ⟨.complete (o.with (.group g)), os⟩
    | _, _ => none

/-- What to report of a token that may not come. -/
def refusal (m : Machine) (t : Token) : SyntaxFault :=
  match m.row, m.outer with
  | .clause .first, [] => if t = .endOfText then .emptyFilter else .clauseExpected t
  | .clause _, _ => .clauseExpected t
  | .predicate _ path _ due, _ => due.refusal path t
  | .complete _, [] => .endExpected t
  | .complete _, _ :: _ => .markExpected .closingGroup t

/-- The group, if the text may end here. -/
def result? (m : Machine) : Option Group :=
  match m.row, m.outer with
  | .complete g, [] => some g
  | _, _ => none

/-- The group, if the text may end at this lexeme. -/
def finish (m : Machine) (l : Lexeme) : Except SyntaxError Group :=
  match m.result? with
  | some g => .ok g
  | none => .error ⟨l.position, m.refusal l.token⟩

/-- Takes tokens as long as they may come: the machine then, and the tokens that are left. -/
def run (m : Machine) : List Lexeme → Machine × List Lexeme
  | [] => (m, [])
  | l :: ls =>
    match m.take? l with
    | some m' => m'.run ls
    | none => (m, l :: ls)

@[simp] theorem run_nil (m : Machine) : m.run [] = (m, []) := rfl

theorem run_cons_some {m m' : Machine} {l : Lexeme} (h : m.take? l = some m') (ls : List Lexeme) :
    m.run (l :: ls) = m'.run ls := by
  simp only [run, h]

theorem run_cons_none {m : Machine} {l : Lexeme} (h : m.take? l = none) (ls : List Lexeme) :
    m.run (l :: ls) = (m, l :: ls) := by
  simp only [run, h]

/-- A machine that has taken all of a text goes on with what follows. -/
theorem run_append {m m' : Machine} {ls : List Lexeme} (h : m.run ls = (m', []))
    (rest : List Lexeme) : m.run (ls ++ rest) = m'.run rest := by
  induction ls generalizing m with
  | nil => cases h; rfl
  | cons l ls ih =>
    cases ht : m.take? l with
    | none => rw [run_cons_none ht] at h; cases h
    | some n =>
      rw [run_cons_some ht] at h
      rw [List.cons_append, run_cons_some ht, ih h]

/-- The first token that is left may not come. -/
theorem take?_of_run_cons {m m' : Machine} {ls rest : List Lexeme} {l : Lexeme}
    (h : m.run ls = (m', l :: rest)) : m'.take? l = none := by
  induction ls generalizing m with
  | nil => cases h
  | cons k ls ih =>
    cases ht : m.take? k with
    | none =>
      rw [run_cons_none ht] at h
      cases h
      exact ht
    | some n =>
      rw [run_cons_some ht] at h
      exact ih h

end Machine

end RecordFilter

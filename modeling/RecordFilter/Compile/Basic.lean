import RecordFilter.Compile.Path
import RecordFilter.Filter.Parse
import RecordFilter.Text.Case

/-!
# Compilation

A group becomes one predicate.  Its clauses are taken from the left, each joined to all that stands
before it, so `a || b && c` means `(a || b) && c`.  For every predicate the path is resolved first and
the literals are read afterwards, and the first fault ends the compilation.
-/

namespace RecordFilter

/-- How literals are read and how paths are changed before they are resolved. -/
structure Compiler where
  registry : Registry
  mapPath : String → String

namespace Compiler

/-- Built-in readers, and paths as they are written. -/
def standard : Compiler := ⟨.builtIn, id⟩

open Compilation

variable {σ P J F : Type}

/-- A fault in a predicate that no text can write. -/
def malformed {α : Type} (p : Predicate) (fault : SyntaxFault) : Compilation σ J α :=
  throw (.malformed ⟨p.position, fault⟩)

/-- The value of an operand for a field. -/
def readOperand (c : Compiler) (s : Schema) (r : ResolvedPath J F) (o : Operand) :
    Compilation σ J Value :=
  match c.registry.convertTo s r.type r.name o.text with
  | .ok v => pure v
  | .error e => throw e

/-- The value of the last operand. -/
def readLast (c : Compiler) (s : Schema) (r : ResolvedPath J F) (p : Predicate) :
    Compilation σ J Value :=
  match p.operands.getLast? with
  | some o => c.readOperand s r o
  | none => malformed p (.noValue p.operator)

/-- The pattern that finds a text at its place; a percent sign stands for any run of characters. -/
def likePattern (placement : Placement) (text : String) : String :=
  match placement with
  | .anywhere => "%" ++ text ++ "%"
  | .atStart => text ++ "%"

/-- The pattern for the last operand, in upper case. -/
def readPattern (p : Predicate) (placement : Placement) : Compilation σ J String :=
  match p.operands.getLast? with
  | some (.string text) => pure (likePattern placement (Text.upper text))
  | _ => malformed p (.noString p.operator)

def reducePredicate (c : Compiler) (b : Backend σ P J F) (p : Predicate) : Compilation σ J P := do
  let r ← b.resolve (c.mapPath p.path)
  match p.operator with
  | .compare op => do
    let v ← c.readLast b.schema r p
    build (b.compare r.field op v)
  | .test t => build (b.test r.field t)
  | .like placement negated => do
    let pattern ← readPattern p placement
    build (b.like r.field pattern negated)
  | .member negated => do
    let vs ← p.operands.mapM (c.readOperand b.schema r)
    let m ← build (b.member r.field vs)
    if negated then build (b.not m) else pure m
  | .between =>
    match p.bounds? with
    | none => malformed p .noBounds
    | some (low, high) => do
      let low ← c.readOperand b.schema r low
      let high ← c.readOperand b.schema r high
      build (b.between r.field low high)

mutual

def reduceGroup (c : Compiler) (b : Backend σ P J F) : Group → Compilation σ J P
  | .one clause => c.reduceClause b clause
  | .join group op clause => do
    let left ← c.reduceGroup b group
    let right ← c.reduceClause b clause
    build (b.combine op left right)

def reduceClause (c : Compiler) (b : Backend σ P J F) : Clause → Compilation σ J P
  | .predicate p => c.reducePredicate b p
  | .group group => c.reduceGroup b group

end

/-- What a compilation leaves behind: the state of the backend and the field types remembered. -/
structure Outcome (σ P : Type) where
  result : Except CompileError P
  backend : σ
  cache : FieldCache

/-- Compiles a group; joins are shared within this one compilation. -/
def reduce (c : Compiler) (b : Backend σ P J F) (state : σ) (cache : FieldCache) (g : Group) :
    Outcome σ P :=
  let (result, p) := (c.reduceGroup b g).run ⟨state, [], cache⟩
  ⟨result, p.backend, p.cache⟩

/-- Compiles a text. -/
def compile (c : Compiler) (b : Backend σ P J F) (state : σ) (cache : FieldCache) (text : String) :
    Outcome σ P :=
  match parse text with
  | .ok g => c.reduce b state cache g
  | .error e => ⟨.error (.malformed e), state, cache⟩

end Compiler

end RecordFilter

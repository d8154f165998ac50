import RecordFilter.Compile.Backend
import RecordFilter.Schema.FieldCache
import RecordFilter.Text.Split
import RecordFilter.Value.Registry

/-!
# Resolving paths

A path names a field by the relationships that lead to it, with points between them.  Along the way
each relationship is joined; a join is remembered under the path up to it, so that two paths that
begin alike share their joins.
-/

namespace RecordFilter

/-- The relationships of a path, in order, and the field at its end. -/
structure AttributePath where
  relations : List String
  field : String
deriving DecidableEq

/-- The path that a text writes; the field is what follows the last point. -/
def AttributePath.ofText (text : String) : AttributePath :=
  let segments := Text.pieces '.' text
  ⟨segments.dropLast, segments.getLast?.getD ""⟩

/-! ### The state of a compilation -/

/-- The state of the backend, the joins by the paths that lead to them, and the field types
remembered. -/
structure Progress (σ J : Type) where
  backend : σ
  joins : List (String × J)
  cache : FieldCache

/-- What a compilation does: it may fail, and what it has changed until then stays changed. -/
abbrev Compilation (σ J α : Type) := ExceptT CompileError (StateM (Progress σ J)) α

namespace Compilation

variable {σ J α : Type}

/-- An operation of the backend. -/
def build (step : StateM σ α) : Compilation σ J α :=
  modifyGet fun p =>
    let (a, backend) := step p.backend
    (a, { p with backend })

/-- The declared type of a field, remembered. -/
def fieldType? (s : Schema) (owner field : String) : Compilation σ J (Option FieldType) :=
  modifyGet fun p =>
    let (t, cache) := p.cache.lookup s owner field
    (t, { p with cache })

def joinAt? (trail : String) : Compilation σ J (Option J) :=
  return (← get).joins.lookup trail

def rememberJoin (trail : String) (join : J) : Compilation σ J Unit :=
  modify fun p => { p with joins := (trail, join) :: p.joins }

/-- The value of an option, or else a segment of the path that leads nowhere. -/
def resolved (path segment : String) : Option α → Compilation σ J α
  | some a => pure a
  | none => throw (.unresolved path segment)

end Compilation

/-! ### Resolution -/

/-- A field with its type, the entity type that it is taken from and the joins that lead to it. -/
structure ResolvedPath (J F : Type) where
  field : F
  owner : String
  name : String
  type : FieldType
  joins : List J

/-- A trail with one more segment; no point is put behind a trail that is empty. -/
def extendTrail (trail segment : String) : String :=
  if trail = "" then segment else trail ++ "." ++ segment

namespace Backend

open Compilation

variable {σ P J F : Type}

/-- The join that follows a relationship, made at the first use of its trail. -/
def joinOnce (b : Backend σ P J F) (path trail : String) (context : J) (segment : String) :
    Compilation σ J J := do
  match ← joinAt? trail with
  | some join => pure join
  | none =>
    let join ← resolved path segment (← build (b.join context segment))
    rememberJoin trail join
    pure join

/-- The joins along relationships, from a join with its trail. -/
def joinAlong (b : Backend σ P J F) (path : String) :
    String → J → List String → Compilation σ J (List J)
  | _, _, [] => pure []
  | trail, context, segment :: rest => do
    let trail := extendTrail trail segment
    let join ← b.joinOnce path trail context segment
    return join :: (← b.joinAlong path trail join rest)

/-- Resolves a path from the root. -/
def resolve (b : Backend σ P J F) (path : String) : Compilation σ J (ResolvedPath J F) := do
  let p := AttributePath.ofText path
  let joins ← b.joinAlong path "" b.root p.relations
  let context := joins.getLast?.getD b.root
  let field ← resolved path p.field (b.field context p.field)
  let owner := b.entityOf context
  let type ← resolved path p.field (← fieldType? b.schema owner p.field)
  return ⟨field, owner, p.field, type, joins⟩

end Backend

end RecordFilter

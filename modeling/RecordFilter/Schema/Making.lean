import RecordFilter.Schema.Basic

/-!
# Making schemas

A process gives out one identity after the other. Every schema that is made from nothing gets the next
one, and keeps it when more is declared.
-/

namespace RecordFilter

/-- The identity that is given out after `n` others: the counter starts at one and has 64 bits. -/
def SchemaId.issue (n : Nat) : SchemaId := ⟨(n + 1) % UInt64.size⟩

/-- What a schema can declare. -/
inductive Declaration
  | entity (e : EntityType)
  | enum (name : String) (variants : List String)
deriving DecidableEq

namespace Schema

def declare (s : Schema) : Declaration → Schema
  | .entity e => s.withEntity e
  | .enum name variants => s.withEnum name variants

/-- Several declarations, the first one first. -/
def declareAll (s : Schema) (ds : List Declaration) : Schema := ds.foldl declare s

theorem declareAll_concat (s : Schema) (ds : List Declaration) (d : Declaration) :
    s.declareAll (ds ++ [d]) = (s.declareAll ds).declare d := by
  simp [declareAll]

end Schema

end RecordFilter

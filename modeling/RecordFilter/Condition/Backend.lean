import RecordFilter.Compile.Backend
import RecordFilter.Condition.Basic

/-!
# Building conditions

The backend whose predicates are conditions.  Its state is the list of the joins made so far; the
number of a join is its place in the list.  Fields and relationships are those that the schema
declares for the entity type of a join, inherited ones with them.
-/

namespace RecordFilter

/-- A join that has been made: the relationship it follows, from which join, and the entity type that
it leads to. -/
structure JoinRecord where
  id : Nat
  parent : Option Nat
  segment : String
  entity : String
deriving DecidableEq

/-- A place from which fields are taken: the root, which has no number, or a join. -/
structure Join where
  id : Option Nat
  entity : String
  path : List String
deriving DecidableEq

namespace Condition

/-- Follows a relationship to its entity type by a new join. -/
def makeJoin (s : Schema) (c : Join) (segment : String) : StateM (List JoinRecord) (Option Join) :=
  fun joins =>
    match s.target? c.entity segment with
    | none => (none, joins)
    | some entity =>
      let id := joins.length
      (some ⟨some id, entity, c.path ++ [segment]⟩, joins ++ [⟨id, c.id, segment, entity⟩])

/-- A declared field. -/
def takeField (s : Schema) (c : Join) (name : String) : Option FieldRef :=
  (s.fieldType? c.entity name).map fun _ => ⟨c.path, name, c.id⟩

/-- Builds conditions on the records of an entity type. -/
def backend (s : Schema) (root : String) : Backend (List JoinRecord) Condition Join FieldRef where
  schema := s
  root := ⟨none, root, []⟩
  entityOf := Join.entity
  join := makeJoin s
  field := takeField s
  compare f op v := pure (.compare f op v)
  test f t := pure (.test f t)
  like f pattern negated := pure (.like f pattern negated)
  member f vs := pure (.member f vs)
  between f low high := pure (.between f low high)
  not c := pure (.not c)
  combine op l r := pure (.combine op l r)

end Condition

end RecordFilter

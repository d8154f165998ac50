import RecordFilter.Filter.Operator
import RecordFilter.Schema.Basic
import RecordFilter.Value.Basic

/-!
# Backends

A backend builds predicates of some kind `P`.  It offers a root and relationships to join from there,
fields to take from a join, and one operation for every kind of predicate.  Compilation uses these
operations only, and never looks into a predicate, a join or a field.
-/

namespace RecordFilter

/-- What compilation needs for predicates `P` over fields `F` of joins `J`; joining and building may
change a state `σ`. -/
structure Backend (σ P J F : Type) where
  schema : Schema
  root : J
  entityOf : J → String
  join : J → String → StateM σ (Option J)
  field : J → String → Option F
  compare : F → Comparison → Value → StateM σ P
  test : F → Test → StateM σ P
  /-- The pattern is in upper case, as the text of the field has to be. -/
  like : F → String → Bool → StateM σ P
  member : F → List Value → StateM σ P
  between : F → Value → Value → StateM σ P
  not : P → StateM σ P
  combine : Connective → P → P → StateM σ P

end RecordFilter

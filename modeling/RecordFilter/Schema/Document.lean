import RecordFilter.Json.Basic
import RecordFilter.Schema.Basic

/-!
# Schema documents

A schema is described by an object with the members `entities` and `enums`, both optional:

    { "entities": { "Author": { "extends": "Person", "fields": { "age": "i32" } } },
      "enums": { "Gender": ["MALE", "FEMALE"] } }

Members are read in the order of their keys and the first fault is reported.  When all is read, every
supertype has to be declared.  The entity types are kept in a hashed map, and such a map is gone through in an
order of its own (`MapOrder`).  So of several supertypes that are not declared any may be reported, and
another one when the same document is read again; whether a document is refused, and which schema is read
from it, does not depend on the order (`Schema.ofDocumentIn_eq_ok_iff`).
-/

namespace RecordFilter

inductive SchemaFault
  | unknownType (text : String)
  | entitiesNotObject
  | extendsNotString (entity : String)
  | fieldsNotObject (entity : String)
  | typeNotString (entity field : String)
  | enumsNotObject
  | variantsNotStrings (enum : String)
  | unknownParent (child parent : String)
deriving DecidableEq

namespace SchemaFault

/-- What is wrong with a document that has not the form of a description. -/
def shapeMessage? : SchemaFault → Option String
  | entitiesNotObject => some "'entities' must be an object"
  | extendsNotString entity => some ("'extends' of '" ++ entity ++ "' must be a string")
  | fieldsNotObject entity => some ("'fields' of '" ++ entity ++ "' must be an object")
  | typeNotString entity field =>
    some ("type of '" ++ entity ++ "." ++ field ++ "' must be a string")
  | enumsNotObject => some "'enums' must be an object"
  | variantsNotStrings enum => some ("variants of '" ++ enum ++ "' must be strings")
  | unknownType _ => none
  | unknownParent _ _ => none

def message (f : SchemaFault) : String :=
  match f with
  | unknownType text => "unknown field type '" ++ text ++ "'"
  | unknownParent child parent =>
    "type '" ++ child ++ "' extends undeclared type '" ++ parent ++ "'"
  | _ => "invalid schema document: " ++ f.shapeMessage?.getD ""

end SchemaFault

def FieldType.read (text : String) : Except SchemaFault FieldType :=
  match FieldType.read? text with
  | some t => .ok t
  | none => .error (.unknownType text)

namespace Schema

/-- The members of an object that may be absent. -/
def membersOf (fault : SchemaFault) : Option Json → Except SchemaFault (List (String × Json))
  | none => .ok []
  | some (.object members) => .ok members
  | some _ => .error fault

def readParent (entity : String) : Option Json → Except SchemaFault (Option String)
  | none => .ok none
  | some (.string parent) => .ok (some parent)
  | some _ => .error (.extendsNotString entity)

def readField (entity field : String) : Json → Except SchemaFault FieldDecl
  | .string text => (FieldType.read text).map fun t => ⟨field, t⟩
  | _ => .error (.typeNotString entity field)

def readEntity (name : String) (body : Json) : Except SchemaFault EntityType := do
  let parent ← readParent name (body.get? "extends")
  let fields ← membersOf (.fieldsNotObject name) (body.get? "fields")
  let fields ← fields.mapM fun (field, type) => readField name field type
  .ok ⟨name, parent, fields⟩

def readEnum (name : String) (variants : Json) : Except SchemaFault (String × List String) :=
  match variants.asArray?.bind fun items => items.mapM Json.asString? with
  | some texts => .ok (name, texts)
  | none => .error (.variantsNotStrings name)

/-- All that a document declares. -/
def readDeclarations (id : SchemaId) (document : Json) : Except SchemaFault Schema := do
  let entities ← membersOf .entitiesNotObject (document.get? "entities")
  let entities ← entities.mapM fun (name, body) => readEntity name body
  let enums ← membersOf .enumsNotObject (document.get? "enums")
  let enums ← enums.mapM fun (name, variants) => readEnum name variants
  let s := entities.foldl withEntity (empty id)
  .ok (enums.foldl (fun s e => s.withEnum e.1 e.2) s)

end Schema

/-- An order in which a hashed map of entity types is gone through.  Nothing is known of it but that
every type comes once; two maps with the same types may have different orders. -/
structure MapOrder where
  arrange : List EntityType → List EntityType
  perm : ∀ es, (arrange es).Perm es

/-- The types in the order in which they were declared. -/
def MapOrder.declared : MapOrder := ⟨List.reverse, List.reverse_perm⟩

namespace Schema

/-- The first type, in the order, with a supertype that is not declared. -/
def undeclaredParent? (s : Schema) (order : MapOrder) : Option SchemaFault :=
  (order.arrange s.entities).findSome? fun e => e.parent.bind fun p =>
    if s.hasEntity p then none else some (.unknownParent e.name p)

/-- The schema that a document describes, with the order in which its types are gone through. -/
def ofDocumentIn (order : MapOrder) (id : SchemaId) (document : Json) : Except SchemaFault Schema := do
  let s ← readDeclarations id document
  match s.undeclaredParent? order with
  | some fault => .error fault
  | none => .ok s

/-- The schema that a document describes. -/
def ofDocument (id : SchemaId) (document : Json) : Except SchemaFault Schema :=
  ofDocumentIn .declared id document

/-! ### Undeclared supertypes -/

/-- The fault names a type of the schema with a supertype that is not declared. -/
def Undeclared (s : Schema) (fault : SchemaFault) : Prop :=
  ∃ e ∈ s.entities, ∃ p, e.parent = some p ∧ s.hasEntity p = false ∧ fault = .unknownParent e.name p

theorem undeclared_of_undeclaredParent? {s : Schema} {order : MapOrder} {fault : SchemaFault}
    (h : s.undeclaredParent? order = some fault) : s.Undeclared fault := by
  obtain ⟨e, he, h⟩ := List.exists_of_findSome?_eq_some h
  obtain ⟨p, hp, h⟩ := Option.bind_eq_some_iff.mp h
  split at h
  · cases h
  · rename_i hdeclared
    cases h
    exact ⟨e, (order.perm s.entities).mem_iff.mp he, p, hp, Bool.eq_false_iff.mpr hdeclared, rfl⟩

/-- **In every order** something is reported just if a supertype is not declared. -/
theorem undeclaredParent?_eq_none_iff {s : Schema} (order : MapOrder) :
    s.undeclaredParent? order = none ↔ ∀ fault, ¬ s.Undeclared fault := by
  constructor
  · rintro h _ ⟨e, he, p, hp, hundeclared, rfl⟩
    have hnone := List.findSome?_eq_none_iff.mp h e ((order.perm s.entities).mem_iff.mpr he)
    rw [hp, Option.bind_some, hundeclared] at hnone
    cases hnone
  · intro h
    cases hreport : s.undeclaredParent? order with
    | none => rfl
    | some fault => exact absurd (undeclared_of_undeclaredParent? hreport) (h fault)

theorem ofDocumentIn_eq {id : SchemaId} {document : Json} {s : Schema} (order : MapOrder)
    (h : readDeclarations id document = .ok s) :
    ofDocumentIn order id document =
      match s.undeclaredParent? order with
      | some fault => .error fault
      | none => .ok s := by
  unfold ofDocumentIn
  rw [h]
  rfl

/-- **The schema that is read** does not depend on the order. -/
theorem ofDocumentIn_eq_ok_iff {id : SchemaId} {document : Json} {order : MapOrder} {s : Schema} :
    ofDocumentIn order id document = .ok s ↔
      readDeclarations id document = .ok s ∧ ∀ fault, ¬ s.Undeclared fault := by
  cases h : readDeclarations id document with
  | error fault =>
    unfold ofDocumentIn
    rw [h]
    exact iff_of_false nofun nofun
  | ok t =>
    rw [ofDocumentIn_eq order h, ← undeclaredParent?_eq_none_iff order]
    cases hreport : t.undeclaredParent? order with
    | some fault =>
      refine iff_of_false nofun ?_
      rintro ⟨⟨⟩, hnone⟩
      rw [hreport] at hnone
      cases hnone
    | none =>
      constructor
      · rintro ⟨⟩
        exact ⟨rfl, hreport⟩
      · rintro ⟨⟨⟩, -⟩
        rfl

/-- **Two orders** lead to the same, or each to a report of a supertype that is not declared. -/
theorem ofDocumentIn_orders (id : SchemaId) (document : Json) (order order' : MapOrder) :
    ofDocumentIn order id document = ofDocumentIn order' id document ∨
      ∃ s fault fault', readDeclarations id document = .ok s ∧ s.Undeclared fault ∧
        s.Undeclared fault' ∧ ofDocumentIn order id document = .error fault ∧
        ofDocumentIn order' id document = .error fault' := by
  cases h : readDeclarations id document with
  | error fault =>
    left
    unfold ofDocumentIn
    rw [h]
    rfl
  | ok s =>
    rw [ofDocumentIn_eq order h, ofDocumentIn_eq order' h]
    cases hreport : s.undeclaredParent? order with
    | none =>
      rw [undeclaredParent?_eq_none_iff] at hreport
      rw [(undeclaredParent?_eq_none_iff order').mpr hreport]
      exact .inl rfl
    | some fault =>
      have hfault := undeclared_of_undeclaredParent? hreport
      cases hreport' : s.undeclaredParent? order' with
      | none => exact absurd hfault ((undeclaredParent?_eq_none_iff order').mp hreport' fault)
      | some fault' =>
        exact .inr ⟨s, fault, fault', rfl, hfault, undeclared_of_undeclaredParent? hreport', rfl, rfl⟩

end Schema

end RecordFilter

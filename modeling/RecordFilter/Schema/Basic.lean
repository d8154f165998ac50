import RecordFilter.Schema.FieldType

/-!
# Schemas

A schema declares entity types with their fields and enumerations with their variants.  An entity type
may extend another one and then has its fields too, a field declared nearer to the type hiding one of
the same name further up.  Nothing forbids that a type extends itself in a circle or extends a type
that is not declared: `Schema.hierarchy` goes up as long as there is a supertype that has not been
passed yet.
-/

namespace RecordFilter

structure FieldDecl where
  name : String
  type : FieldType
deriving DecidableEq

/-- An entity type with its supertype and the fields that it declares itself. -/
structure EntityType where
  name : String
  parent : Option String
  fields : List FieldDecl
deriving DecidableEq

/-- What tells one schema from another for those who remember its field types. -/
structure SchemaId where
  number : Nat
deriving DecidableEq

structure Schema where
  id : SchemaId
  entities : List EntityType
  enums : List (String × List String)
deriving DecidableEq

namespace Schema

/-! ### Building -/

/-- The schema that declares nothing. -/
def empty (id : SchemaId) : Schema := ⟨id, [], []⟩

/-- Declares an entity type, in place of one with the same name. -/
def withEntity (s : Schema) (e : EntityType) : Schema :=
  { s with entities := e :: s.entities.filter (·.name != e.name) }

/-- Declares an enumeration, in place of one with the same name. -/
def withEnum (s : Schema) (name : String) (variants : List String) : Schema :=
  { s with enums := (name, variants) :: s.enums.filter (·.1 != name) }

/-! ### What is declared -/

def entity? (s : Schema) (name : String) : Option EntityType :=
  s.entities.find? (·.name == name)

def hasEntity (s : Schema) (name : String) : Bool := (s.entity? name).isSome

/-- The fields that the type declares itself. -/
def declaredFields (s : Schema) (name : String) : List FieldDecl :=
  ((s.entity? name).map EntityType.fields).getD []

def parent? (s : Schema) (name : String) : Option String :=
  (s.entity? name).bind EntityType.parent

def variants? (s : Schema) (enum : String) : Option (List String) := s.enums.lookup enum

/-! ### Supertypes -/

/-- The supertypes above a type that are not among those passed, nearest first.  Every step up passes
another declared type, so as many steps as there are declarations are enough. -/
def ancestors (s : Schema) : Nat → List String → String → List String
  | 0, _, _ => []
  | steps + 1, passed, name =>
    match s.parent? name with
    | none => []
    | some p => if p ∈ passed then [] else p :: s.ancestors steps (p :: passed) p

/-- The type and its supertypes, nearest first. -/
def hierarchy (s : Schema) (name : String) : List String :=
  name :: s.ancestors s.entities.length [name] name

/-- The type of the first field with this name. -/
def typeIn? (field : String) (fields : List FieldDecl) : Option FieldType :=
  (fields.find? (·.name == field)).map FieldDecl.type

/-- The declared type of a field: the nearest type in the hierarchy that declares the field decides,
and in it the first declaration. -/
def fieldType? (s : Schema) (name field : String) : Option FieldType :=
  (s.hierarchy name).findSome? fun t => typeIn? field (s.declaredFields t)

/-- The entity type that a path reaches from a type through one of its fields. -/
def target? (s : Schema) (name field : String) : Option String :=
  (s.fieldType? name field).bind FieldType.target?

/-! ### Laws of building -/

theorem entity?_withEntity (s : Schema) (e : EntityType) (name : String) :
    (s.withEntity e).entity? name = if e.name = name then some e else s.entity? name := by
  by_cases h : e.name = name
  · simp [entity?, withEntity, h]
  · simp only [entity?, withEntity, if_neg h, List.find?_cons, beq_false_of_ne h,
      List.find?_filter]
    congr 1
    funext x
    by_cases hx : x.name = name
    · simp [hx, Ne.symm h]
    · simp [hx]

end Schema

end RecordFilter

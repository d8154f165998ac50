import RecordFilter.Schema.Basic

/-!
# Remembered field types

A cache remembers the declared types of fields.  The first question about a type that the cache cannot
answer makes it learn all fields of the type, inherited ones with them; what it knows already it
keeps, so of two declarations the one nearer to the type stays.  Entries belong to a schema by its
identity only.
-/

namespace RecordFilter

/-- The field of a type of a schema. -/
structure FieldKey where
  schema : SchemaId
  owner : String
  field : String
deriving DecidableEq

structure FieldCache where
  entries : List (FieldKey × FieldType)
deriving DecidableEq

namespace FieldCache

def empty : FieldCache := ⟨[]⟩

def size (c : FieldCache) : Nat := c.entries.length

def get? (c : FieldCache) (k : FieldKey) : Option FieldType := c.entries.lookup k

/-- Whether the type of the field is remembered. -/
def contains (c : FieldCache) (s : Schema) (owner field : String) : Bool :=
  (c.get? ⟨s.id, owner, field⟩).isSome

/-- Remembers a type, unless there is one for the field. -/
def learn (c : FieldCache) (k : FieldKey) (t : FieldType) : FieldCache :=
  match c.get? k with
  | some _ => c
  | none => ⟨(k, t) :: c.entries⟩

/-- The fields of a type with those that it inherits, nearest first. -/
def visibleFields (s : Schema) (owner : String) : List FieldDecl :=
  (s.hierarchy owner).flatMap s.declaredFields

/-- Learns all fields of a type. -/
def learnAll (c : FieldCache) (s : Schema) (owner : String) : FieldCache :=
  (visibleFields s owner).foldl (fun c d => c.learn ⟨s.id, owner, d.name⟩ d.type) c

/-- The declared type of a field, and what is remembered afterwards. -/
def lookup (c : FieldCache) (s : Schema) (owner field : String) : Option FieldType × FieldCache :=
  let k : FieldKey := ⟨s.id, owner, field⟩
  match c.get? k with
  | some t => (some t, c)
  | none =>
    let c := c.learnAll s owner
    (c.get? k, c)

theorem learn_of_some {c : FieldCache} {k : FieldKey} {u : FieldType} (h : c.get? k = some u)
    (t : FieldType) : c.learn k t = c := by
  rw [learn, h]

theorem learn_of_none {c : FieldCache} {k : FieldKey} (h : c.get? k = none) (t : FieldType) :
    c.learn k t = ⟨(k, t) :: c.entries⟩ := by
  rw [learn, h]

/-- What is remembered stays, and nothing but the one field is new. -/
theorem get?_learn (c : FieldCache) (k k' : FieldKey) (t : FieldType) :
    (c.learn k t).get? k' = (c.get? k').or (if k = k' then some t else none) := by
  cases hk : c.get? k with
  | some u =>
    rw [learn_of_some hk]
    by_cases h : k = k'
    · subst h
      simp [hk]
    · simp [h]
  | none =>
    rw [learn_of_none hk]
    by_cases h : k = k'
    · subst h
      rw [hk]
      simp [get?]
    · have hb : (k' == k) = false := beq_false_of_ne (Ne.symm h)
      simp [get?, List.lookup_cons, hb, h]

end FieldCache

end RecordFilter

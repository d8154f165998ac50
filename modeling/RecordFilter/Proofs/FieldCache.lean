import RecordFilter.Schema.FieldCache

/-!
# What a cache says of a schema

A cache is *coherent* with a schema if nothing that it remembers under the identity of the schema
differs from what the schema declares.  Learning all fields of a type adds exactly the declared types
of that type (`get?_learnAll`), so a coherent cache answers every question as the schema does and
stays coherent (`lookup_fst`, `lookup_coherent`).
-/

namespace RecordFilter

namespace Schema

/-- The first of the fields of several types is the first of the fields of the first type that has
it. -/
theorem typeIn?_flatMap (field : String) (fieldsOf : String → List FieldDecl) (ts : List String) :
    typeIn? field (ts.flatMap fieldsOf) = ts.findSome? fun t => typeIn? field (fieldsOf t) := by
  induction ts with
  | nil => rfl
  | cons t ts ih =>
    rw [List.flatMap_cons, List.findSome?_cons, ← ih]
    unfold typeIn?
    rw [List.find?_append]
    cases (fieldsOf t).find? (·.name == field) <;> rfl

theorem fieldType?_eq_typeIn? (s : Schema) (owner field : String) :
    s.fieldType? owner field = typeIn? field (FieldCache.visibleFields s owner) :=
  (typeIn?_flatMap field s.declaredFields (s.hierarchy owner)).symm

end Schema

namespace FieldCache

/-- **Coherence.**  What is remembered of a schema is what the schema declares. -/
def Coherent (c : FieldCache) (s : Schema) : Prop :=
  ∀ owner field t, c.get? ⟨s.id, owner, field⟩ = some t → s.fieldType? owner field = some t

theorem empty_coherent (s : Schema) : empty.Coherent s := by
  intro owner field t h
  cases h

/-- Learning fields adds the first declaration of each name, where there is nothing yet. -/
theorem get?_foldl_learn (id : SchemaId) (owner : String) (ds : List FieldDecl) (c : FieldCache)
    (k : FieldKey) :
    (ds.foldl (fun c d => c.learn ⟨id, owner, d.name⟩ d.type) c).get? k =
      (c.get? k).or
        (if k.schema = id ∧ k.owner = owner then Schema.typeIn? k.field ds else none) := by
  induction ds generalizing c with
  | nil => simp [Schema.typeIn?]
  | cons d ds ih =>
    obtain ⟨schema, o, field⟩ := k
    rw [List.foldl_cons, ih, get?_learn, Option.or_assoc]
    congr 1
    by_cases hk : schema = id ∧ o = owner
    · obtain ⟨rfl, rfl⟩ := hk
      by_cases hd : d.name = field
      · simp [Schema.typeIn?, hd]
      · simp [Schema.typeIn?, hd]
    · have hne : ¬ (⟨id, owner, d.name⟩ : FieldKey) = ⟨schema, o, field⟩ := by
        intro h
        cases h
        exact hk ⟨rfl, rfl⟩
      rw [if_neg hne, if_neg hk, if_neg hk, Option.none_or]

/-- **What learning a type adds:** the declared types of its fields, where there is nothing yet. -/
theorem get?_learnAll (c : FieldCache) (s : Schema) (owner : String) (k : FieldKey) :
    (c.learnAll s owner).get? k =
      (c.get? k).or
        (if k.schema = s.id ∧ k.owner = owner then s.fieldType? owner k.field else none) := by
  rw [Schema.fieldType?_eq_typeIn?]
  exact get?_foldl_learn s.id owner (visibleFields s owner) c k

theorem Coherent.learnAll {c : FieldCache} {s : Schema} (h : c.Coherent s) (owner : String) :
    (c.learnAll s owner).Coherent s := by
  intro o field t ht
  rw [get?_learnAll] at ht
  rcases Option.or_eq_some_iff.mp ht with ht | ⟨-, ht⟩
  · exact h o field t ht
  · split at ht
    · next hk =>
      obtain ⟨-, rfl⟩ := hk
      exact ht
    · cases ht

theorem lookup_coherent {c : FieldCache} {s : Schema} (h : c.Coherent s) (owner field : String) :
    (c.lookup s owner field).2.Coherent s := by
  unfold lookup
  dsimp only
  split
  · exact h
  · exact h.learnAll owner

/-- **A coherent cache answers as the schema does.** -/
theorem lookup_fst {c : FieldCache} {s : Schema} (h : c.Coherent s) (owner field : String) :
    (c.lookup s owner field).1 = s.fieldType? owner field := by
  unfold lookup
  dsimp only
  split
  · next t ht => exact (h owner field t ht).symm
  · next hn => rw [get?_learnAll, hn, Option.none_or, if_pos ⟨rfl, rfl⟩]

end FieldCache

end RecordFilter

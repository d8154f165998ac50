import Mathlib.Data.List.Basic
import RecordFilter.Schema.Basic

/-!
# Going up through supertypes

`Schema.ancestors` counts its steps. `Climb` tells the same walk without a count: it goes up from a type
to its supertype until there is none or until the supertype has been passed, so what it finds depends
on the supertypes only (`Climb.unique`).

Every step up leaves a declared type that has not been left before, so the count of `Schema.hierarchy`
never stops a walk (`climb_ancestors`, `climb_hierarchy`). It follows that two schemas that declare the
same fields and supertypes have the same hierarchies and the same types of fields, however their
declarations are stored (`Schema.Agree.hierarchy`, `Schema.Agree.fieldType?`).
-/

namespace RecordFilter

/-- The supertypes above a type, nearest first, up to one that has no supertype or whose supertype is
among those passed. -/
inductive Climb (parent? : String → Option String) : List String → String → List String → Prop
  | top {passed : List String} {name : String} (stop : ∀ p, parent? name = some p → p ∈ passed) :
      Climb parent? passed name []
  | up {passed above : List String} {name p : String} (parent : parent? name = some p)
      (new : p ∉ passed) (rest : Climb parent? (p :: passed) p above) :
      Climb parent? passed name (p :: above)

theorem Climb.unique {parent? : String → Option String} {passed above above' : List String}
    {name : String} (h : Climb parent? passed name above) (h' : Climb parent? passed name above') :
    above = above' := by
  induction h generalizing above' with
  | top stop =>
    cases h' with
    | top => rfl
    | up parent new => exact absurd (stop _ parent) new
  | up parent new _ ih =>
    cases h' with
    | top stop => exact absurd (stop _ parent) new
    | up parent' _ rest' =>
      have hp := Option.some.inj (parent.symm.trans parent')
      subst hp
      rw [ih rest']

namespace Schema

/-! ### The count of the steps -/

/-- The declarations of types that have not been passed. -/
def unpassed (s : Schema) (passed : List String) : List EntityType :=
  s.entities.filter fun e => e.name ∉ passed

theorem unpassed_cons (s : Schema) (name : String) (passed : List String) :
    s.unpassed (name :: passed) = (s.unpassed passed).filter fun e => e.name ≠ name := by
  unfold unpassed
  rw [List.filter_filter]
  refine List.filter_congr fun e _ => ?_
  simp [not_or]

/-- Only a declared type has a supertype. -/
theorem exists_entity_of_parent? {s : Schema} {name p : String} (h : s.parent? name = some p) :
    ∃ e ∈ s.entities, e.name = name := by
  unfold parent? entity? at h
  obtain ⟨e, he, -⟩ := Option.bind_eq_some_iff.mp h
  have hname := List.find?_some he
  exact ⟨e, List.mem_of_find?_eq_some he, by simpa using hname⟩

/-- A type that has a supertype leaves fewer types to pass. -/
theorem length_unpassed_cons_lt {s : Schema} {name p : String} {passed : List String}
    (h : s.parent? name = some p) (hnew : name ∉ passed) :
    (s.unpassed (name :: passed)).length < (s.unpassed passed).length := by
  obtain ⟨e, he, rfl⟩ := exists_entity_of_parent? h
  have hmem : e ∈ s.unpassed passed := List.mem_filter.mpr ⟨he, by simpa using hnew⟩
  rw [unpassed_cons, List.length_filter_lt_length_iff_exists]
  exact ⟨e, hmem, by simp⟩

/-- **As many steps as there are types to pass** are enough for a walk. -/
theorem climb_ancestors (s : Schema) : ∀ (steps : Nat) {passed : List String} {name : String},
    name ∉ passed → (s.unpassed passed).length ≤ steps →
      Climb s.parent? (name :: passed) name (s.ancestors steps (name :: passed) name)
  | 0, passed, name, hnew, hsteps => by
    refine .top fun p hp => ?_
    have hlt := length_unpassed_cons_lt hp hnew
    omega
  | steps + 1, passed, name, hnew, hsteps => by
    unfold ancestors
    split
    · next hnone =>
      refine .top fun p hp => ?_
      rw [hnone] at hp
      cases hp
    · next p hp =>
      split_ifs with hpassed
      · refine .top fun p' hp' => ?_
        rw [hp] at hp'
        cases hp'
        exact hpassed
      · have hlt := length_unpassed_cons_lt hp hnew
        exact .up hp hpassed (climb_ancestors s steps hpassed (by omega))

/-- **The hierarchy** is the type and all that a walk finds above it. -/
theorem climb_hierarchy (s : Schema) (name : String) :
    ∃ above, s.hierarchy name = name :: above ∧ Climb s.parent? [name] name above := by
  have hsteps : (s.unpassed []).length ≤ s.entities.length := List.length_filter_le _ _
  exact ⟨_, rfl, climb_ancestors s _ List.not_mem_nil hsteps⟩

/-- The supertypes alone decide over the hierarchy. -/
theorem hierarchy_of_parents {s s' : Schema} (h : ∀ name, s.parent? name = s'.parent? name)
    (name : String) : s.hierarchy name = s'.hierarchy name := by
  obtain ⟨above, heq, hclimb⟩ := s.climb_hierarchy name
  obtain ⟨above', heq', hclimb'⟩ := s'.climb_hierarchy name
  have hparents : s.parent? = s'.parent? := funext h
  rw [hparents] at hclimb
  rw [heq, heq', hclimb.unique hclimb']

/-! ### Schemas that declare the same -/

/-- Every type has the same fields and the same supertype in both schemas. -/
structure Agree (s s' : Schema) : Prop where
  fields : ∀ name, s.declaredFields name = s'.declaredFields name
  parent : ∀ name, s.parent? name = s'.parent? name

theorem Agree.refl (s : Schema) : s.Agree s := ⟨fun _ => rfl, fun _ => rfl⟩

theorem Agree.hierarchy {s s' : Schema} (h : s.Agree s') (name : String) :
    s.hierarchy name = s'.hierarchy name := hierarchy_of_parents h.parent name

theorem Agree.fieldType? {s s' : Schema} (h : s.Agree s') (owner field : String) :
    s.fieldType? owner field = s'.fieldType? owner field := by
  have hfields : s.declaredFields = s'.declaredFields := funext h.fields
  unfold Schema.fieldType?
  rw [h.hierarchy, hfields]

/-! ### Declared fields -/

theorem typeIn?_eq_none_iff {field : String} {ds : List FieldDecl} :
    typeIn? field ds = none ↔ ∀ d ∈ ds, d.name ≠ field := by
  rw [typeIn?, Option.map_eq_none_iff, List.find?_eq_none]
  simp

/-- A field has a type just if it is declared somewhere in the hierarchy. -/
theorem isSome_fieldType? {s : Schema} {owner field : String} :
    (s.fieldType? owner field).isSome ↔
      ∃ t ∈ s.hierarchy owner, ∃ d ∈ s.declaredFields t, d.name = field := by
  unfold Schema.fieldType? typeIn?
  simp [List.findSome?_isSome_iff]

end Schema

end RecordFilter

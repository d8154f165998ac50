import RecordFilter.Proofs.Keeping
import RecordFilter.Proofs.Meaning
import RecordFilter.Proofs.ValueTypes

/-!
# Conditions are well typed

A condition is well typed for an entity type if every field that is held against values has a type that
has values, and these belong to it (`Condition.WellTyped`). The type of a field is what the schema
declares at the end of its path, inherited fields included.

The backend of conditions finds its fields in the schema by itself, while the type for which a literal is
read comes from a cache, under the entity type of the last join. They fit together because every join
that a compilation remembers is one that its path leads to (`Join.Found`, `ends_resolve_typed`). This does
not depend on what the paths look like, so it holds whatever they are changed to before they are
resolved (`compile_wellTyped`).
-/

namespace RecordFilter

open Compilation

/-! ### Typed conditions -/

/-- The field may be held against the values: its type has values, and these are some of them. -/
def FieldRef.Takes (s : Schema) (root : String) (f : FieldRef) (vs : List Value) : Prop :=
  ∃ t, s.typeAlong? root (f.path ++ [f.name]) = some t ∧ s.HasValues t ∧
    ∀ v ∈ vs, v.BelongsTo s t

/-- **A well typed condition** on the records of an entity type. -/
def Condition.WellTyped (s : Schema) (root : String) : Condition → Prop
  | compare f _ v => f.Takes s root [v]
  | test _ _ => True
  | like _ _ _ => True
  | member f vs => f.Takes s root vs
  | between f low high => f.Takes s root [low, high]
  | not c => c.WellTyped s root
  | and l r => l.WellTyped s root ∧ r.WellTyped s root
  | or l r => l.WellTyped s root ∧ r.WellTyped s root

theorem Condition.wellTyped_combine {s : Schema} {root : String} {op : Connective} {l r : Condition} :
    (Condition.combine op l r).WellTyped s root ↔ l.WellTyped s root ∧ r.WellTyped s root := by
  cases op <;> rfl

mutual

/-- A group becomes a well typed condition if all of its predicates do. -/
theorem Group.wellTyped_of_becomes {s : Schema} {root : String} : ∀ (g : Group) {cond : Condition},
    g.Becomes (fun _ c => c.WellTyped s root) cond → cond.WellTyped s root
  | .one clause, _, h => Group.wellTyped_of_clauseBecomes clause h
  | .join group op clause, _, h => by
    obtain ⟨l, r, hl, hr, rfl⟩ := h
    have hleft := Group.wellTyped_of_becomes group hl
    have hright := Group.wellTyped_of_clauseBecomes clause hr
    exact Condition.wellTyped_combine.mpr ⟨hleft, hright⟩

theorem Group.wellTyped_of_clauseBecomes {s : Schema} {root : String} :
    ∀ (clause : Clause) {cond : Condition},
      Group.clauseBecomes (fun _ c => c.WellTyped s root) clause cond → cond.WellTyped s root
  | .predicate _, _, h => h
  | .group group, _, h => Group.wellTyped_of_becomes group h

end

/-! ### Joins that are found -/

/-- The path of the join leads from the root to its entity type. -/
def Join.Found (s : Schema) (root : String) (j : Join) : Prop :=
  s.entityAlong? root j.path = some j.entity

/-- All joins that are remembered are found, and the cache knows nothing wrong. -/
structure Placed (s : Schema) (root : String) (p : Progress (List JoinRecord) Join) : Prop where
  found : ∀ trail j, p.joins.lookup trail = some j → j.Found s root
  coherent : p.cache.Coherent s

/-- The type is that of the field at the end of the path on which it has been found. -/
def ResolvedPath.Typed (s : Schema) (root : String) (r : ResolvedPath Join FieldRef) : Prop :=
  s.typeAlong? root (r.field.path ++ [r.field.name]) = some r.type

section resolution

variable {s : Schema} {root : String} {p : Progress (List JoinRecord) Join}

/-- The join that is made behind a join that is found. -/
theorem found_of_makeJoin {j k : Join} {segment : String} {joins joins' : List JoinRecord}
    (hj : j.Found s root) (h : Condition.makeJoin s j segment joins = (some k, joins')) :
    k.Found s root := by
  unfold Condition.makeJoin at h
  split at h
  · cases h
  · next entity htarget =>
    cases h
    unfold Join.Found at hj ⊢
    rw [Schema.entityAlong?_concat, hj]
    exact htarget

theorem Placed.remember (h : Placed s root p) {j : Join} (hj : j.Found s root) (trail : String)
    (joins : List JoinRecord) :
    Placed s root { p with backend := joins, joins := (trail, j) :: p.joins } := by
  refine ⟨fun t k hk => ?_, h.coherent⟩
  rw [List.lookup_cons] at hk
  split at hk
  · cases hk
    exact hj
  · exact h.found t k hk

/-- **A relationship** leads from a join that is found to one that is found. -/
theorem ends_joinOnce_found (h : Placed s root p) {j : Join} (hj : j.Found s root)
    (path trail segment : String) :
    ((Condition.backend s root).joinOnce path trail j segment).Ends p
      (fun k q => k.Found s root ∧ Placed s root q) (Placed s root) := by
  refine Backend.ends_joinOnce (fun k hk => ⟨h.found trail k hk, h⟩) (fun k joins _ hmake => ?_)
    fun joins _ _ => ⟨h.found, h.coherent⟩
  have hk := found_of_makeJoin hj hmake
  exact ⟨hk, h.remember hk trail joins⟩

/-- **A path** is resolved to a field with its declared type. -/
theorem ends_resolve_typed (h : Placed s root p) (path : String) :
    ((Condition.backend s root).resolve path).Ends p
      (fun r q => r.Typed s root ∧ Placed s root q) (Placed s root) := by
  have hroot : (Condition.backend s root).root.Found s root := rfl
  have hjoins := Backend.ends_joinAlong (fun _ j => j.Found s root) (fun _ => Placed s root)
    (fun _ => Placed s root)
    (fun trail segment j _ q hj hq => ends_joinOnce_found hq hj path (extendTrail trail segment) segment)
    (AttributePath.ofText path).relations "" [] hroot h
  have hmid : ((Condition.backend s root).joinAlong path "" (Condition.backend s root).root
      (AttributePath.ofText path).relations).Ends p (fun js q =>
        (js.getLast?.getD (Condition.backend s root).root).Found s root ∧ Placed s root q)
      (Placed s root) :=
    hjoins.mono (fun _ _ ⟨⟨_, hfound⟩, hplaced⟩ => ⟨hfound, hplaced⟩)
      fun _ ⟨_, _, hplaced⟩ => hplaced
  refine Backend.ends_resolve hmid (fun _ _ hq => hq.2)
    (fun _ q owner hq => ⟨hq.2.found, FieldCache.lookup_coherent hq.2.coherent owner _⟩) ?_
  intro js q f t hq hf ht
  obtain ⟨hfound, hplaced⟩ := hq
  refine ⟨?_, hplaced.found, FieldCache.lookup_coherent hplaced.coherent _ _⟩
  obtain ⟨_, -, rfl⟩ := Option.map_eq_some_iff.mp hf
  -- The backend has found the field under the entity type of the last join, and the cache is asked for
  -- it there too.
  have hcache := FieldCache.lookup_fst hplaced.coherent
    (js.getLast?.getD (Condition.backend s root).root).entity (AttributePath.ofText path).field
  show s.typeAlong? root (_ ++ [_]) = some t
  rw [Schema.typeAlong?_concat, hfound, Option.bind_some, ← hcache]
  exact ht

end resolution

/-! ### Predicates -/

namespace Compiler

variable {mapPath : String → String} {s : Schema} {root : String}

/-- All operands are read as values of the type. -/
theorem belongsTo_of_mapM {t : FieldType} {field : String} {os : List Operand} {vs : List Value}
    (h : (os.mapM fun o => Registry.builtIn.convertTo s t field o.text) = .ok vs) :
    (∀ v ∈ vs, v.BelongsTo s t) ∧ (os ≠ [] → s.HasValues t) := by
  refine ⟨fun v hv => ?_, fun hne => ?_⟩
  · obtain ⟨o, -, ho⟩ := exists_of_mapM_ok h v hv
    exact Registry.belongsTo_of_read (Registry.convertTo_eq_ok.mp ho)
  · obtain ⟨o, os, rfl⟩ := List.exists_cons_of_ne_nil hne
    rw [List.mapM_cons] at h
    obtain ⟨v, hv, -⟩ := bind_eq_ok.mp h
    exact Registry.hasValues_of_read (Registry.convertTo_eq_ok.mp hv)

/-- **The condition of a predicate is well typed** if its field has been found with its type; a list of
operands must not be empty. -/
theorem wellTyped_of_conditionFor {p : Predicate} {r : ResolvedPath Join FieldRef} {cond : Condition}
    (hr : r.Typed s root) (harity : p.operator.arity.Takes p.operands)
    (h : conditionFor ⟨.builtIn, mapPath⟩ s r p = .ok cond) : cond.WellTyped s root := by
  cases conditionOf_of_conditionFor h with
  | compare operator last value =>
    have hread := Registry.convertTo_eq_ok.mp value
    refine ⟨r.type, hr, Registry.hasValues_of_read hread, ?_⟩
    simpa using Registry.belongsTo_of_read hread
  | test => trivial
  | like => trivial
  | @member negated vs operator values =>
    obtain ⟨hall, hvalues⟩ := belongsTo_of_mapM values
    have hne : p.operands ≠ [] := by
      rw [operator] at harity
      exact harity
    have htakes : r.field.Takes s root vs := ⟨r.type, hr, hvalues hne, hall⟩
    cases negated with
    | true => exact htakes
    | false => exact htakes
  | between operator bounds lowValue highValue =>
    have hlow := Registry.convertTo_eq_ok.mp lowValue
    have hhigh := Registry.convertTo_eq_ok.mp highValue
    refine ⟨r.type, hr, Registry.hasValues_of_read hlow, ?_⟩
    simpa using ⟨Registry.belongsTo_of_read hlow, Registry.belongsTo_of_read hhigh⟩

/-- **Each predicate** becomes a well typed condition, and the joins stay found. -/
theorem keptBy_wellTyped (mapPath : String → String) (s : Schema) (root : String)
    {all : List Predicate} (hall : ∀ p ∈ all, p.operator.arity.Takes p.operands) :
    KeptBy ⟨.builtIn, mapPath⟩ s root all (fun _ => Placed s root)
      (fun _ cond => cond.WellTyped s root) := by
  intro done p st hp hst
  have harity := hall p (hp.subset (List.mem_append_right _ (List.mem_singleton_self p)))
  have hends := ends_resolve_typed hst (mapPath p.path)
  have hrun := runFrom_reducePredicate ⟨.builtIn, mapPath⟩ s root p st
  rcases hr : ((Condition.backend s root).resolve (mapPath p.path)).runFrom st with ⟨e | r, q⟩
  · rw [hr] at hrun
    rw [hrun]
    exact ⟨hends.error hr, nofun⟩
  · rw [hr] at hrun
    obtain ⟨htyped, hplaced⟩ := hends.ok hr
    rw [hrun]
    exact ⟨hplaced, fun cond hcond => wellTyped_of_conditionFor htyped harity hcond⟩

end Compiler

/-! ### Texts -/

/-- **What a text compiles to is well typed**, whatever its paths are changed to, if the cache knows
nothing wrong of the schema. -/
theorem compile_wellTyped {mapPath : String → String} {s : Schema} {root text : String}
    {old : List JoinRecord} {cache : FieldCache} {cond : Condition} (hcache : cache.Coherent s)
    (h : (Compiler.compile ⟨.builtIn, mapPath⟩ (Condition.backend s root) old cache text).result =
      .ok cond) : cond.WellTyped s root := by
  obtain ⟨g, st, hg, hrun, -⟩ := Compiler.compile_ok h
  have harity : ∀ p ∈ g.predicates, p.operator.arity.Takes p.operands := fun p hp =>
    (wellFormed_of_parse hg p hp).arity
  have hkept := Compiler.keptBy_wellTyped mapPath s root harity
  have hstart : Placed s root ⟨old, [], cache⟩ := ⟨nofun, hcache⟩
  obtain ⟨-, -, hbecomes⟩ := reduceGroup_built hkept (List.prefix_refl _) hstart hrun
  exact g.wellTyped_of_becomes hbecomes

/-- The name of an author is declared for persons, and a book is in one of two states. -/
theorem compile_wellTyped_inherited :
    let s : Schema := ⟨⟨0⟩, [⟨"Person", none, [⟨"name", .text⟩]⟩,
      ⟨"Author", some "Person", [⟨"books", .collection "Book"⟩]⟩,
      ⟨"Book", none, [⟨"state", .enum "State"⟩, ⟨"author", .entity "Author"⟩]⟩],
      [("State", ["PRINTED", "SOLD"])]⟩
    let text := "author.name in ('Ada', 'Eve') && state != 'SOLD'"
    let cond := Condition.and (.member ⟨["author"], "name", some 0⟩ [.text "Ada", .text "Eve"])
      (.compare ⟨[], "state", none⟩ .notEqual (.enum "State" "SOLD"))
    (Compiler.compile ⟨.builtIn, id⟩ (Condition.backend s "Book") [] .empty text).result = .ok cond ∧
      cond.WellTyped s "Book" := by
  intro s text cond
  have h : (Compiler.compile ⟨.builtIn, id⟩ (Condition.backend s "Book") [] .empty text).result =
      .ok cond := by
    decide +kernel
  exact ⟨h, compile_wellTyped (FieldCache.empty_coherent s) h⟩

end RecordFilter

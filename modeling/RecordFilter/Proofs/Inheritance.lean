import RecordFilter.Proofs.Hierarchy
import RecordFilter.Proofs.Reduction

/-!
# Filters of a type and filters of its subtypes

A type that declares no field that its supertype has already can stand in for the supertype: every
filter that compiles for the supertype compiles for the type, to the same condition with the same joins
(`compile_of_supertype`).

The hierarchy of the type is the type and then the hierarchy of the supertype, in which the type itself
may stand once more if there is a circle (`Schema.hierarchy_of_parent?`); so every field of the supertype
has its type in the subtype too (`Schema.Covers`).  From there on a compilation that succeeds is followed
step by step: `Carries` says that a success is carried over to another compilation, and every way of
building a compilation keeps it.
-/

namespace RecordFilter

/-! ### The hierarchy of a subtype -/

/-- If what stands above the child has been passed, then a walk for which the child has been passed as
well finds the same types without the child. -/
theorem Climb.without {parent? : String → Option String} {child : String} {passed above : List String}
    {name : String} (h : Climb parent? passed name above)
    (hchild : ∀ p, parent? child = some p → p ∈ passed) {passed' : List String}
    (hpassed : ∀ t, t ∈ passed' ↔ t = child ∨ t ∈ passed) :
    Climb parent? passed' name (above.filter (· ≠ child)) := by
  induction h generalizing passed' with
  | top stop => exact .top fun p hp => (hpassed p).mpr (Or.inr (stop p hp))
  | @up passed above name p parent new rest ih =>
    by_cases hp : p = child
    · -- above the child stands what has been passed, so the walk ends there
      subst hp
      cases rest with
      | top =>
        rw [List.filter_cons_of_neg (by simp)]
        refine .top fun q hq => (hpassed q).mpr (Or.inl ?_)
        exact Option.some.inj (hq.symm.trans parent)
      | up parent' new' _ => exact absurd (List.mem_cons_of_mem p (hchild _ parent')) new'
    · have hnew : p ∉ passed' := by
        rw [hpassed]
        exact not_or.mpr ⟨hp, new⟩
      have hpassed' : ∀ t, t ∈ p :: passed' ↔ t = child ∨ t ∈ p :: passed := by
        intro t
        rw [List.mem_cons, List.mem_cons, hpassed]
        exact or_left_comm
      rw [List.filter_cons_of_pos (by simpa using hp)]
      exact .up parent hnew (ih (fun q hq => List.mem_cons_of_mem p (hchild q hq)) hpassed')

namespace Schema

/-- **The hierarchy of a subtype**: the type and the hierarchy of its supertype. -/
theorem hierarchy_of_parent? {s : Schema} {child parent : String}
    (h : s.parent? child = some parent) :
    s.hierarchy child = child :: (s.hierarchy parent).filter (· ≠ child) := by
  obtain ⟨above, habove, hclimb⟩ := s.climb_hierarchy child
  obtain ⟨above', habove', hclimb'⟩ := s.climb_hierarchy parent
  rw [habove, habove']
  refine congrArg (child :: ·) (hclimb.unique ?_)
  have hchild : ∀ p, s.parent? child = some p → p ∈ [parent] := by
    intro p hp
    rw [List.mem_singleton]
    exact Option.some.inj (hp.symm.trans h)
  by_cases hp : parent = child
  · subst hp
    cases hclimb' with
    | top stop =>
      rw [List.filter_cons_of_neg (by simp)]
      exact .top stop
    | up parent' new' _ => exact absurd (hchild _ parent') new'
  · rw [List.filter_cons_of_pos (by simpa using hp)]
    refine .up h (by simpa using hp) (hclimb'.without hchild ?_)
    simp [or_comm]

/-- Every field of the one type is a field of the other, of the same type. -/
def Covers (s : Schema) (a b : String) : Prop :=
  ∀ field t, s.fieldType? a field = some t → s.fieldType? b field = some t

theorem Covers.refl (s : Schema) (a : String) : s.Covers a a := fun _ _ h => h

theorem Covers.target? {s : Schema} {a b : String} (h : s.Covers a b) {segment entity : String}
    (ht : s.target? a segment = some entity) : s.target? b segment = some entity := by
  obtain ⟨t, hf, htarget⟩ := Option.bind_eq_some_iff.mp ht
  rw [Schema.target?, h segment t hf]
  exact htarget

/-- No field of the child has a name that is declared in the hierarchy of the parent. -/
def DeclaresApart (s : Schema) (child parent : String) : Prop :=
  ∀ d ∈ s.declaredFields child, ∀ t ∈ s.hierarchy parent, ∀ d' ∈ s.declaredFields t, d'.name ≠ d.name

/-- A type without the field may be left out of the search for it. -/
theorem findSome?_filter_ne {α : Type} {f : String → Option α} {a : String} (h : f a = none)
    (ts : List String) : (ts.filter (· ≠ a)).findSome? f = ts.findSome? f := by
  induction ts with
  | nil => rfl
  | cons t ts ih =>
    by_cases ht : t = a
    · rw [List.filter_cons_of_neg (by simpa using ht), List.findSome?_cons, ht, h, ih]
    · rw [List.filter_cons_of_pos (by simpa using ht), List.findSome?_cons, List.findSome?_cons, ih]

/-- **A type that declares its fields apart has all fields of its supertype.** -/
theorem covers_of_declaresApart {s : Schema} {child parent : String}
    (hparent : s.parent? child = some parent) (hnew : s.DeclaresApart child parent) :
    s.Covers parent child := by
  intro field t ht
  -- the field is declared above, so the child does not declare it
  have hdeclared := isSome_fieldType?.mp (by rw [ht]; rfl : (s.fieldType? parent field).isSome)
  obtain ⟨u, hu, d', hd', hname⟩ := hdeclared
  have hnone : typeIn? field (s.declaredFields child) = none := by
    refine typeIn?_eq_none_iff.mpr fun d hd hd_name => hnew d hd u hu d' hd' ?_
    rw [hname, hd_name]
  rw [fieldType?, hierarchy_of_parent? hparent, List.findSome?_cons, hnone]
  dsimp only
  rw [findSome?_filter_ne hnone]
  exact ht

end Schema

/-! ### A success that is carried over -/

open Compilation

/-- Joins with the same number behind the same relationships, of which the second has the fields of the
first. -/
structure Join.CoveredBy (s : Schema) (j j' : Join) : Prop where
  id : j.id = j'.id
  path : j.path = j'.path
  entity : s.Covers j.entity j'.entity

/-- The same joins made, remembered under the same trails, and caches that know nothing wrong. -/
structure Progress.CoveredBy (s : Schema) (p p' : Progress (List JoinRecord) Join) : Prop where
  backend : p.backend = p'.backend
  joins : List.Forall₂ (fun e e' => e.1 = e'.1 ∧ e.2.CoveredBy s e'.2) p.joins p'.joins
  coherent : p.cache.Coherent s
  coherent' : p'.cache.Coherent s

/-- Wherever the first compilation succeeds, the second one does, with a related result. -/
def Carries (s : Schema) {α α' : Type} (R : α → α' → Prop)
    (x : Compilation (List JoinRecord) Join α) (x' : Compilation (List JoinRecord) Join α') : Prop :=
  ∀ p p' a q, p.CoveredBy s p' → x.runFrom p = (.ok a, q) →
    ∃ a' q', x'.runFrom p' = (.ok a', q') ∧ R a a' ∧ q.CoveredBy s q'

namespace Carries

variable {s : Schema} {α α' β β' : Type} {R : α → α' → Prop} {R' : β → β' → Prop}

theorem pure {a : α} {a' : α'} (h : R a a') :
    Carries s R (pure a : Compilation _ _ α) (pure a' : Compilation _ _ α') := by
  intro p p' b q hp hb
  cases hb
  exact ⟨a', p', rfl, h, hp⟩

theorem bind {x : Compilation (List JoinRecord) Join α} {x' : Compilation (List JoinRecord) Join α'}
    {f : α → Compilation (List JoinRecord) Join β} {f' : α' → Compilation (List JoinRecord) Join β'}
    (hx : Carries s R x x') (hf : ∀ a a', R a a' → Carries s R' (f a) (f' a')) :
    Carries s R' (x >>= f) (x' >>= f') := by
  intro p p' b q hp hb
  rw [runFrom_bind] at hb
  rcases hr : x.runFrom p with ⟨e | a, q₁⟩
  · rw [hr] at hb
    cases hb
  · rw [hr] at hb
    obtain ⟨a', q₁', hr', ha, hq₁⟩ := hx p p' a q₁ hp hr
    rw [runFrom_bind_ok hr']
    exact hf a a' ha q₁ q₁' b q hq₁ hb

/-- What is found for the first is found for the second. -/
theorem resolved (path segment : String) {a : Option α} {a' : Option α'}
    (h : ∀ b, a = some b → ∃ b', a' = some b' ∧ R b b') :
    Carries s R (resolved path segment a : Compilation (List JoinRecord) Join α)
      (resolved path segment a') := by
  intro p p' b q hp hb
  cases a with
  | none => cases hb
  | some a =>
    cases hb
    obtain ⟨b', rfl, hb'⟩ := h _ rfl
    exact ⟨b', p', rfl, hb', hp⟩

/-- The type of a field is known of both. -/
theorem fieldType? {owner owner' : String} (h : s.Covers owner owner') (field : String) :
    Carries s (fun a a' => ∀ t, a = some t → ∃ t', a' = some t' ∧ t = t')
      (fieldType? s owner field) (fieldType? s owner' field) := by
  intro p p' a q hp ha
  rw [runFrom_fieldType?, FieldCache.lookup_fst hp.coherent] at ha
  obtain ⟨hok, rfl⟩ := Prod.mk.inj ha
  refine ⟨_, _, runFrom_fieldType? s owner' field p', ?_, hp.backend, hp.joins,
    FieldCache.lookup_coherent hp.coherent owner field,
    FieldCache.lookup_coherent hp.coherent' owner' field⟩
  rintro t rfl
  rw [FieldCache.lookup_fst hp.coherent']
  exact ⟨t, h field t (Except.ok.inj hok), rfl⟩

/-- A condition that is built is built. -/
theorem build (cond : Condition) :
    Carries s Eq (build (Pure.pure cond) : Compilation (List JoinRecord) Join Condition)
      (build (Pure.pure cond)) := by
  intro p p' c q hp hc
  cases hc
  exact ⟨cond, p', rfl, rfl, hp⟩

end Carries

/-! ### Paths -/

/-- A trail is remembered by both or by none. -/
theorem Progress.CoveredBy.lookup {s : Schema} {p p' : Progress (List JoinRecord) Join}
    (h : p.CoveredBy s p') (trail : String) :
    (p.joins.lookup trail = none ∧ p'.joins.lookup trail = none) ∨
      ∃ j j', p.joins.lookup trail = some j ∧ p'.joins.lookup trail = some j' ∧ j.CoveredBy s j' := by
  have hj := h.joins
  generalize p.joins = js at hj
  generalize p'.joins = js' at hj
  induction hj with
  | nil => exact Or.inl ⟨rfl, rfl⟩
  | @cons e e' js js' he _ ih =>
    obtain ⟨t, j⟩ := e
    obtain ⟨t', j'⟩ := e'
    obtain ⟨rfl, hj⟩ := he
    rw [List.lookup_cons, List.lookup_cons]
    cases trail == t with
    | true => exact Or.inr ⟨j, j', rfl, rfl, hj⟩
    | false => exact ih

section paths

variable {s : Schema} {parent child : String}

/-- A relationship of the first leads on from the second, by the same join to the same entity type. -/
theorem carries_joinOnce (path trail segment : String) {j j' : Join} (hj : j.CoveredBy s j') :
    Carries s (Join.CoveredBy s) ((Condition.backend s parent).joinOnce path trail j segment)
      ((Condition.backend s child).joinOnce path trail j' segment) := by
  intro p p' k q hp hk
  rcases hp.lookup trail with ⟨hnone, hnone'⟩ | ⟨known, known', hsome, hsome', hknown⟩
  · rw [runFrom_joinOnce hnone] at hk
    rw [runFrom_joinOnce hnone']
    unfold Condition.makeJoin at hk ⊢
    cases ht : s.target? j.entity segment with
    | none =>
      rw [ht] at hk
      cases hk
    | some entity =>
      rw [ht] at hk
      rw [hj.entity.target? ht, ← hp.backend, ← hj.id, ← hj.path]
      cases hk
      have hnew : (⟨some p.backend.length, entity, j.path ++ [segment]⟩ : Join).CoveredBy s
          ⟨some p.backend.length, entity, j.path ++ [segment]⟩ := ⟨rfl, rfl, .refl s entity⟩
      exact ⟨_, _, rfl, hnew, rfl, .cons ⟨rfl, hnew⟩ hp.joins, hp.coherent, hp.coherent'⟩
  · unfold Backend.joinOnce at hk ⊢
    rw [runFrom_bind_ok (runFrom_joinAt? trail p), hsome] at hk
    rw [runFrom_bind_ok (runFrom_joinAt? trail p'), hsome']
    cases hk
    exact ⟨known', p', rfl, hknown, hp⟩

theorem carries_joinAlong (path : String) (rest : List String) :
    ∀ (trail : String) {j j' : Join}, j.CoveredBy s j' →
      Carries s (List.Forall₂ (Join.CoveredBy s))
        ((Condition.backend s parent).joinAlong path trail j rest)
        ((Condition.backend s child).joinAlong path trail j' rest) := by
  induction rest with
  | nil => exact fun _ _ _ _ => .pure .nil
  | cons segment rest ih =>
    intro trail j j' hj
    unfold Backend.joinAlong
    refine (carries_joinOnce path _ segment hj).bind fun k k' hk => ?_
    refine (ih _ hk).bind fun ks ks' hks => ?_
    exact .pure (.cons hk hks)

/-- The last of the joins, or the root. -/
theorem coveredBy_getLast? {root root' : Join} (h : root.CoveredBy s root') {js js' : List Join}
    (hjs : List.Forall₂ (Join.CoveredBy s) js js') :
    (js.getLast?.getD root).CoveredBy s (js'.getLast?.getD root') := by
  induction hjs generalizing root root' with
  | nil => exact h
  | cons hj _ ih =>
    rw [List.getLast?_cons, List.getLast?_cons]
    exact ih hj

/-- A field of the first is the same field of the second. -/
theorem Condition.exists_takeField {j j' : Join} (hj : j.CoveredBy s j') (name : String) (f : FieldRef)
    (hf : takeField s j name = some f) : ∃ f', takeField s j' name = some f' ∧ f = f' := by
  obtain ⟨t, ht, rfl⟩ := Option.map_eq_some_iff.mp hf
  refine ⟨_, Option.map_eq_some_iff.mpr ⟨t, hj.entity name t ht, rfl⟩, ?_⟩
  rw [hj.id, hj.path]

/-- Resolved to the same field of the same type; the entity type that the field is taken from may
differ. -/
structure ResolvedPath.SameField (r r' : ResolvedPath Join FieldRef) : Prop where
  field : r.field = r'.field
  name : r.name = r'.name
  type : r.type = r'.type

/-- **A path that is resolved from the supertype is resolved from the type.** -/
theorem carries_resolve (h : s.Covers parent child) (path : String) :
    Carries s ResolvedPath.SameField ((Condition.backend s parent).resolve path)
      ((Condition.backend s child).resolve path) := by
  have hroot : (Condition.backend s parent).root.CoveredBy s (Condition.backend s child).root :=
    ⟨rfl, rfl, h⟩
  unfold Backend.resolve
  refine (carries_joinAlong path _ "" hroot).bind fun js js' hjs => ?_
  have hlast := coveredBy_getLast? hroot hjs
  refine (Carries.resolved path _ (Condition.exists_takeField hlast _)).bind fun f f' hf => ?_
  refine (Carries.fieldType? hlast.entity _).bind fun t t' ht => ?_
  refine (Carries.resolved path _ ht).bind fun t t' ht => ?_
  exact .pure ⟨hf, rfl, ht⟩

end paths

/-! ### Groups -/

section groups

variable (c : Compiler) {s : Schema} {parent child : String}

/-- The condition of a predicate depends on the field, its name and its type. -/
theorem Compiler.conditionFor_of_sameField {r r' : ResolvedPath Join FieldRef} (h : r.SameField r')
    (p : Predicate) : c.conditionFor s r p = c.conditionFor s r' p := by
  obtain ⟨field, owner, name, type, joins⟩ := r
  obtain ⟨field', owner', name', type', joins'⟩ := r'
  obtain ⟨rfl, rfl, rfl⟩ := h
  rfl

theorem carries_reducePredicate (h : s.Covers parent child) (p : Predicate) :
    Carries s Eq (c.reducePredicate (Condition.backend s parent) p)
      (c.reducePredicate (Condition.backend s child) p) := by
  intro st st' cond q hst hcond
  rw [Compiler.runFrom_reducePredicate] at hcond ⊢
  rcases hr : ((Condition.backend s parent).resolve (c.mapPath p.path)).runFrom st with ⟨e | r, st₁⟩
  · rw [hr] at hcond
    cases hcond
  · rw [hr] at hcond
    obtain ⟨r', st₁', hr', hsame, hst₁⟩ := carries_resolve h (c.mapPath p.path) st st' r st₁ hst hr
    obtain ⟨hok, rfl⟩ := Prod.mk.inj hcond
    rw [hr']
    exact ⟨cond, st₁', by rw [← hok, c.conditionFor_of_sameField hsame], rfl, hst₁⟩

mutual

/-- **A group that is reduced for the supertype is reduced for the type**, to the same condition. -/
theorem carries_reduceGroup (h : s.Covers parent child) : ∀ g : Group,
    Carries s Eq (c.reduceGroup (Condition.backend s parent) g)
      (c.reduceGroup (Condition.backend s child) g)
  | .one clause => by
    unfold Compiler.reduceGroup
    exact carries_reduceClause h clause
  | .join group op clause => by
    unfold Compiler.reduceGroup
    refine (carries_reduceGroup h group).bind fun l l' hl => ?_
    refine (carries_reduceClause h clause).bind fun r r' hr => ?_
    subst hl hr
    exact Carries.build (.combine op l r)

theorem carries_reduceClause (h : s.Covers parent child) : ∀ clause : Clause,
    Carries s Eq (c.reduceClause (Condition.backend s parent) clause)
      (c.reduceClause (Condition.backend s child) clause)
  | .predicate p => by
    unfold Compiler.reduceClause
    exact carries_reducePredicate c h p
  | .group group => by
    unfold Compiler.reduceClause
    exact carries_reduceGroup h group

end

end groups

/-! ### Texts -/

/-- **A type stands in for its supertype.**  If the type declares no field that the hierarchy of its
supertype declares, whether or not there are circles or types that are not declared in it, then every
text that compiles for the supertype compiles for the type, to the same condition and with the same joins
made. -/
theorem compile_of_supertype (c : Compiler) {s : Schema} {parent child : String}
    (hparent : s.parent? child = some parent) (hnew : s.DeclaresApart child parent)
    {cache cache' : FieldCache} (hc : cache.Coherent s) (hc' : cache'.Coherent s)
    {old : List JoinRecord} {text : String} {cond : Condition}
    (h : (c.compile (Condition.backend s parent) old cache text).result = .ok cond) :
    (c.compile (Condition.backend s child) old cache' text).result = .ok cond ∧
      (c.compile (Condition.backend s child) old cache' text).backend =
        (c.compile (Condition.backend s parent) old cache text).backend := by
  obtain ⟨g, st, hg, hrun, hparts⟩ := Compiler.compile_ok h
  have hstart : (⟨old, [], cache⟩ : Progress (List JoinRecord) Join).CoveredBy s ⟨old, [], cache'⟩ :=
    ⟨rfl, .nil, hc, hc'⟩
  obtain ⟨cond', st', hrun', rfl, hst⟩ :=
    carries_reduceGroup c (Schema.covers_of_declaresApart hparent hnew) g _ _ _ _ hstart hrun
  rw [hparts, Compiler.compile, hg]
  dsimp only
  rw [Compiler.reduce_eq, hrun']
  exact ⟨rfl, hst.backend.symm⟩

/-- A novel is a book; above the books the walk goes round in a circle, and the authors extend a type
that is not declared. -/
theorem compile_of_supertype_circle :
    let s : Schema := ⟨⟨0⟩, [⟨"Novel", some "Book", [⟨"genre", .text⟩]⟩,
      ⟨"Book", some "Item", [⟨"pages", .integer .w32⟩, ⟨"author", .entity "Author"⟩]⟩,
      ⟨"Item", some "Book", [⟨"price", .integer .w32⟩]⟩,
      ⟨"Author", some "Person", [⟨"name", .text⟩]⟩], []⟩
    let text := "author.name = 'Ada' && pages > 3 && price <= 20"
    let cond := Condition.and
      (.and (.compare ⟨["author"], "name", some 0⟩ .equal (.text "Ada"))
        (.compare ⟨[], "pages", none⟩ .greater (.integer .w32 3)))
      (.compare ⟨[], "price", none⟩ .lessOrEqual (.integer .w32 20))
    s.parent? "Novel" = some "Book" ∧ s.hierarchy "Book" = ["Book", "Item"] ∧
      s.DeclaresApart "Novel" "Book" ∧
      (Compiler.standard.compile (Condition.backend s "Book") [] .empty text).result = .ok cond ∧
      (Compiler.standard.compile (Condition.backend s "Novel") [] .empty text).result = .ok cond ∧
        (Compiler.standard.compile (Condition.backend s "Novel") [] .empty text).backend =
          (Compiler.standard.compile (Condition.backend s "Book") [] .empty text).backend := by
  intro s text cond
  have hparent : s.parent? "Novel" = some "Book" := by decide
  have hnew : s.DeclaresApart "Novel" "Book" := by
    unfold Schema.DeclaresApart
    decide
  have hempty := FieldCache.empty_coherent s
  have h : (Compiler.standard.compile (Condition.backend s "Book") [] .empty text).result =
      .ok cond := by
    decide +kernel
  exact ⟨hparent, by decide, hnew, h, compile_of_supertype .standard hparent hnew hempty hempty h⟩

end RecordFilter

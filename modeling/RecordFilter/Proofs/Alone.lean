import RecordFilter.Proofs.Sessions

/-!
# Predicates on their own

What a predicate becomes depends on the schema and not on what has been compiled before it, up to the
number of the join that its field is taken from.  `Schema.resolve` resolves a path without any joins, and
`Compiler.conditionAlone` is the condition of a predicate that follows; whatever the progress of a
compilation, the predicate becomes that condition or fails as it does alone (`reducePredicate_alone`).

So a group can be reduced if and only if each of its predicates can be reduced alone
(`reduceGroup_ok_iff`).
-/

namespace RecordFilter

open Compilation

/-! ### Without joins -/

def FieldRef.unjoined (f : FieldRef) : FieldRef := { f with join := none }

/-- The condition without the numbers of joins. -/
def Condition.unjoined : Condition → Condition := mapFields FieldRef.unjoined

def ResolvedPath.unjoined (r : ResolvedPath Join FieldRef) : ResolvedPath Join FieldRef :=
  { r with field := r.field.unjoined, joins := [] }

theorem Condition.unjoined_combine (op : Connective) (l r : Condition) :
    (combine op l r).unjoined = combine op l.unjoined r.unjoined := by
  cases op <;> rfl

/-- A path in a schema: its field with the declared type, or the first segment that leads nowhere. -/
def Schema.resolve (s : Schema) (root path : String) :
    Except CompileError (ResolvedPath Join FieldRef) :=
  let p := AttributePath.ofText path
  match s.entityAlong? root p.relations with
  | none =>
    .error (.unresolved path ((p.relations.drop (s.navigable root p.relations).length).headD ""))
  | some owner =>
    match s.fieldType? owner p.field with
    | none => .error (.unresolved path p.field)
    | some t => .ok ⟨⟨p.relations, p.field, none⟩, owner, p.field, t, []⟩

/-- With a coherent cache a path is resolved as the schema says. -/
theorem Resolution.eq_resolve {s : Schema} {root path : String} {cache : FieldCache} {id : Option Nat}
    {r : Except CompileError (ResolvedPath Join FieldRef)} (hc : cache.Coherent s)
    (h : Resolution s root path cache id r) : r.map ResolvedPath.unjoined = s.resolve root path := by
  unfold Schema.resolve
  dsimp only
  cases h with
  | found entity declared known =>
    rw [FieldCache.lookup_fst hc] at known
    rw [entity]
    dsimp only
    rw [known]
    rfl
  | @astray x more at_ =>
    have hnone : s.entityAlong? root (AttributePath.ofText path).relations = none := by
      cases he : s.entityAlong? root (AttributePath.ofText path).relations with
      | none => rfl
      | some e =>
        rw [Schema.navigable_of_entityAlong? he] at at_
        simp at at_
    have hdrop : (AttributePath.ofText path).relations.drop
        (s.navigable root (AttributePath.ofText path).relations).length = x :: more :=
      (congrArg (List.drop _) at_).trans List.drop_left
    rw [hnone]
    dsimp only
    rw [hdrop]
    rfl
  | noField entity unknown =>
    rw [FieldCache.lookup_fst hc, or_self] at unknown
    rw [entity]
    dsimp only
    rw [unknown]
    rfl

namespace Compiler

theorem conditionFor_unjoined (c : Compiler) (s : Schema) (r : ResolvedPath Join FieldRef)
    (p : Predicate) :
    (c.conditionFor s r p).map Condition.unjoined = c.conditionFor s r.unjoined p := by
  unfold conditionFor
  have ht : r.unjoined.type = r.type := rfl
  have hn : r.unjoined.name = r.name := rfl
  rw [ht, hn]
  cases p.operator with
  | compare op =>
    dsimp only
    cases p.operands.getLast? with
    | none => rfl
    | some o =>
      dsimp only
      cases c.registry.convertTo s r.type r.name o.text <;> rfl
  | test t => rfl
  | like placement negated =>
    dsimp only
    rcases p.operands.getLast? with _ | ⟨text | text⟩ <;> rfl
  | member negated =>
    dsimp only
    cases p.operands.mapM fun o => c.registry.convertTo s r.type r.name o.text with
    | error e => rfl
    | ok vs => cases negated <;> rfl
  | between =>
    dsimp only
    rcases p.bounds? with _ | ⟨low, high⟩
    · rfl
    · dsimp only
      cases c.registry.convertTo s r.type r.name low.text with
      | error e => rfl
      | ok v =>
        cases c.registry.convertTo s r.type r.name high.text <;> rfl

/-- The condition of a predicate, without any joins. -/
def conditionAlone (c : Compiler) (s : Schema) (root : String) (p : Predicate) :
    Except CompileError Condition := do
  let r ← s.resolve root (c.mapPath p.path)
  c.conditionFor s r p

variable {c : Compiler} {s : Schema} {root : String} {old : List JoinRecord}
  {uses : List (List String)} {st : Progress (List JoinRecord) Join}

/-- **Whatever has been reduced before, a predicate becomes what it becomes alone**, up to the number of
a join. -/
theorem reducePredicate_alone {p : Predicate} (ht : Tracks s root old uses st)
    (hc : st.cache.Coherent s) (hn : "" ∉ Text.pieces '.' (c.mapPath p.path)) :
    ((c.reducePredicate (Condition.backend s root) p).runFrom st).1.map Condition.unjoined =
      c.conditionAlone s root p := by
  obtain ⟨-, -, hres⟩ := resolve_spec ht hn
  have heq := hres.eq_resolve hc
  rw [runFrom_reducePredicate, conditionAlone, ← heq]
  rcases ((Condition.backend s root).resolve (c.mapPath p.path)).runFrom st with ⟨e | r, st'⟩
  · rfl
  · exact conditionFor_unjoined c s r p

end Compiler

/-! ### Groups -/

variable {c : Compiler} {s : Schema} {root : String}

/-- The beginnings that the paths of these predicates use. -/
def usesOf (c : Compiler) (s : Schema) (root : String) (ps : List Predicate) : List (List String) :=
  ps.flatMap fun p => pathUses s root (c.mapPath p.path)

/-- No path of the predicates has an empty segment. -/
def AllNamed (c : Compiler) (ps : List Predicate) : Prop :=
  ∀ p ∈ ps, "" ∉ Text.pieces '.' (c.mapPath p.path)

/-- The progress behind the predicates `done`: the joins of their paths and a coherent cache. -/
structure Behind (c : Compiler) (s : Schema) (root : String) (old : List JoinRecord)
    (done : List Predicate) (st : Progress (List JoinRecord) Join) : Prop where
  tracks : Tracks s root old (usesOf c s root done) st
  coherent : st.cache.Coherent s

theorem Behind.start {cache : FieldCache} (hc : cache.Coherent s) (c : Compiler) (root : String)
    (old : List JoinRecord) : Behind c s root old [] ⟨old, [], cache⟩ :=
  ⟨Tracks.start s root old cache, hc⟩

section Behind

variable {old : List JoinRecord} {done : List Predicate} {st st' : Progress (List JoinRecord) Join}

theorem Behind.predicate {p : Predicate} (h : Behind c s root old done st)
    (hn : "" ∉ Text.pieces '.' (c.mapPath p.path)) :
    Behind c s root old (done ++ [p])
      ((c.reducePredicate (Condition.backend s root) p).runFrom st).2 := by
  obtain ⟨ht, hc, -⟩ := Compiler.reducePredicate_spec h.tracks hn
  have huses : usesOf c s root (done ++ [p]) =
      usesOf c s root done ++ pathUses s root (c.mapPath p.path) := by
    simp [usesOf]
  exact ⟨huses ▸ ht, hc h.coherent⟩

/-- **Each predicate** becomes what it becomes alone. -/
theorem keptBy_behind {all : List Predicate} (hall : AllNamed c all) (old : List JoinRecord) :
    KeptBy c s root all (Behind c s root old)
      fun p cond => c.conditionAlone s root p = .ok cond.unjoined := by
  rintro done p st ⟨rest, rfl⟩ h
  have hn : "" ∉ Text.pieces '.' (c.mapPath p.path) := hall p (by simp)
  refine ⟨h.predicate hn, fun cond hcond => ?_⟩
  change c.conditionAlone s root p = .ok cond.unjoined
  rw [← Compiler.reducePredicate_alone h.tracks h.coherent hn, hcond]
  rfl

/-- A predicate that fails behind others fails alone. -/
theorem Behind.conditionAlone_error {p : Predicate} {e : CompileError}
    (h : Behind c s root old done st) (hn : "" ∉ Text.pieces '.' (c.mapPath p.path))
    (hfails : (c.reducePredicate (Condition.backend s root) p).runFrom st = (.error e, st')) :
    c.conditionAlone s root p = .error e := by
  rw [← Compiler.reducePredicate_alone h.tracks h.coherent hn, hfails]
  rfl

/-- **A group can be reduced if and only if its predicates can be reduced alone.** -/
theorem Behind.reduceGroup_ok_iff {g : Group} (h : Behind c s root old done st)
    (hn : AllNamed c (done ++ g.predicates)) :
    (∃ cond, ((c.reduceGroup (Condition.backend s root) g).runFrom st).1 = .ok cond) ↔
      ∀ p ∈ g.predicates, ∃ d, c.conditionAlone s root p = .ok d := by
  have hrule := reduceGroup_rule (keptBy_behind hn old) g (List.prefix_refl _) h
  generalize (c.reduceGroup (Condition.backend s root) g).runFrom st = run at hrule ⊢
  cases hrule with
  | built inv before shape =>
    refine iff_of_true ⟨_, rfl⟩ fun p hp => ?_
    obtain ⟨d, hd⟩ := before p hp
    exact ⟨_, hd⟩
  | @stopped before after p e _ _ split inv reduced fails =>
    refine iff_of_false (fun ⟨_, hok⟩ => nomatch hok) fun hall => ?_
    have hp : p ∈ g.predicates := by simp [split]
    obtain ⟨d, hd⟩ := hall p hp
    rw [inv.conditionAlone_error (hn p (List.mem_append_right done hp)) fails] at hd
    cases hd

end Behind

namespace Group

variable {f : Predicate → Except CompileError Condition}

mutual

/-- What a group becomes is determined by what its predicates become. -/
theorem Becomes.unjoined_unique : ∀ {g : Group} {l r : Condition},
    g.Becomes (fun p d => f p = .ok d.unjoined) l → g.Becomes (fun p d => f p = .ok d.unjoined) r →
      l.unjoined = r.unjoined
  | one _, _, _, hl, hr => clauseBecomes.unjoined_unique hl hr
  | join _ op _, _, _, ⟨l, l', hl, hl', he⟩, ⟨r, r', hr, hr', he'⟩ => by
    rw [he, he', Condition.unjoined_combine, Condition.unjoined_combine,
      Becomes.unjoined_unique hl hr, clauseBecomes.unjoined_unique hl' hr']

theorem clauseBecomes.unjoined_unique : ∀ {clause : Clause} {l r : Condition},
    clauseBecomes (fun p d => f p = .ok d.unjoined) clause l →
      clauseBecomes (fun p d => f p = .ok d.unjoined) clause r → l.unjoined = r.unjoined
  | .predicate _, _, _, hl, hr => Except.ok.inj (hl.symm.trans hr)
  | .group g, _, _, hl, hr => Becomes.unjoined_unique (g := g) hl hr

end

end Group

namespace Compiler

variable {σ P J F : Type} {c c' : Compiler} {b : Backend σ P J F} {f : Predicate → Predicate}

mutual

/-- **Groups of the same shape are reduced alike** if their predicates are. -/
theorem reduceGroup_congr : ∀ {g : Group},
    (∀ p ∈ g.predicates, c.reducePredicate b (f p) = c'.reducePredicate b p) →
      c.reduceGroup b (g.mapPredicates f) = c'.reduceGroup b g
  | .one clause, h => by
    rw [Group.mapPredicates, reduceGroup, reduceGroup]
    exact reduceClause_congr h
  | .join group op clause, h => by
    rw [Group.predicates, List.forall_mem_append] at h
    rw [Group.mapPredicates, reduceGroup, reduceGroup, reduceGroup_congr h.1, reduceClause_congr h.2]

theorem reduceClause_congr : ∀ {clause : Clause},
    (∀ p ∈ Group.clausePredicates clause, c.reducePredicate b (f p) = c'.reducePredicate b p) →
      c.reduceClause b (Group.mapClause f clause) = c'.reduceClause b clause
  | .predicate p, h => by
    rw [Group.mapClause, reduceClause, reduceClause]
    exact h p (List.mem_singleton_self p)
  | .group group, h => by
    rw [Group.mapClause, reduceClause, reduceClause]
    exact reduceGroup_congr (g := group) h

end

end Compiler

/-! ### Texts -/

/-- A text is compiled as every group that is reduced as its own. -/
theorem Compiler.compile_of_parse {σ P J F : Type} {c : Compiler} {b : Backend σ P J F} {text : String}
    {g g' : Group} (h : parse text = .ok g) (hg : c.reduceGroup b g = c.reduceGroup b g') (state : σ)
    (cache : FieldCache) : c.compile b state cache text = c.reduce b state cache g' := by
  unfold compile reduce
  rw [h]
  dsimp only
  rw [hg]

/-- The operators of a group that has been read have their operands. -/
theorem takes_of_parse {text : String} {g : Group} (h : parse text = .ok g) :
    ∀ p ∈ g.predicates, p.operator.arity.Takes p.operands :=
  fun p hp => (wellFormed_of_parse h p hp).arity

/-- Paths as they are written have no empty segment. -/
theorem allNamed_of_parse {text : String} {g : Group} (hmap : c.mapPath = id)
    (h : parse text = .ok g) : AllNamed c g.predicates := by
  intro p hp
  rw [hmap]
  exact named_of_parse h hp

end RecordFilter

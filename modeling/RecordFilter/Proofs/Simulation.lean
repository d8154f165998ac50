import Mathlib.Data.List.Forall2
import RecordFilter.Proofs.Running

/-!
# Backends that simulate each other

Compilation uses the operations of its backend and nothing else.  So if the operations of two backends
give related results on related arguments, in related states, then so does the compilation of every group
(`Simulation.reduceGroup`): both fail with the same fault, or both give predicates that are related, and
what they leave behind is related as well.

The proof goes through the compilation function by function.  `CompilationRel` relates two compilations
of any results, and every way of building a compilation keeps it.
-/

namespace RecordFilter

/-! ### Related results and related progress -/

/-- The same fault, or related results. -/
inductive ResultRel {α α' : Type} (R : α → α' → Prop) :
    Except CompileError α → Except CompileError α' → Prop
  | ok {a : α} {a' : α'} (h : R a a') : ResultRel R (.ok a) (.ok a')
  | error (e : CompileError) : ResultRel R (.error e) (.error e)

theorem ResultRel.eq {α : Type} {x x' : Except CompileError α} (h : ResultRel Eq x x') : x = x' := by
  cases h with
  | ok h => rw [h]
  | error e => rfl

theorem ResultRel.eq_map {α α' : Type} {f : α → α'} {x : Except CompileError α}
    {x' : Except CompileError α'} (h : ResultRel (fun a a' => a' = f a) x x') : x' = x.map f := by
  cases h with
  | ok h =>
    rw [h]
    rfl
  | error e => rfl

/-- Operations of two backends that keep their states related and give related results. -/
def StepRel {σ σ' α α' : Type} (S : σ → σ' → Prop) (R : α → α' → Prop) (x : StateM σ α)
    (x' : StateM σ' α') : Prop :=
  ∀ a a', S a a' → R (x a).1 (x' a').1 ∧ S (x a).2 (x' a').2

section relations

variable {σ σ' P P' J J' F F' α α' β β' : Type} (S : σ → σ' → Prop) (RJ : J → J' → Prop)
  (RF : F → F' → Prop) (RP : P → P' → Prop)

/-- Related states, joins related one by one under the same trails, and the same cache. -/
structure ProgressRel (p : Progress σ J) (p' : Progress σ' J') : Prop where
  backend : S p.backend p'.backend
  joins : List.Forall₂ (fun e e' => e.1 = e'.1 ∧ RJ e.2 e'.2) p.joins p'.joins
  cache : p.cache = p'.cache

def CompilationRel (R : α → α' → Prop) (x : Compilation σ J α) (x' : Compilation σ' J' α') : Prop :=
  ∀ p p', ProgressRel S RJ p p' →
    ResultRel R (x.runFrom p).1 (x'.runFrom p').1 ∧
      ProgressRel S RJ (x.runFrom p).2 (x'.runFrom p').2

/-- Resolved to related fields along related joins, and otherwise to the same. -/
structure ResolvedRel (r : ResolvedPath J F) (r' : ResolvedPath J' F') : Prop where
  field : RF r.field r'.field
  owner : r.owner = r'.owner
  name : r.name = r'.name
  type : r.type = r'.type
  joins : List.Forall₂ RJ r.joins r'.joins

/-- **The operations of two backends** that compile with the same schema are related. -/
structure Simulation (b : Backend σ P J F) (b' : Backend σ' P' J' F') : Prop where
  schema : b.schema = b'.schema
  root : RJ b.root b'.root
  entityOf : ∀ {j j'}, RJ j j' → b.entityOf j = b'.entityOf j'
  join : ∀ {j j'}, RJ j j' → ∀ segment,
    StepRel S (Option.Rel RJ) (b.join j segment) (b'.join j' segment)
  field : ∀ {j j'}, RJ j j' → ∀ name, Option.Rel RF (b.field j name) (b'.field j' name)
  compare : ∀ {f f'}, RF f f' → ∀ op v, StepRel S RP (b.compare f op v) (b'.compare f' op v)
  test : ∀ {f f'}, RF f f' → ∀ t, StepRel S RP (b.test f t) (b'.test f' t)
  like : ∀ {f f'}, RF f f' → ∀ pattern negated,
    StepRel S RP (b.like f pattern negated) (b'.like f' pattern negated)
  member : ∀ {f f'}, RF f f' → ∀ vs, StepRel S RP (b.member f vs) (b'.member f' vs)
  between : ∀ {f f'}, RF f f' → ∀ low high,
    StepRel S RP (b.between f low high) (b'.between f' low high)
  not : ∀ {c c'}, RP c c' → StepRel S RP (b.not c) (b'.not c')
  combine : ∀ {l l' r r'}, RP l l' → RP r r' → ∀ op,
    StepRel S RP (b.combine op l r) (b'.combine op l' r')

end relations

theorem rel_eq_refl {α : Type} (a : Option α) : Option.Rel Eq a a := by
  cases a with
  | none => exact .none
  | some a => exact .some rfl

/-! ### Ways of building a compilation -/

namespace CompilationRel

open Compilation

variable {σ σ' J J' α α' β β' : Type} {S : σ → σ' → Prop} {RJ : J → J' → Prop} {R : α → α' → Prop}
  {R' : β → β' → Prop}

theorem pure {a : α} {a' : α'} (h : R a a') :
    CompilationRel S RJ R (pure a : Compilation σ J α) (pure a' : Compilation σ' J' α') :=
  fun _ _ hp => ⟨.ok h, hp⟩

theorem throw (e : CompileError) :
    CompilationRel S RJ R (throw e : Compilation σ J α) (throw e : Compilation σ' J' α') :=
  fun _ _ hp => ⟨.error e, hp⟩

theorem bind {x : Compilation σ J α} {x' : Compilation σ' J' α'} {f : α → Compilation σ J β}
    {f' : α' → Compilation σ' J' β'} (hx : CompilationRel S RJ R x x')
    (hf : ∀ a a', R a a' → CompilationRel S RJ R' (f a) (f' a')) :
    CompilationRel S RJ R' (x >>= f) (x' >>= f') := by
  intro p p' hp
  obtain ⟨hres, hq⟩ := hx p p' hp
  rw [runFrom_bind, runFrom_bind]
  rcases hr : x.runFrom p with ⟨r, q⟩
  rcases hr' : x'.runFrom p' with ⟨r', q'⟩
  rw [hr, hr'] at hres hq
  cases hres with
  | ok ha => exact hf _ _ ha q q' hq
  | error e => exact ⟨.error e, hq⟩

theorem build {step : StateM σ α} {step' : StateM σ' α'} (h : StepRel S R step step') :
    CompilationRel S RJ R (build step) (build step') := by
  intro p p' hp
  obtain ⟨hr, hs⟩ := h _ _ hp.backend
  exact ⟨.ok hr, hs, hp.joins, hp.cache⟩

theorem fieldType? (s : Schema) (owner field : String) :
    CompilationRel S RJ Eq (fieldType? s owner field) (fieldType? s owner field) := by
  intro p p' hp
  rw [runFrom_fieldType?, runFrom_fieldType?, hp.cache]
  exact ⟨.ok rfl, hp.backend, hp.joins, rfl⟩

theorem joinAt? (trail : String) :
    CompilationRel S RJ (Option.Rel RJ) (joinAt? trail) (joinAt? trail) := by
  intro p p' hp
  refine ⟨.ok ?_, hp⟩
  have hj := hp.joins
  generalize p.joins = js at hj
  generalize p'.joins = js' at hj
  induction hj with
  | nil => exact .none
  | @cons e e' js js' he _ ih =>
    obtain ⟨t, j⟩ := e
    obtain ⟨t', j'⟩ := e'
    obtain ⟨rfl, hj⟩ := he
    rw [List.lookup_cons, List.lookup_cons]
    cases trail == t with
    | true => exact .some hj
    | false => exact ih

theorem rememberJoin (trail : String) {j : J} {j' : J'} (h : RJ j j') :
    CompilationRel S RJ Eq (rememberJoin trail j : Compilation σ J Unit)
      (rememberJoin trail j' : Compilation σ' J' Unit) :=
  fun _ _ hp => ⟨.ok rfl, hp.backend, .cons ⟨rfl, h⟩ hp.joins, hp.cache⟩

theorem resolved (path segment : String) {a : Option α} {a' : Option α'} (h : Option.Rel R a a') :
    CompilationRel S RJ R (resolved path segment a : Compilation σ J α)
      (resolved path segment a' : Compilation σ' J' α') := by
  cases h with
  | some h => exact .pure h
  | none => exact .throw _

end CompilationRel

/-! ### Paths -/

theorem rel_getLast? {J J' : Type} {RJ : J → J' → Prop} {root : J} {root' : J'} (h : RJ root root')
    {js : List J} {js' : List J'} (hjs : List.Forall₂ RJ js js') :
    RJ (js.getLast?.getD root) (js'.getLast?.getD root') := by
  induction hjs generalizing root root' with
  | nil => exact h
  | cons hj _ ih =>
    rw [List.getLast?_cons, List.getLast?_cons]
    exact ih hj

namespace Simulation

variable {σ σ' P P' J J' F F' : Type} {S : σ → σ' → Prop} {RJ : J → J' → Prop} {RF : F → F' → Prop}
  {RP : P → P' → Prop} {b : Backend σ P J F} {b' : Backend σ' P' J' F'}

theorem joinOnce (h : Simulation S RJ RF RP b b') (path trail segment : String) {j : J} {j' : J'}
    (hj : RJ j j') :
    CompilationRel S RJ RJ (b.joinOnce path trail j segment) (b'.joinOnce path trail j' segment) := by
  unfold Backend.joinOnce
  refine (CompilationRel.joinAt? trail).bind fun known known' hk => ?_
  cases hk with
  | some hk => exact .pure hk
  | none =>
    refine (CompilationRel.build (h.join hj segment)).bind fun a a' ha => ?_
    refine (CompilationRel.resolved path segment ha).bind fun k k' hk => ?_
    exact (CompilationRel.rememberJoin trail hk).bind fun _ _ _ => .pure hk

theorem joinAlong (h : Simulation S RJ RF RP b b') (path : String) (rest : List String) :
    ∀ (trail : String) {j : J} {j' : J'}, RJ j j' →
      CompilationRel S RJ (List.Forall₂ RJ) (b.joinAlong path trail j rest)
        (b'.joinAlong path trail j' rest) := by
  induction rest with
  | nil => exact fun _ _ _ _ => .pure .nil
  | cons segment rest ih =>
    intro trail j j' hj
    unfold Backend.joinAlong
    refine (h.joinOnce path _ segment hj).bind fun k k' hk => ?_
    refine (ih _ hk).bind fun ks ks' hks => ?_
    exact .pure (.cons hk hks)

/-- **Paths are resolved alike.** -/
theorem resolve (h : Simulation S RJ RF RP b b') (path : String) :
    CompilationRel S RJ (ResolvedRel RJ RF) (b.resolve path) (b'.resolve path) := by
  unfold Backend.resolve
  refine (h.joinAlong path _ "" h.root).bind fun js js' hjs => ?_
  have hlast := rel_getLast? h.root hjs
  refine (CompilationRel.resolved path _ (h.field hlast _)).bind fun f f' hf => ?_
  rw [h.schema, h.entityOf hlast]
  refine (CompilationRel.fieldType? b'.schema _ _).bind fun t t' ht => ?_
  subst ht
  refine (CompilationRel.resolved path _ (rel_eq_refl t)).bind fun t t' ht => ?_
  exact .pure ⟨hf, rfl, rfl, ht, hjs⟩

/-! ### Predicates -/

variable (c : Compiler) (s : Schema)

theorem readOperand {r : ResolvedPath J F} {r' : ResolvedPath J' F'} (hr : ResolvedRel RJ RF r r')
    (o : Operand) : CompilationRel S RJ Eq (c.readOperand s r o) (c.readOperand s r' o) := by
  unfold Compiler.readOperand
  rw [hr.type, hr.name]
  cases c.registry.convertTo s r'.type r'.name o.text with
  | error e => exact .throw e
  | ok v => exact .pure rfl

theorem readOperands {r : ResolvedPath J F} {r' : ResolvedPath J' F'} (hr : ResolvedRel RJ RF r r')
    (os : List Operand) :
    CompilationRel S RJ Eq (os.mapM (c.readOperand s r)) (os.mapM (c.readOperand s r')) := by
  induction os with
  | nil => exact .pure rfl
  | cons o os ih =>
    rw [List.mapM_cons, List.mapM_cons]
    refine (readOperand c s hr o).bind fun v v' hv => ?_
    refine ih.bind fun vs vs' hvs => ?_
    exact .pure (by rw [hv, hvs])

theorem readLast {r : ResolvedPath J F} {r' : ResolvedPath J' F'} (hr : ResolvedRel RJ RF r r')
    (p : Predicate) : CompilationRel S RJ Eq (c.readLast s r p) (c.readLast s r' p) := by
  unfold Compiler.readLast
  cases p.operands.getLast? with
  | none => exact .throw _
  | some o => exact readOperand c s hr o

theorem readPattern (p : Predicate) (placement : Placement) :
    CompilationRel S RJ Eq (Compiler.readPattern p placement : Compilation σ J String)
      (Compiler.readPattern p placement : Compilation σ' J' String) := by
  unfold Compiler.readPattern
  rcases p.operands.getLast? with _ | ⟨text | text⟩
  · exact .throw _
  · exact .pure rfl
  · exact .throw _

theorem reducePredicate (h : Simulation S RJ RF RP b b') (p : Predicate) :
    CompilationRel S RJ RP (c.reducePredicate b p) (c.reducePredicate b' p) := by
  unfold Compiler.reducePredicate
  refine (h.resolve _).bind fun r r' hr => ?_
  rw [h.schema]
  cases p.operator with
  | compare op =>
    refine (readLast c b'.schema hr p).bind fun v v' hv => ?_
    subst hv
    exact .build (h.compare hr.field op v)
  | test t => exact .build (h.test hr.field t)
  | like placement negated =>
    refine (readPattern p placement).bind fun pattern pattern' hp => ?_
    subst hp
    exact .build (h.like hr.field pattern negated)
  | member negated =>
    refine (readOperands c b'.schema hr p.operands).bind fun vs vs' hvs => ?_
    subst hvs
    refine (CompilationRel.build (h.member hr.field vs)).bind fun m m' hm => ?_
    cases negated with
    | true => exact .build (h.not hm)
    | false => exact .pure hm
  | between =>
    rcases p.bounds? with _ | ⟨low, high⟩
    · exact .throw _
    · refine (readOperand c b'.schema hr low).bind fun v v' hv => ?_
      refine (readOperand c b'.schema hr high).bind fun w w' hw => ?_
      subst hv hw
      exact .build (h.between hr.field v w)

/-! ### Groups -/

mutual

/-- **Groups are compiled alike.** -/
theorem reduceGroup (h : Simulation S RJ RF RP b b') :
    ∀ g : Group, CompilationRel S RJ RP (c.reduceGroup b g) (c.reduceGroup b' g)
  | .one clause => by
    unfold Compiler.reduceGroup
    exact reduceClause h clause
  | .join group op clause => by
    unfold Compiler.reduceGroup
    refine (reduceGroup h group).bind fun l l' hl => ?_
    refine (reduceClause h clause).bind fun r r' hr => ?_
    exact .build (h.combine hl hr op)

theorem reduceClause (h : Simulation S RJ RF RP b b') :
    ∀ clause : Clause, CompilationRel S RJ RP (c.reduceClause b clause) (c.reduceClause b' clause)
  | .predicate p => by
    unfold Compiler.reduceClause
    exact reducePredicate c h p
  | .group group => by
    unfold Compiler.reduceClause
    exact reduceGroup h group

end

/-- **Groups are compiled alike from the start**, from related states. -/
theorem reduce (h : Simulation S RJ RF RP b b') {state : σ} {state' : σ'} (hs : S state state')
    (cache : FieldCache) (g : Group) :
    ResultRel RP (c.reduce b state cache g).result (c.reduce b' state' cache g).result ∧
      S (c.reduce b state cache g).backend (c.reduce b' state' cache g).backend ∧
      (c.reduce b state cache g).cache = (c.reduce b' state' cache g).cache := by
  have hstart : ProgressRel S RJ ⟨state, [], cache⟩ ⟨state', [], cache⟩ := ⟨hs, .nil, rfl⟩
  obtain ⟨hr, hp⟩ := reduceGroup c h g _ _ hstart
  exact ⟨hr, hp.backend, hp.cache⟩

/-- **Texts are compiled alike**, from related states. -/
theorem compile (h : Simulation S RJ RF RP b b') {state : σ} {state' : σ'} (hs : S state state')
    (cache : FieldCache) (text : String) :
    ResultRel RP (c.compile b state cache text).result (c.compile b' state' cache text).result ∧
      S (c.compile b state cache text).backend (c.compile b' state' cache text).backend ∧
      (c.compile b state cache text).cache = (c.compile b' state' cache text).cache := by
  unfold Compiler.compile
  cases parse text with
  | error e => exact ⟨.error _, hs, rfl⟩
  | ok g => exact h.reduce c hs cache g

end Simulation

end RecordFilter

import RecordFilter.Proofs.Running
import RecordFilter.Proofs.Trail

/-!
# What a compilation keeps

`Compilation.Ends` says where a compilation ends: of its result and the progress then if it succeeds, and
of the progress at which it stops if it does not. There is one rule for each way of building a
compilation.

The trails of a path are the texts under which its joins are remembered (`trailsFrom`). What every single
relationship keeps, an invariant that is told by the trails that have been used so far, all relationships
of a path keep (`Backend.ends_joinAlong`). Of a backend nothing is known here.

Reading the literals of a predicate is `Still`: it changes nothing. So what resolving its path and the
operations of the backend keep, the predicate keeps (`Compiler.keeps_reducePredicate`).
-/

namespace RecordFilter

namespace Compilation

variable {σ J α β : Type}

/-- **Where a compilation ends** that starts from this progress. -/
def Ends (x : Compilation σ J α) (p : Progress σ J) (Ok : α → Progress σ J → Prop)
    (Stop : Progress σ J → Prop) : Prop :=
  match x.runFrom p with
  | (.ok a, q) => Ok a q
  | (.error _, q) => Stop q

variable {Ok Ok' : α → Progress σ J → Prop} {Stop Stop' : Progress σ J → Prop} {p q : Progress σ J}

theorem Ends.ok {x : Compilation σ J α} (h : x.Ends p Ok Stop) {a : α}
    (hx : x.runFrom p = (.ok a, q)) : Ok a q := by
  unfold Ends at h
  rwa [hx] at h

theorem Ends.error {x : Compilation σ J α} (h : x.Ends p Ok Stop) {e : CompileError}
    (hx : x.runFrom p = (.error e, q)) : Stop q := by
  unfold Ends at h
  rwa [hx] at h

theorem Ends.mono {x : Compilation σ J α} (h : x.Ends p Ok Stop) (hok : ∀ a q, Ok a q → Ok' a q)
    (hstop : ∀ q, Stop q → Stop' q) : x.Ends p Ok' Stop' := by
  unfold Ends at h ⊢
  split
  · next a q hx =>
    rw [hx] at h
    exact hok a q h
  · next e q hx =>
    rw [hx] at h
    exact hstop q h

theorem Ends.bind {x : Compilation σ J α} {f : α → Compilation σ J β}
    {Ok' : β → Progress σ J → Prop} (h : x.Ends p Ok Stop)
    (hf : ∀ a q, Ok a q → (f a).Ends q Ok' Stop) : (x >>= f).Ends p Ok' Stop := by
  unfold Ends at h ⊢
  rw [runFrom_bind]
  rcases hx : x.runFrom p with ⟨e | a, q⟩
  · rw [hx] at h
    exact h
  · rw [hx] at h
    exact hf a q h

/-- What is left to do behind the first of two. -/
theorem ends_bind {x : Compilation σ J α} {f : α → Compilation σ J β} {Ok : β → Progress σ J → Prop}
    (h : x.Ends p (fun a q => (f a).Ends q Ok Stop) Stop) : (x >>= f).Ends p Ok Stop :=
  h.bind fun _ _ hf => hf

theorem ends_pure {a : α} (h : Ok a p) : (pure a : Compilation σ J α).Ends p Ok Stop := h

theorem ends_throw {e : CompileError} (h : Stop p) :
    (throw e : Compilation σ J α).Ends p Ok Stop := h

theorem ends_build {step : StateM σ α}
    (h : Ok (step p.backend).1 { p with backend := (step p.backend).2 }) :
    (build step : Compilation σ J α).Ends p Ok Stop := h

theorem ends_fieldType? {s : Schema} {owner field : String}
    {Ok : Option FieldType → Progress σ J → Prop}
    (h : Ok (p.cache.lookup s owner field).1 { p with cache := (p.cache.lookup s owner field).2 }) :
    (fieldType? s owner field : Compilation σ J (Option FieldType)).Ends p Ok Stop := h

theorem ends_joinAt? {trail : String} {Ok : Option J → Progress σ J → Prop}
    (h : Ok (p.joins.lookup trail) p) : (joinAt? trail : Compilation σ J (Option J)).Ends p Ok Stop := h

theorem ends_rememberJoin {trail : String} {join : J} {Ok : Unit → Progress σ J → Prop}
    (h : Ok () { p with joins := (trail, join) :: p.joins }) :
    (rememberJoin trail join : Compilation σ J Unit).Ends p Ok Stop := h

/-- What is not there stops the compilation. -/
theorem ends_resolved {path segment : String} {a : Option α} (hsome : ∀ b, a = some b → Ok b p)
    (hnone : a = none → Stop p) : (resolved path segment a : Compilation σ J α).Ends p Ok Stop := by
  cases a with
  | none => exact ends_throw (hnone rfl)
  | some b => exact ends_pure (hsome b rfl)

/-! ### Invariants -/

/-- Whatever comes of it, the compilation keeps the invariant. -/
def Keeps (Inv : Progress σ J → Prop) (x : Compilation σ J α) : Prop :=
  ∀ p, Inv p → Inv (x.runFrom p).2

/-- The compilation changes nothing. -/
def Still (x : Compilation σ J α) : Prop := ∀ p, (x.runFrom p).2 = p

variable {Inv : Progress σ J → Prop} {x : Compilation σ J α} {f : α → Compilation σ J β}

theorem Ends.keeps (h : ∀ p, Inv p → x.Ends p (fun _ => Inv) Inv) : Keeps Inv x := by
  intro p hp
  have hx := h p hp
  rcases hrun : x.runFrom p with ⟨e | a, q⟩
  · exact hx.error hrun
  · exact hx.ok hrun

theorem Keeps.bind (hx : Keeps Inv x) (hf : ∀ a, Keeps Inv (f a)) : Keeps Inv (x >>= f) := by
  intro p hp
  have hq := hx p hp
  rw [runFrom_bind]
  rcases hrun : x.runFrom p with ⟨e | a, q⟩
  · rwa [hrun] at hq
  · rw [hrun] at hq
    exact hf a q hq

theorem Still.keeps (h : Still x) : Keeps Inv x := fun p hp => (h p).symm ▸ hp

theorem Still.bind (hx : Still x) (hf : ∀ a, Still (f a)) : Still (x >>= f) := by
  intro p
  have hkeeps : Keeps (· = p) (x >>= f) := hx.keeps.bind fun a => (hf a).keeps
  exact hkeeps p rfl

/-- What changes nothing ends where it has begun. -/
theorem Still.ends (h : Still x) (hok : ∀ a, Ok a p) (hstop : Stop p) : x.Ends p Ok Stop := by
  have hq := h p
  unfold Ends
  split
  · next a q hx =>
    rw [hx] at hq
    obtain rfl : q = p := hq
    exact hok a
  · next e q hx =>
    rw [hx] at hq
    obtain rfl : q = p := hq
    exact hstop

theorem still_pure (a : α) : Still (pure a : Compilation σ J α) := fun _ => rfl

theorem still_throw (e : CompileError) : Still (throw e : Compilation σ J α) := fun _ => rfl

end Compilation

/-! ### Reading literals -/

namespace Compiler

open Compilation

variable {σ J F : Type} (c : Compiler) (s : Schema) (r : ResolvedPath J F)

theorem still_readOperand (o : Operand) : Still (c.readOperand s r o : Compilation σ J Value) := by
  unfold readOperand
  cases c.registry.convertTo s r.type r.name o.text with
  | error e => exact still_throw e
  | ok v => exact still_pure v

theorem still_readOperands (os : List Operand) :
    Still (os.mapM (c.readOperand s r) : Compilation σ J (List Value)) := by
  induction os with
  | nil => exact still_pure []
  | cons o os ih =>
    rw [List.mapM_cons]
    refine (still_readOperand c s r o).bind fun v => ?_
    exact ih.bind fun vs => still_pure (v :: vs)

theorem still_readLast (p : Predicate) : Still (c.readLast s r p : Compilation σ J Value) := by
  unfold readLast
  cases p.operands.getLast? with
  | none => exact still_throw _
  | some o => exact still_readOperand c s r o

theorem still_readPattern (p : Predicate) (placement : Placement) :
    Still (readPattern p placement : Compilation σ J String) := by
  unfold readPattern
  rcases p.operands.getLast? with _ | ⟨text | text⟩
  · exact still_throw _
  · exact still_pure _
  · exact still_throw _

/-- **A predicate keeps** what resolving its path and the operations of the backend keep. -/
theorem keeps_reducePredicate {P : Type} {c : Compiler} {b : Backend σ P J F} {p : Predicate}
    {Inv : Progress σ J → Prop} (hresolve : Keeps Inv (b.resolve (c.mapPath p.path)))
    (hbuild : ∀ step : StateM σ P, Keeps Inv (build step : Compilation σ J P)) :
    Keeps Inv (c.reducePredicate b p) := by
  unfold reducePredicate
  refine hresolve.bind fun r => ?_
  cases p.operator with
  | compare op => exact (still_readLast c _ r p).keeps.bind fun v => hbuild _
  | test t => exact hbuild _
  | like placement negated => exact (still_readPattern p placement).keeps.bind fun pattern => hbuild _
  | member negated =>
    refine (still_readOperands c _ r p.operands).keeps.bind fun vs => ?_
    refine (hbuild _).bind fun m => ?_
    cases negated with
    | true => exact hbuild _
    | false => exact (still_pure m).keeps
  | between =>
    dsimp only
    rcases p.bounds? with _ | ⟨low, high⟩
    · exact (still_throw _).keeps
    · refine (still_readOperand c _ r low).keeps.bind fun v => ?_
      exact (still_readOperand c _ r high).keeps.bind fun w => hbuild _

end Compiler

/-! ### Along a path -/

/-- The trails of the relationships `rest` behind a trail, the shorter ones first. -/
def trailsFrom : String → List String → List String
  | _, [] => []
  | trail, segment :: rest =>
    extendTrail trail segment :: trailsFrom (extendTrail trail segment) rest

namespace Backend

open Compilation

variable {σ P J F : Type} {b : Backend σ P J F} {path : String}

/-- A relationship: its join is remembered, or the backend makes it, or cannot. -/
theorem ends_joinOnce {trail segment : String} {j : J} {p : Progress σ J} {Ok : J → Progress σ J → Prop}
    {Stop : Progress σ J → Prop} (hold : ∀ k, p.joins.lookup trail = some k → Ok k p)
    (hmade : ∀ k state, p.joins.lookup trail = none → b.join j segment p.backend = (some k, state) →
      Ok k { p with backend := state, joins := (trail, k) :: p.joins })
    (hfails : ∀ state, p.joins.lookup trail = none → b.join j segment p.backend = (none, state) →
      Stop { p with backend := state }) :
    (b.joinOnce path trail j segment).Ends p Ok Stop := by
  unfold joinOnce
  refine ends_bind (ends_joinAt? ?_)
  cases hl : p.joins.lookup trail with
  | some k => exact ends_pure (hold k hl)
  | none =>
    refine ends_bind (ends_build ?_)
    rcases hmake : b.join j segment p.backend with ⟨made, state⟩
    refine ends_bind (ends_resolved (fun k hk => ?_) fun hk => ?_)
    · refine ends_bind (ends_rememberJoin (ends_pure ?_))
      exact hmade k state hl (hk ▸ hmake)
    · exact hfails state hl (hk ▸ hmake)

variable (At : String → J → Prop) (Inv Stop : List String → Progress σ J → Prop)

/-- **What every relationship keeps, a path keeps:** `Inv` is told by the trails used so far, and each
join is `At` its trail. A path that stops has used some of its trails. -/
theorem ends_joinAlong
    (hstep : ∀ (trail segment : String) (j : J) (uses : List String) (p : Progress σ J),
      At trail j → Inv uses p →
        (b.joinOnce path (extendTrail trail segment) j segment).Ends p
          (fun j' q => At (extendTrail trail segment) j' ∧
            Inv (uses ++ [extendTrail trail segment]) q)
          (Stop (uses ++ [extendTrail trail segment]))) :
    ∀ (rest : List String) (trail : String) {j : J} (uses : List String) {p : Progress σ J},
      At trail j → Inv uses p →
        (b.joinAlong path trail j rest).Ends p
          (fun js q => (∃ trail', At trail' (js.getLast?.getD j)) ∧
            Inv (uses ++ trailsFrom trail rest) q)
          (fun q => ∃ used, used <+: trailsFrom trail rest ∧ Stop (uses ++ used) q)
  | [], trail, j, uses, p, hat, hinv => by
    unfold joinAlong
    refine ends_pure ⟨⟨trail, hat⟩, ?_⟩
    simpa [trailsFrom] using hinv
  | segment :: rest, trail, j, uses, p, hat, hinv => by
    have hfirst := hstep trail segment j uses p hat hinv
    unfold joinAlong
    refine (hfirst.mono (fun _ _ h => h) fun q hq => ?_).bind fun j' q hq => ?_
    · exact ⟨[extendTrail trail segment], by simp [trailsFrom], hq⟩
    · have hrest := ends_joinAlong hstep rest _ _ hq.1 hq.2
      refine (hrest.mono (fun _ _ h => h) fun q' hq' => ?_).bind fun js q' hq' => ends_pure ?_
      · obtain ⟨used, hused, hstop⟩ := hq'
        refine ⟨extendTrail trail segment :: used, ?_, by simpa using hstop⟩
        exact List.cons_prefix_cons.mpr ⟨rfl, hused⟩
      · refine ⟨?_, by simpa [trailsFrom] using hq'.2⟩
        rw [List.getLast?_cons, Option.getD_some]
        exact hq'.1

/-- **A path** is its joins, then its field, then the type of the field. -/
theorem ends_resolve {p : Progress σ J} {Mid : List J → Progress σ J → Prop}
    {Ok : ResolvedPath J F → Progress σ J → Prop} {Stop : Progress σ J → Prop}
    (hjoins : (b.joinAlong path "" b.root (AttributePath.ofText path).relations).Ends p Mid Stop)
    (hnone : ∀ js q, Mid js q → Stop q)
    (hcache : ∀ js q owner, Mid js q →
      Stop { q with cache := (q.cache.lookup b.schema owner (AttributePath.ofText path).field).2 })
    (hfound : ∀ js q f t, Mid js q →
      b.field (js.getLast?.getD b.root) (AttributePath.ofText path).field = some f →
      (q.cache.lookup b.schema (b.entityOf (js.getLast?.getD b.root))
        (AttributePath.ofText path).field).1 = some t →
      Ok ⟨f, b.entityOf (js.getLast?.getD b.root), (AttributePath.ofText path).field, t, js⟩
        { q with cache := (q.cache.lookup b.schema (b.entityOf (js.getLast?.getD b.root))
          (AttributePath.ofText path).field).2 }) :
    (b.resolve path).Ends p Ok Stop := by
  unfold resolve
  refine hjoins.bind fun js q hq => ?_
  refine ends_bind (ends_resolved (fun f hf => ?_) fun _ => hnone js q hq)
  refine ends_bind (ends_fieldType? ?_)
  refine ends_bind (ends_resolved (fun t ht => ?_) fun _ => hcache js q _ hq)
  exact ends_pure (hfound js q f t hq hf ht)

end Backend

end RecordFilter

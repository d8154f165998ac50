import RecordFilter.Proofs.Keeping
import RecordFilter.Proofs.Resolution
import RecordFilter.Proofs.Simulation

/-!
# The joins that a backend is asked for

`Backend.logged` is a backend that writes down the calls of its `join`, with those which fail, and does
everything else as before (`simulation_logged`).  Backends that simulate each other are asked for the
same joins (`Simulation.logged`).

Where the trail of a join can be told from the join (`Backend.Traced`), so can the trail of a call.  A
compilation uses the trails of its paths one after the other, and asks for a join at the first use of each
and never again: `Uses` says so of any compilation, with one rule for each way of building one, and
`Compiler.calls_of_reduce` of a group.  A compilation that fails has used some of its trails, the first
ones.
-/

namespace RecordFilter

open Compilation

/-! ### Writing down the calls -/

section logged

variable {σ σ' P P' J J' F F' α α' : Type}

/-- An operation that is not written down. -/
def unlogged (step : StateM σ α) : StateM (σ × List (J × String)) α := fun x =>
  ((step x.1).1, ((step x.1).2, x.2))

/-- The backend that writes down from which join which relationship has been asked for. -/
def Backend.logged (b : Backend σ P J F) : Backend (σ × List (J × String)) P J F where
  schema := b.schema
  root := b.root
  entityOf := b.entityOf
  join j segment := fun x =>
    ((b.join j segment x.1).1, ((b.join j segment x.1).2, x.2 ++ [(j, segment)]))
  field := b.field
  compare f op v := unlogged (b.compare f op v)
  test f t := unlogged (b.test f t)
  like f pattern negated := unlogged (b.like f pattern negated)
  member f vs := unlogged (b.member f vs)
  between f low high := unlogged (b.between f low high)
  not c := unlogged (b.not c)
  combine op l r := unlogged (b.combine op l r)

/-- Every call is written down, whatever comes of it. -/
theorem eq_of_join_logged {b : Backend σ P J F} {j : J} {segment : String} {made : Option J}
    {x y : σ × List (J × String)} (h : b.logged.join j segment x = (made, y)) :
    b.join j segment x.1 = (made, y.1) ∧ y.2 = x.2 ++ [(j, segment)] := by
  have hmade : (b.join j segment x.1).1 = made := congrArg Prod.fst h
  have hy : ((b.join j segment x.1).2, x.2 ++ [(j, segment)]) = y := congrArg Prod.snd h
  subst hmade hy
  exact ⟨rfl, rfl⟩

theorem stepRel_unlogged (step : StateM σ α) :
    StepRel (fun state x => x.1 = state) Eq step
      (unlogged step : StateM (σ × List (J × String)) α) := by
  rintro _ x rfl
  exact ⟨rfl, rfl⟩

/-- **Writing down changes nothing else.** -/
theorem simulation_logged (b : Backend σ P J F) :
    Simulation (fun state x => x.1 = state) Eq Eq Eq b b.logged where
  schema := rfl
  root := rfl
  entityOf := by
    rintro j _ rfl
    rfl
  join := by
    rintro j _ rfl segment _ x rfl
    exact ⟨rel_eq_refl _, rfl⟩
  field := by
    rintro j _ rfl name
    exact rel_eq_refl _
  compare := by
    rintro f _ rfl op v
    exact stepRel_unlogged _
  test := by
    rintro f _ rfl t
    exact stepRel_unlogged _
  like := by
    rintro f _ rfl pattern negated
    exact stepRel_unlogged _
  member := by
    rintro f _ rfl vs
    exact stepRel_unlogged _
  between := by
    rintro f _ rfl low high
    exact stepRel_unlogged _
  not := by
    rintro c _ rfl
    exact stepRel_unlogged _
  combine := by
    rintro l _ r _ rfl rfl op
    exact stepRel_unlogged _

variable {S : σ → σ' → Prop} {RJ : J → J' → Prop} {RF : F → F' → Prop} {RP : P → P' → Prop}

/-- Related states, and the same relationships asked for from related joins. -/
def LoggedRel (S : σ → σ' → Prop) (RJ : J → J' → Prop) (x : σ × List (J × String))
    (x' : σ' × List (J' × String)) : Prop :=
  S x.1 x'.1 ∧ List.Forall₂ (fun call call' => RJ call.1 call'.1 ∧ call.2 = call'.2) x.2 x'.2

theorem StepRel.unlogged {R : α → α' → Prop} {step : StateM σ α} {step' : StateM σ' α'}
    (h : StepRel S R step step') :
    StepRel (LoggedRel S RJ) R (unlogged step) (unlogged step') := by
  intro x x' hx
  obtain ⟨hr, hs⟩ := h _ _ hx.1
  exact ⟨hr, hs, hx.2⟩

/-- **Backends that simulate each other are asked for the same joins.** -/
theorem Simulation.logged {b : Backend σ P J F} {b' : Backend σ' P' J' F'}
    (h : Simulation S RJ RF RP b b') :
    Simulation (LoggedRel S RJ) RJ RF RP b.logged b'.logged where
  schema := h.schema
  root := h.root
  entityOf := h.entityOf
  join := by
    intro j j' hj segment x x' hx
    obtain ⟨hr, hs⟩ := h.join hj segment _ _ hx.1
    exact ⟨hr, hs, List.rel_append hx.2 (.cons ⟨hj, rfl⟩ .nil)⟩
  field := h.field
  compare hf op v := (h.compare hf op v).unlogged
  test hf t := (h.test hf t).unlogged
  like hf pattern negated := (h.like hf pattern negated).unlogged
  member hf vs := (h.member hf vs).unlogged
  between hf low high := (h.between hf low high).unlogged
  not hc := (h.not hc).unlogged
  combine hl hr op := (h.combine hl hr op).unlogged

end logged

/-! ### Trails in the calls -/

section trails

variable {σ P J F α β : Type} {b : Backend σ P J F} {trail : J → String}

/-- Of every join it can be told behind which trail it stands. -/
structure Backend.Traced (b : Backend σ P J F) (trail : J → String) : Prop where
  root : trail b.root = ""
  join : ∀ {j k segment state state'}, b.join j segment state = (some k, state') →
    trail k = extendTrail (trail j) segment

/-- The trail for which a join is asked. -/
def callTrail (trail : J → String) (call : J × String) : String := extendTrail (trail call.1) call.2

/-- **The calls after the trails `uses`:** one at the first use of each, and the joins that they have made
are remembered under these trails. -/
structure Logs (trail : J → String) (uses : List String) (p : Progress (σ × List (J × String)) J) :
    Prop where
  calls : p.backend.2.map (callTrail trail) = uses.eraseDups
  known : ∀ t, (p.joins.lookup t).isSome ↔ t ∈ uses
  leads : ∀ t j, p.joins.lookup t = some j → trail j = t

/-- **A compilation uses the trails `ts`**, or only the first of them if it fails. -/
def Uses (trail : J → String) (x : Compilation (σ × List (J × String)) J α) (ts : List String) : Prop :=
  ∀ uses p, Logs trail uses p →
    x.Ends p (fun _ q => Logs trail (uses ++ ts) q)
      fun q => ∃ used, used <+: ts ∧ q.backend.2.map (callTrail trail) = (uses ++ used).eraseDups

theorem Uses.bind {x : Compilation (σ × List (J × String)) J α}
    {f : α → Compilation (σ × List (J × String)) J β} {ts us : List String} (hx : Uses trail x ts)
    (hf : ∀ a, Uses trail (f a) us) : Uses trail (x >>= f) (ts ++ us) := by
  intro uses p hp
  refine ((hx uses p hp).mono (fun _ _ hq => hq) fun q hq => ?_).bind fun a q hq => ?_
  · obtain ⟨used, hused, hcalls⟩ := hq
    exact ⟨used, hused.trans (List.prefix_append ts us), hcalls⟩
  · refine (hf a (uses ++ ts) q hq).mono (fun _ q hq => ?_) fun q hq => ?_
    · rwa [List.append_assoc] at hq
    · obtain ⟨used, hused, hcalls⟩ := hq
      rw [List.append_assoc] at hcalls
      exact ⟨ts ++ used, (List.prefix_append_right_inj ts).mpr hused, hcalls⟩

/-- What uses no trails can stand behind anything. -/
theorem Uses.bind_nil {x : Compilation (σ × List (J × String)) J α}
    {f : α → Compilation (σ × List (J × String)) J β} {ts : List String} (hx : Uses trail x ts)
    (hf : ∀ a, Uses trail (f a) []) : Uses trail (x >>= f) ts := by
  have h := hx.bind hf
  rwa [List.append_nil] at h

/-- What changes nothing uses no trails. -/
theorem uses_still {x : Compilation (σ × List (J × String)) J α} (h : x.Still) : Uses trail x [] := by
  intro uses p hp
  refine h.ends (fun _ => ?_) ⟨[], List.prefix_refl [], ?_⟩
  · rwa [List.append_nil]
  · rw [List.append_nil]
    exact hp.calls

theorem uses_unlogged (step : StateM σ α) :
    Uses trail (build (unlogged step) : Compilation (σ × List (J × String)) J α) [] := by
  intro uses p hp
  refine ends_build ?_
  rw [List.append_nil]
  exact ⟨hp.calls, hp.known, hp.leads⟩

/-! ### Paths -/

/-- **A relationship** uses its trail. -/
theorem ends_joinOnce_logged (hb : b.Traced trail) {uses : List String}
    {p : Progress (σ × List (J × String)) J} (hp : Logs trail uses p) {t : String} {j : J}
    (hj : trail j = t) (path segment : String) :
    (b.logged.joinOnce path (extendTrail t segment) j segment).Ends p
      (fun k q => trail k = extendTrail t segment ∧ Logs trail (uses ++ [extendTrail t segment]) q)
      fun q => q.backend.2.map (callTrail trail) = (uses ++ [extendTrail t segment]).eraseDups := by
  have hcall : callTrail trail (j, segment) = extendTrail t segment := by
    unfold callTrail
    rw [hj]
  -- What is asked for here is not remembered, and so it is the first use of its trail.
  have hlog : p.joins.lookup (extendTrail t segment) = none →
      (p.backend.2 ++ [(j, segment)]).map (callTrail trail) =
        (uses ++ [extendTrail t segment]).eraseDups := by
    intro hnone
    have hnew : extendTrail t segment ∉ uses := by
      intro hmem
      have hsome := (hp.known _).mpr hmem
      rw [hnone] at hsome
      cases hsome
    rw [List.map_append, hp.calls, List.map_singleton, hcall, eraseDups_concat, if_neg hnew]
  refine Backend.ends_joinOnce (fun k hk => ?_) (fun k x hnone hmake => ?_) fun x hnone hmake => ?_
  · have hold : extendTrail t segment ∈ uses := (hp.known _).mp (by rw [hk]; rfl)
    refine ⟨hp.leads _ k hk, ?_, fun t' => ?_, hp.leads⟩
    · rw [eraseDups_concat, if_pos hold]
      exact hp.calls
    · rw [hp.known t', List.mem_append, List.mem_singleton]
      constructor
      · exact Or.inl
      · rintro (hmem | rfl)
        · exact hmem
        · exact hold
  · obtain ⟨hjoin, hcalls⟩ := eq_of_join_logged hmake
    have hk : trail k = extendTrail t segment := by rw [hb.join hjoin, hj]
    refine ⟨hk, ?_, fun t' => ?_, fun t' k' hk' => ?_⟩
    · dsimp only
      rw [hcalls]
      exact hlog hnone
    · rw [List.mem_append, List.mem_singleton, ← hp.known t', List.lookup_cons]
      cases ht : t' == extendTrail t segment with
      | true => simp [eq_of_beq ht]
      | false => simp [ne_of_beq_false ht]
    · rw [List.lookup_cons] at hk'
      split at hk'
      · next ht =>
        cases hk'
        rw [hk, eq_of_beq ht]
      · exact hp.leads t' k' hk'
  · obtain ⟨-, hcalls⟩ := eq_of_join_logged hmake
    dsimp only
    rw [hcalls]
    exact hlog hnone

/-- **A path** uses the trails of its relationships. -/
theorem uses_resolve (hb : b.Traced trail) (path : String) :
    Uses trail (b.logged.resolve path) (trailsFrom "" (AttributePath.ofText path).relations) := by
  intro uses p hp
  have hroot : trail b.logged.root = "" := hb.root
  have hjoins := Backend.ends_joinAlong (fun t j => trail j = t) (Logs trail)
    (fun uses q => q.backend.2.map (callTrail trail) = uses.eraseDups)
    (fun t segment j _ q hj hq => ends_joinOnce_logged hb hq hj path segment)
    (AttributePath.ofText path).relations "" uses hroot hp
  refine Backend.ends_resolve hjoins ?_ ?_ ?_
  · rintro js q ⟨-, hq⟩
    exact ⟨_, List.prefix_refl _, hq.calls⟩
  · rintro js q owner ⟨-, hq⟩
    exact ⟨_, List.prefix_refl _, hq.calls⟩
  · rintro js q f type ⟨-, hq⟩ - -
    exact ⟨hq.calls, hq.known, hq.leads⟩

end trails

/-! ### Predicates and groups -/

namespace Compiler

variable {σ P J F : Type} {b : Backend σ P J F} {trail : J → String}

/-- The trails along the path of a predicate. -/
def predicateTrails (c : Compiler) (p : Predicate) : List String :=
  trailsFrom "" (AttributePath.ofText (c.mapPath p.path)).relations

/-- The trails along all paths of a group, in the order in which they are used. -/
def trails (c : Compiler) (g : Group) : List String := g.predicates.flatMap c.predicateTrails

/-- **A predicate** uses the trails along its path. -/
theorem uses_reducePredicate (c : Compiler) (hb : b.Traced trail) (p : Predicate) :
    Uses trail (c.reducePredicate b.logged p) (c.predicateTrails p) := by
  unfold reducePredicate
  refine (uses_resolve hb (c.mapPath p.path)).bind_nil fun r => ?_
  cases p.operator with
  | compare op => exact (uses_still (still_readLast c _ r p)).bind_nil fun v => uses_unlogged _
  | test t => exact uses_unlogged _
  | like placement negated =>
    exact (uses_still (still_readPattern p placement)).bind_nil fun pattern => uses_unlogged _
  | member negated =>
    refine (uses_still (still_readOperands c _ r p.operands)).bind_nil fun vs => ?_
    refine (uses_unlogged _).bind_nil fun m => ?_
    cases negated with
    | true => exact uses_unlogged _
    | false => exact uses_still (still_pure m)
  | between =>
    dsimp only
    rcases p.bounds? with _ | ⟨low, high⟩
    · exact uses_still (still_throw _)
    · refine (uses_still (still_readOperand c _ r low)).bind_nil fun v => ?_
      exact (uses_still (still_readOperand c _ r high)).bind_nil fun w => uses_unlogged _

mutual

/-- **A group** uses the trails along its paths. -/
theorem uses_reduceGroup (c : Compiler) (hb : b.Traced trail) :
    ∀ g : Group, Uses trail (c.reduceGroup b.logged g) (c.trails g)
  | .one clause => by
    unfold reduceGroup
    exact uses_reduceClause c hb clause
  | .join group op clause => by
    have hleft := uses_reduceGroup c hb group
    have hright := uses_reduceClause c hb clause
    unfold reduceGroup trails
    rw [Group.predicates, List.flatMap_append]
    exact hleft.bind fun l => hright.bind_nil fun r => uses_unlogged _

theorem uses_reduceClause (c : Compiler) (hb : b.Traced trail) :
    ∀ clause : Clause, Uses trail (c.reduceClause b.logged clause)
      ((Group.clausePredicates clause).flatMap c.predicateTrails)
  | .predicate p => by
    unfold reduceClause
    rw [Group.clausePredicates, List.flatMap_singleton]
    exact uses_reducePredicate c hb p
  | .group group => by
    unfold reduceClause
    exact uses_reduceGroup c hb group

end

/-- A reduction that is written down is the same reduction. -/
theorem reduce_logged (c : Compiler) (b : Backend σ P J F) (state : σ) (cache : FieldCache)
    (g : Group) :
    (c.reduce b.logged (state, []) cache g).result = (c.reduce b state cache g).result ∧
      (c.reduce b.logged (state, []) cache g).backend.1 = (c.reduce b state cache g).backend := by
  have hstart : ((state, []) : σ × List (J × String)).1 = state := rfl
  obtain ⟨hresult, hstate, -⟩ := (simulation_logged b).reduce c hstart cache g
  exact ⟨hresult.eq.symm, hstate⟩

/-- **The calls of a whole reduction:** one at the first use of each trail, up to some place if it
fails. -/
theorem calls_of_reduce (c : Compiler) (hb : b.Traced trail) (state : σ) (cache : FieldCache)
    (g : Group) :
    ∃ used, used <+: c.trails g ∧
      (c.reduce b.logged (state, []) cache g).backend.2.map (callTrail trail) = used.eraseDups ∧
      ∀ m, (c.reduce b.logged (state, []) cache g).result = .ok m → used = c.trails g := by
  have hstart : Logs trail [] (⟨(state, []), [], cache⟩ : Progress (σ × List (J × String)) J) :=
    ⟨rfl, fun t => by simp, nofun⟩
  have hends := uses_reduceGroup c hb g [] _ hstart
  rw [reduce_eq]
  rcases hrun : (c.reduceGroup b.logged g).runFrom ⟨(state, []), [], cache⟩ with ⟨e | m, q⟩
  · obtain ⟨used, hused, hcalls⟩ := hends.error hrun
    exact ⟨used, hused, hcalls, nofun⟩
  · have hlogs := hends.ok hrun
    exact ⟨c.trails g, List.prefix_refl _, hlogs.calls, fun _ _ => rfl⟩

end Compiler

end RecordFilter

import RecordFilter.Proofs.Resolution

/-!
# From predicates to conditions

Once the path of a predicate is resolved, its condition depends on the field and its type only
(`Compiler.conditionFor`, `runFrom_reducePredicate`).

A group becomes a condition of the same shape (`Group.Becomes`), whose predicates are reduced one after
the other, in the order in which they are written.  `reduceGroup_rule` carries over to groups what is
known of each single predicate: an invariant of the progress, indexed by the predicates that have been
reduced, and a relation between a predicate and its condition.
-/

namespace RecordFilter

open Compilation

/-! ### One predicate -/

namespace Compiler

/-- The condition of a predicate on a field of a known type. -/
def conditionFor (c : Compiler) (s : Schema) (r : ResolvedPath Join FieldRef) (p : Predicate) :
    Except CompileError Condition :=
  match p.operator with
  | .compare op =>
    match p.operands.getLast? with
    | some o => (c.registry.convertTo s r.type r.name o.text).map (.compare r.field op)
    | none => .error (.malformed ⟨p.position, .noValue p.operator⟩)
  | .test t => .ok (.test r.field t)
  | .like placement negated =>
    match p.operands.getLast? with
    | some (.string text) => .ok (.like r.field (likePattern placement (Text.upper text)) negated)
    | _ => .error (.malformed ⟨p.position, .noString p.operator⟩)
  | .member negated => do
    let vs ← p.operands.mapM fun o => c.registry.convertTo s r.type r.name o.text
    return if negated then .not (.member r.field vs) else .member r.field vs
  | .between =>
    match p.bounds? with
    | none => .error (.malformed ⟨p.position, .noBounds⟩)
    | some (low, high) => do
      let low ← c.registry.convertTo s r.type r.name low.text
      let high ← c.registry.convertTo s r.type r.name high.text
      return .between r.field low high

variable {σ J : Type} (c : Compiler) (s : Schema) (root : String)

theorem runFrom_readOperand (r : ResolvedPath J FieldRef) (o : Operand) (p : Progress σ J) :
    (c.readOperand s r o).runFrom p = (c.registry.convertTo s r.type r.name o.text, p) := by
  unfold readOperand
  cases c.registry.convertTo s r.type r.name o.text <;> rfl

/-- Reading several literals changes nothing either. -/
theorem runFrom_mapM_readOperand (r : ResolvedPath J FieldRef) (os : List Operand)
    (p : Progress σ J) :
    (os.mapM (c.readOperand s r)).runFrom p =
      (os.mapM fun o => c.registry.convertTo s r.type r.name o.text, p) := by
  induction os with
  | nil => rfl
  | cons o os ih =>
    rw [List.mapM_cons, List.mapM_cons]
    refine runFrom_bind_of (runFrom_readOperand c s r o p) fun v => ?_
    exact runFrom_bind_of ih fun vs => rfl

/-- **A predicate** is its path, resolved, and then its condition on the field. -/
theorem runFrom_reducePredicate (p : Predicate) (st : Progress (List JoinRecord) Join) :
    (c.reducePredicate (Condition.backend s root) p).runFrom st =
      match ((Condition.backend s root).resolve (c.mapPath p.path)).runFrom st with
      | (.ok r, st') => (c.conditionFor s r p, st')
      | (.error e, st') => (.error e, st') := by
  unfold reducePredicate
  rw [runFrom_bind]
  rcases ((Condition.backend s root).resolve (c.mapPath p.path)).runFrom st with ⟨e | r, st'⟩
  · rfl
  · dsimp only
    unfold conditionFor readLast readPattern
    cases p.operator with
    | compare op =>
      dsimp only
      cases p.operands.getLast? with
      | none => rfl
      | some o => exact runFrom_bind_of (runFrom_readOperand c s r o st') fun v => rfl
    | test t => rfl
    | like placement negated =>
      dsimp only
      rcases p.operands.getLast? with _ | ⟨text | text⟩ <;> rfl
    | member negated =>
      refine runFrom_bind_of (runFrom_mapM_readOperand c s r p.operands st') fun vs => ?_
      cases negated <;> rfl
    | between =>
      dsimp only
      rcases p.bounds? with _ | ⟨low, high⟩
      · rfl
      · refine runFrom_bind_of (runFrom_readOperand c s r low st') fun v => ?_
        exact runFrom_bind_of (runFrom_readOperand c s r high st') fun w => rfl

/-- **One predicate** adds the beginnings of its path and keeps the cache coherent; and if it has a
condition, it has it for the resolution of the path. -/
theorem reducePredicate_spec {c : Compiler} {s : Schema} {root : String} {old : List JoinRecord}
    {uses : List (List String)} {st : Progress (List JoinRecord) Join} {p : Predicate}
    (ht : Tracks s root old uses st) (hn : "" ∉ Text.pieces '.' (c.mapPath p.path)) :
    Tracks s root old (uses ++ pathUses s root (c.mapPath p.path))
        ((c.reducePredicate (Condition.backend s root) p).runFrom st).2 ∧
      (st.cache.Coherent s →
        ((c.reducePredicate (Condition.backend s root) p).runFrom st).2.cache.Coherent s) ∧
      ∀ cond, ((c.reducePredicate (Condition.backend s root) p).runFrom st).1 = .ok cond →
        ∃ r, Resolution s root (c.mapPath p.path) st.cache
            (joinId old.length (uses ++ pathUses s root (c.mapPath p.path))
              (AttributePath.ofText (c.mapPath p.path)).relations) (.ok r) ∧
          c.conditionFor s r p = .ok cond := by
  obtain ⟨ht', hc, hres⟩ := resolve_spec ht hn
  rw [runFrom_reducePredicate]
  rcases hr : ((Condition.backend s root).resolve (c.mapPath p.path)).runFrom st with ⟨e | r, st'⟩
  · rw [hr] at ht' hc
    refine ⟨ht', hc, fun cond h => ?_⟩
    cases h
  · rw [hr] at ht' hc hres
    exact ⟨ht', hc, fun cond h => ⟨r, hres, h⟩⟩

/-- What there is to say of a predicate that has a condition, operator by operator. -/
inductive ConditionOf (c : Compiler) (s : Schema) (r : ResolvedPath Join FieldRef) (p : Predicate) :
    Condition → Prop
  | compare {op : Comparison} {o : Operand} {v : Value} (operator : p.operator = .compare op)
      (last : p.operands.getLast? = some o)
      (value : c.registry.convertTo s r.type r.name o.text = .ok v) :
      ConditionOf c s r p (.compare r.field op v)
  | test {t : Test} (operator : p.operator = .test t) : ConditionOf c s r p (.test r.field t)
  | like {placement : Placement} {negated : Bool} {text : String}
      (operator : p.operator = .like placement negated)
      (last : p.operands.getLast? = some (.string text)) :
      ConditionOf c s r p (.like r.field (likePattern placement (Text.upper text)) negated)
  | member {negated : Bool} {vs : List Value} (operator : p.operator = .member negated)
      (values : (p.operands.mapM fun o => c.registry.convertTo s r.type r.name o.text) = .ok vs) :
      ConditionOf c s r p (if negated then .not (.member r.field vs) else .member r.field vs)
  | between {low high : Operand} {v w : Value} (operator : p.operator = .between)
      (bounds : p.bounds? = some (low, high))
      (lowValue : c.registry.convertTo s r.type r.name low.text = .ok v)
      (highValue : c.registry.convertTo s r.type r.name high.text = .ok w) :
      ConditionOf c s r p (.between r.field v w)

theorem conditionOf_of_conditionFor {c : Compiler} {s : Schema} {r : ResolvedPath Join FieldRef}
    {p : Predicate} {cond : Condition} (h : c.conditionFor s r p = .ok cond) :
    ConditionOf c s r p cond := by
  unfold conditionFor at h
  split at h
  · next op hop =>
    split at h
    · next o ho =>
      obtain ⟨v, hv, hret⟩ := bind_eq_ok.mp h
      cases hret
      exact .compare hop ho hv
    · cases h
  · next t hop =>
    cases h
    exact .test hop
  · next placement negated hop =>
    split at h
    · next text ho =>
      cases h
      exact .like hop ho
    · cases h
  · next negated hop =>
    obtain ⟨vs, hvs, hret⟩ := bind_eq_ok.mp h
    cases hret
    exact .member hop hvs
  · next hop =>
    split at h
    · cases h
    · next low high hb =>
      obtain ⟨v, hv, hrest⟩ := bind_eq_ok.mp h
      obtain ⟨w, hw, hret⟩ := bind_eq_ok.mp hrest
      cases hret
      exact .between hop hb hv hw

/-- All tests of the condition are tests of the one field. -/
theorem field_of_mem_atoms {c : Compiler} {s : Schema} {r : ResolvedPath Join FieldRef}
    {p : Predicate} {cond : Condition} (h : c.conditionFor s r p = .ok cond) {a : Atom}
    (ha : a ∈ cond.atoms) : a.field = r.field := by
  rcases conditionOf_of_conditionFor h with _ | _ | _ | @⟨negated, _⟩ | _
  case member =>
    cases negated <;> exact congrArg Atom.field (List.mem_singleton.mp ha)
  all_goals rw [List.mem_singleton.mp ha]

end Compiler

/-! ### Groups -/

namespace Group

mutual

/-- The condition has the shape of the group, and each of its predicates has become a condition as `Q`
says. -/
def Becomes (Q : Predicate → Condition → Prop) : Group → Condition → Prop
  | one clause, cond => clauseBecomes Q clause cond
  | join group op clause, cond =>
    ∃ l r, Becomes Q group l ∧ clauseBecomes Q clause r ∧ cond = Condition.combine op l r

def clauseBecomes (Q : Predicate → Condition → Prop) : Clause → Condition → Prop
  | .predicate p, cond => Q p cond
  | .group group, cond => Becomes Q group cond

end

end Group

theorem Condition.mem_atoms_combine {op : Connective} {l r : Condition} {a : Atom} :
    a ∈ (Condition.combine op l r).atoms ↔ a ∈ l.atoms ∨ a ∈ r.atoms := by
  cases op <;> exact List.mem_append

namespace Group

variable {Q : Predicate → Condition → Prop}

mutual

/-- Every test of the condition comes from one of the predicates. -/
theorem Becomes.exists_predicate {a : Atom} : ∀ {g : Group} {cond : Condition}, g.Becomes Q cond →
    a ∈ cond.atoms → ∃ p ∈ g.predicates, ∃ c, Q p c ∧ a ∈ c.atoms
  | one _, _, h, ha => clauseBecomes.exists_predicate h ha
  | join _ _ _, _, h, ha => by
    obtain ⟨l, r, hl, hr, rfl⟩ := h
    rcases Condition.mem_atoms_combine.mp ha with ha | ha
    · obtain ⟨p, hp, hq⟩ := Becomes.exists_predicate hl ha
      exact ⟨p, List.mem_append_left _ hp, hq⟩
    · obtain ⟨p, hp, hq⟩ := clauseBecomes.exists_predicate hr ha
      exact ⟨p, List.mem_append_right _ hp, hq⟩

theorem clauseBecomes.exists_predicate {a : Atom} : ∀ {clause : Clause} {cond : Condition},
    clauseBecomes Q clause cond → a ∈ cond.atoms →
      ∃ p ∈ clausePredicates clause, ∃ c, Q p c ∧ a ∈ c.atoms
  | .predicate p, cond, h, ha => ⟨p, List.mem_singleton_self p, cond, h, ha⟩
  | .group group, _, h, ha => Becomes.exists_predicate (g := group) h ha

end

end Group

section Rule

variable {c : Compiler} {s : Schema} {root : String}

/-- **Where a reduction ends** that has begun behind the predicates `done`: all predicates `ps` are
reduced and the condition is as `B` says, or one of them fails and those before it do not. -/
inductive Reduced (c : Compiler) (s : Schema) (root : String)
    (Inv : List Predicate → Progress (List JoinRecord) Join → Prop)
    (Q : Predicate → Condition → Prop) (done ps : List Predicate) (B : Condition → Prop) :
    Except CompileError Condition × Progress (List JoinRecord) Join → Prop
  | built {cond : Condition} {st : Progress (List JoinRecord) Join} (inv : Inv (done ++ ps) st)
      (before : ∀ q ∈ ps, ∃ d, Q q d) (shape : B cond) : Reduced c s root Inv Q done ps B (.ok cond, st)
  | stopped {before after : List Predicate} {p : Predicate} {e : CompileError}
      {st₀ st : Progress (List JoinRecord) Join} (split : ps = before ++ p :: after)
      (inv : Inv (done ++ before) st₀) (reduced : ∀ q ∈ before, ∃ d, Q q d)
      (fails : (c.reducePredicate (Condition.backend s root) p).runFrom st₀ = (.error e, st)) :
      Reduced c s root Inv Q done ps B (.error e, st)

/-- What each predicate keeps: the invariant, and the relation to its condition.  Only the predicates
of `all`, in their order, have to be looked at. -/
def KeptBy (c : Compiler) (s : Schema) (root : String) (all : List Predicate)
    (Inv : List Predicate → Progress (List JoinRecord) Join → Prop)
    (Q : Predicate → Condition → Prop) : Prop :=
  ∀ done p st, done ++ [p] <+: all → Inv done st →
    Inv (done ++ [p]) ((c.reducePredicate (Condition.backend s root) p).runFrom st).2 ∧
      ∀ cond, ((c.reducePredicate (Condition.backend s root) p).runFrom st).1 = .ok cond → Q p cond

variable {all : List Predicate} {Inv : List Predicate → Progress (List JoinRecord) Join → Prop}
  {Q : Predicate → Condition → Prop}

mutual

/-- **The rule for groups:** what each predicate keeps, the whole group keeps. -/
theorem reduceGroup_rule (h : KeptBy c s root all Inv Q) :
    ∀ (g : Group) {done : List Predicate} {st : Progress (List JoinRecord) Join},
      done ++ g.predicates <+: all → Inv done st →
      Reduced c s root Inv Q done g.predicates (g.Becomes Q)
        ((c.reduceGroup (Condition.backend s root) g).runFrom st)
  | .one clause, done, st, hall, hinv => by
    unfold Compiler.reduceGroup
    exact reduceClause_rule h clause hall hinv
  | .join group op clause, done, st, hall, hinv => by
    rw [Group.predicates, ← List.append_assoc] at hall
    have hleft := reduceGroup_rule h group ((List.prefix_append _ _).trans hall) hinv
    unfold Compiler.reduceGroup
    rw [runFrom_bind]
    rcases hr : (c.reduceGroup (Condition.backend s root) group).runFrom st with ⟨e | l, st₁⟩
    · rw [hr] at hleft
      cases hleft with
      | stopped split inv reduced fails =>
        rw [Group.predicates, split, List.append_assoc]
        exact .stopped rfl inv reduced fails
    · rw [hr] at hleft
      cases hleft with
      | built inv before shape =>
        have hright := reduceClause_rule h clause hall inv
        dsimp only
        rw [runFrom_bind]
        rcases hr' : (c.reduceClause (Condition.backend s root) clause).runFrom st₁ with
          ⟨e | r, st₂⟩
        · rw [hr'] at hright
          cases hright with
          | @stopped before' after p _ _ _ split inv' reduced fails =>
            have hs : (Group.join group op clause).predicates =
                (group.predicates ++ before') ++ p :: after := by
              rw [Group.predicates, split, List.append_assoc]
            rw [List.append_assoc] at inv'
            refine .stopped hs inv' ?_ fails
            intro q hq
            exact (List.mem_append.mp hq).elim (before q) (reduced q)
        · rw [hr'] at hright
          cases hright with
          | built inv' before' shape' =>
            rw [List.append_assoc] at inv'
            refine .built inv' ?_ ⟨l, r, shape, shape', rfl⟩
            intro q hq
            exact (List.mem_append.mp hq).elim (before q) (before' q)

theorem reduceClause_rule (h : KeptBy c s root all Inv Q) :
    ∀ (clause : Clause) {done : List Predicate} {st : Progress (List JoinRecord) Join},
      done ++ Group.clausePredicates clause <+: all → Inv done st →
      Reduced c s root Inv Q done (Group.clausePredicates clause) (Group.clauseBecomes Q clause)
        ((c.reduceClause (Condition.backend s root) clause).runFrom st)
  | .predicate p, done, st, hall, hinv => by
    obtain ⟨hinv', hq⟩ := h done p st hall hinv
    unfold Compiler.reduceClause
    rcases hr : (c.reducePredicate (Condition.backend s root) p).runFrom st with ⟨e | cond, st'⟩
    · have hs : Group.clausePredicates (.predicate p) = [] ++ p :: [] := rfl
      exact .stopped hs (by simpa using hinv) (by simp) hr
    · rw [hr] at hinv' hq
      refine .built hinv' ?_ (hq cond rfl)
      intro q hmem
      rw [Group.clausePredicates, List.mem_singleton] at hmem
      exact ⟨cond, hmem ▸ hq cond rfl⟩
  | .group group, done, st, hall, hinv => by
    unfold Compiler.reduceClause
    exact reduceGroup_rule h group hall hinv

end

/-- A group that has been reduced from the start of a compilation. -/
theorem reduceGroup_built (h : KeptBy c s root all Inv Q) {g : Group} (hall : g.predicates <+: all)
    {st st' : Progress (List JoinRecord) Join} (hinv : Inv [] st) {cond : Condition}
    (hrun : (c.reduceGroup (Condition.backend s root) g).runFrom st = (.ok cond, st')) :
    Inv g.predicates st' ∧ (∀ p ∈ g.predicates, ∃ d, Q p d) ∧ g.Becomes Q cond := by
  have hr : Reduced c s root Inv Q [] g.predicates (g.Becomes Q)
      ((c.reduceGroup (Condition.backend s root) g).runFrom st) := reduceGroup_rule h g hall hinv
  rw [hrun] at hr
  cases hr with
  | built inv before shape => exact ⟨inv, before, shape⟩

end Rule

/-! ### Texts -/

/-- A text that compiles is a group that is reduced. -/
theorem Compiler.compile_ok {c : Compiler} {s : Schema} {root text : String} {old : List JoinRecord}
    {cache : FieldCache} {cond : Condition}
    (h : (c.compile (Condition.backend s root) old cache text).result = .ok cond) :
    ∃ g st, parse text = .ok g ∧
      (c.reduceGroup (Condition.backend s root) g).runFrom ⟨old, [], cache⟩ = (.ok cond, st) ∧
      c.compile (Condition.backend s root) old cache text = ⟨.ok cond, st.backend, st.cache⟩ := by
  unfold compile at h ⊢
  cases hg : parse text with
  | error e =>
    rw [hg] at h
    cases h
  | ok g =>
    rw [hg] at h
    dsimp only at h ⊢
    rw [reduce_eq] at h ⊢
    rcases hr : (c.reduceGroup (Condition.backend s root) g).runFrom ⟨old, [], cache⟩ with ⟨res, st⟩
    rw [hr] at h
    cases h
    exact ⟨g, st, rfl, hr, rfl⟩

end RecordFilter

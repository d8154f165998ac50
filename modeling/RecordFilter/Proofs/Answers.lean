import RecordFilter.Proofs.OnePredicate

/-!
# What filters answer

Of a record a filter answers whether it passes, if it compiles at all (`answer?`).  The joins that have been
made before, the field types and the patterns that are remembered play no part in this, as long as nothing
wrong is remembered (`Circumstances`): a text that is a filter compiles just if its group has a verdict, and
then the verdict is its answer (`answer?_eq_verdict?`).  A verdict does not depend on the positions of
predicates either, and so all texts of a group answer alike (`answer?_of_reads`).
-/

namespace RecordFilter

/-- What a filter may find when it is compiled and evaluated: joins, field types and patterns of others, of
which no type and no pattern is wrong. -/
structure Circumstances (s : Schema) where
  joins : List JoinRecord
  cache : FieldCache
  evaluator : Evaluator
  coherent : cache.Coherent s
  faithful : evaluator.Faithful

/-- Nothing has been made and nothing is remembered. -/
def Circumstances.fresh (s : Schema) : Circumstances s :=
  ⟨[], .empty, .new, FieldCache.empty_coherent s, Evaluator.faithful_new⟩

/-- Whether the record passes the filter, if the filter compiles, with paths as they are written. -/
def answer? (registry : Registry) {s : Schema} (root : String) (k : Circumstances s) (text : String)
    (record : Json) : Option Bool :=
  let compiled := (Compiler.compile ⟨registry, id⟩ (Condition.backend s root) k.joins k.cache text).result
  compiled.toOption.map fun cond => ((Evaluator.holds record cond).run k.evaluator).1

/-- The text is the group, wherever the predicates of the group stand in it. -/
def Reads (text : String) (g : Group) : Prop := (parse text).map Group.unplaced = .ok g.unplaced

instance (text : String) (g : Group) : Decidable (Reads text g) := inferInstanceAs (Decidable (_ = _))

section verdict

variable {registry : Registry} {s : Schema} {root : String} {record : Json}

/-! ### A predicate with a verdict compiles -/

/-- **Where the literals have values of the type of the field, the predicate has a condition.** -/
theorem conditionAlone_of_verdict? {p : Predicate} {b : Bool}
    (h : p.verdict? registry s root record = some b) :
    ∃ cond, Compiler.conditionAlone ⟨registry, id⟩ s root p = .ok cond := by
  unfold Predicate.verdict? at h
  obtain ⟨t, ht, h⟩ := Option.bind_eq_some_iff.mp h
  obtain ⟨r, hr, rfl, -⟩ := Schema.resolve_of_typeAlong? ht
  have hread : ∀ {o : Operand} {v : Value}, (registry.read s r.type o.text).toOption = some v →
      registry.convertTo s r.type r.name o.text = .ok v :=
    fun hv => Registry.convertTo_eq_ok.mpr (toOption_eq_some.mp hv)
  suffices hcond : ∃ cond, Compiler.conditionFor ⟨registry, id⟩ s r p = .ok cond by
    obtain ⟨cond, hcond⟩ := hcond
    exact ⟨cond, bind_eq_ok.mpr ⟨r, hr, hcond⟩⟩
  unfold Compiler.conditionFor
  dsimp only at h ⊢
  cases hop : p.operator with
  | compare op =>
    simp only [hop] at h ⊢
    obtain ⟨o, ho, h⟩ := Option.bind_eq_some_iff.mp h
    obtain ⟨v, hv, -⟩ := Option.bind_eq_some_iff.mp h
    simp only [ho, hread hv]
    exact ⟨_, rfl⟩
  | test t => exact ⟨_, rfl⟩
  | like placement negated =>
    simp only [hop] at h ⊢
    rcases hlast : p.operands.getLast? with _ | ⟨text | text⟩
    · simp [hlast] at h
    · exact ⟨_, rfl⟩
    · simp [hlast] at h
  | member negated =>
    simp only [hop] at h ⊢
    obtain ⟨vs, hvs, -⟩ := Option.bind_eq_some_iff.mp h
    have hconvert := toOption_eq_some.mp ((Registry.toOption_mapM_convertTo r.name p.operands).trans hvs)
    simp only [hconvert]
    exact ⟨_, rfl⟩
  | between =>
    simp only [hop] at h ⊢
    obtain ⟨⟨low, high⟩, hbounds, h⟩ := Option.bind_eq_some_iff.mp h
    obtain ⟨v, hv, h⟩ := Option.bind_eq_some_iff.mp h
    obtain ⟨w, hw, -⟩ := Option.bind_eq_some_iff.mp h
    simp only [hbounds, hread hv, hread hw]
    exact ⟨_, rfl⟩

/-! ### Groups -/

mutual

/-- A group has a verdict only if each of its predicates has one. -/
theorem Group.exists_verdict? : ∀ {g : Group} {b : Bool}, g.verdict? registry s root record = some b →
    ∀ p ∈ g.predicates, ∃ b', p.verdict? registry s root record = some b'
  | .one clause, _, h => Group.exists_clauseVerdict? h
  | .join group op clause, _, h => by
    rw [Group.verdict?] at h
    obtain ⟨l, hl, h⟩ := Option.bind_eq_some_iff.mp h
    obtain ⟨r, hr, -⟩ := Option.bind_eq_some_iff.mp h
    rw [Group.predicates, List.forall_mem_append]
    exact ⟨Group.exists_verdict? hl, Group.exists_clauseVerdict? hr⟩

theorem Group.exists_clauseVerdict? : ∀ {clause : Clause} {b : Bool},
    Group.clauseVerdict? registry s root record clause = some b →
      ∀ p ∈ Group.clausePredicates clause, ∃ b', p.verdict? registry s root record = some b'
  | .predicate _, b, h, _, hp => ⟨b, List.mem_singleton.mp hp ▸ h⟩
  | .group group, _, h, p, hp => Group.exists_verdict? (g := group) h p hp

end

mutual

/-- Where the predicates stand does not matter. -/
theorem Group.verdict?_unplaced : ∀ g : Group,
    g.unplaced.verdict? registry s root record = g.verdict? registry s root record
  | .one clause => Group.clauseVerdict?_unplaced clause
  | .join group op clause => by
    have hgroup := Group.verdict?_unplaced group
    rw [Group.unplaced] at hgroup
    rw [Group.unplaced, Group.mapPredicates, Group.verdict?, Group.verdict?, hgroup,
      Group.clauseVerdict?_unplaced clause]

theorem Group.clauseVerdict?_unplaced : ∀ clause : Clause,
    Group.clauseVerdict? registry s root record (Group.mapClause Predicate.unplaced clause) =
      Group.clauseVerdict? registry s root record clause
  | .predicate _ => rfl
  | .group group => Group.verdict?_unplaced group

end

/-- **The answer of a filter is the verdict of its group**, and it compiles if there is one. -/
theorem answer?_eq_verdict? {text : String} {g : Group} (hg : parse text = .ok g) (k : Circumstances s) :
    answer? registry root k text record = g.verdict? registry s root record := by
  unfold answer?
  dsimp only
  have hcompiled := Compiler.compile_of_parse (c := ⟨registry, id⟩) (b := Condition.backend s root) hg rfl
    k.joins k.cache
  cases hresult : (Compiler.compile ⟨registry, id⟩ (Condition.backend s root) k.joins k.cache
      text).result with
  | ok cond =>
    obtain ⟨g', hg', hverdict⟩ := compile_meaning k.coherent hresult
    cases hg.symm.trans hg'
    exact (hverdict record k.evaluator k.faithful).1.symm
  | error e =>
    cases hverdict : g.verdict? registry s root record with
    | none => rfl
    | some b =>
      -- every predicate has a verdict, so every predicate compiles, and the group does
      have hstart := Behind.start k.coherent ⟨registry, id⟩ root k.joins
      obtain ⟨cond, hcond⟩ := (hstart.reduceGroup_ok_iff (allNamed_of_parse rfl hg)).mpr fun p hp =>
        (Group.exists_verdict? hverdict p hp).elim fun _ h => conditionAlone_of_verdict? h
      rw [hcompiled, Compiler.reduce_eq, hcond] at hresult
      cases hresult

/-- All texts of a group answer alike. -/
theorem answer?_of_reads {text : String} {g : Group} (h : Reads text g) (k : Circumstances s) :
    answer? registry root k text record = g.verdict? registry s root record := by
  obtain ⟨g', hparse, hplaces⟩ := map_eq_ok.mp h
  rw [answer?_eq_verdict? hparse, ← Group.verdict?_unplaced, hplaces, Group.verdict?_unplaced]

end verdict

end RecordFilter

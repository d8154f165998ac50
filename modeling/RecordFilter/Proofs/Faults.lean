import RecordFilter.Proofs.Alone

/-!
# Where a compilation fails

A text that is no filter is reported as such, and a filter is never reported as malformed, since what has
been read has the operands that its operators take (`Compiler.conditionFor_error`).  A filter that fails
does so at the first of its predicates that fails alone, with the fault of that predicate.  If a path leads
nowhere, the fault names the first segment that does (`Schema.LostAt`).  What has been joined until then
stays joined: the beginnings of the paths before, and those of the failing one that can be followed.

`fault_of_compile` puts these together.
-/

namespace RecordFilter

open Compilation

/-! ### Segments that lead nowhere -/

/-- The first segment of a path that leads nowhere: along those before it one comes to an entity type,
where it is no relationship, or no field if it is the last. -/
def Schema.LostAt (s : Schema) (root path x : String) : Prop :=
  ∃ (before rest : List String) (owner : String), Text.pieces '.' path = before ++ x :: rest ∧
    s.entityAlong? root before = some owner ∧
      if rest = [] then s.fieldType? owner x = none else s.target? owner x = none

/-- Relationships that cannot be followed have a first one that cannot. -/
theorem Schema.navigable_of_entityAlong?_none {s : Schema} {root : String} {q : List String}
    (h : s.entityAlong? root q = none) :
    ∃ x more owner, q = s.navigable root q ++ x :: more ∧
      s.entityAlong? root (s.navigable root q) = some owner ∧ s.target? owner x = none := by
  induction q generalizing root with
  | nil => cases h
  | cons x q ih =>
    rw [entityAlong?] at h
    rw [navigable]
    cases ht : s.target? root x with
    | none => exact ⟨x, q, root, rfl, rfl, ht⟩
    | some e =>
      rw [ht, Option.bind_some] at h
      obtain ⟨y, more, owner, hq, ho, hy⟩ := ih h
      refine ⟨y, more, owner, congrArg (x :: ·) hq, ?_, hy⟩
      rw [entityAlong?, ht]
      exact ho

theorem Schema.resolve_error {s : Schema} {root path : String} {e : CompileError}
    (h : s.resolve root path = .error e) : ∃ x, e = .unresolved path x ∧ s.LostAt root path x := by
  unfold resolve at h
  dsimp only at h
  have hpieces := AttributePath.pieces_eq path
  split at h
  · rename_i hnone
    obtain ⟨x, more, owner, hq, ho, hx⟩ := navigable_of_entityAlong?_none hnone
    have hdrop : (AttributePath.ofText path).relations.drop
        (s.navigable root (AttributePath.ofText path).relations).length = x :: more :=
      (congrArg (List.drop _) hq).trans List.drop_left
    rw [hdrop] at h
    refine ⟨x, (Except.error.inj h).symm, s.navigable root (AttributePath.ofText path).relations,
      more ++ [(AttributePath.ofText path).field], owner, ?_, ho, ?_⟩
    · rw [hpieces]
      nth_rewrite 1 [hq]
      rw [List.append_assoc, List.cons_append]
    · rw [if_neg (by simp)]
      exact hx
  · rename_i owner ho
    split at h
    · rename_i hf
      exact ⟨_, (Except.error.inj h).symm, (AttributePath.ofText path).relations, [], owner, hpieces, ho,
        (if_pos rfl).mpr hf⟩
    · cases h

/-- Behind a relationship that cannot be followed nothing can. -/
theorem Schema.entityAlong?_append_none {s : Schema} {root : String} {q : List String}
    (h : s.entityAlong? root q = none) (more : List String) :
    s.entityAlong? root (q ++ more) = none := by
  induction more using List.reverseRecOn with
  | nil => rwa [List.append_nil]
  | append_singleton more x ih => rw [← List.append_assoc, entityAlong?_concat, ih, Option.bind_none]

theorem filter_prefixesFrom {s : Schema} {root owner : String} {q : List String}
    (h : s.entityAlong? root q = some owner) (rest : List String) :
    (prefixesFrom q rest).filter (fun r => (s.entityAlong? root r).isSome) =
      prefixesFrom q (s.navigable owner rest) := by
  induction rest generalizing q owner with
  | nil => rfl
  | cons x rest ih =>
    have hx : s.entityAlong? root (q ++ [x]) = s.target? owner x := by
      rw [Schema.entityAlong?_concat, h, Option.bind_some]
    rw [Schema.navigable, prefixesFrom]
    cases ht : s.target? owner x with
    | some e =>
      rw [ht] at hx
      rw [List.filter_cons_of_pos (by rw [hx]; rfl), ih hx]
      rfl
    | none =>
      rw [ht] at hx
      refine List.filter_eq_nil_iff.mpr fun r hr => ?_
      have hnone : s.entityAlong? root r = none := by
        rcases List.mem_cons.mp hr with rfl | hr
        · exact hx
        · obtain ⟨more, -, -, rfl⟩ := mem_prefixesFrom.mp hr
          exact Schema.entityAlong?_append_none hx more
      rw [hnone]
      simp

/-- The beginnings that a path uses are those that can be followed. -/
theorem pathUses_eq_filter (s : Schema) (root path : String) :
    pathUses s root path = (properPrefixes path).filter fun q => (s.entityAlong? root q).isSome := by
  rw [properPrefixes_eq]
  exact (filter_prefixesFrom rfl _).symm

/-! ### Literals that cannot be read -/

theorem exists_error_of_mapM {α β ε : Type} {f : α → Except ε β} {xs : List α} {e : ε}
    (h : xs.mapM f = .error e) : ∃ x ∈ xs, f x = .error e := by
  induction xs with
  | nil => cases h
  | cons x xs ih =>
    rw [List.mapM_cons] at h
    rcases bind_eq_error.mp h with h | ⟨y, -, h⟩
    · exact ⟨x, List.mem_cons_self, h⟩
    · rcases bind_eq_error.mp h with h | ⟨ys, -, h⟩
      · obtain ⟨z, hz, hf⟩ := ih h
        exact ⟨z, List.mem_cons_of_mem x hz, hf⟩
      · cases h

namespace Compiler

variable {c : Compiler} {s : Schema} {root : String}

/-- **A predicate with the operands of its operator** fails only at a literal that has no value of the type
of the field. -/
theorem conditionFor_error {r : ResolvedPath Join FieldRef} {p : Predicate} {e : CompileError}
    (hp : p.operator.arity.Takes p.operands) (h : c.conditionFor s r p = .error e) :
    ∃ o ∈ p.operands, c.registry.convertTo s r.type r.name o.text = .error e := by
  obtain ⟨path, op, xs, position⟩ := p
  unfold conditionFor at h
  cases op with
  | compare op =>
    obtain ⟨x, rfl⟩ := hp
    rcases bind_eq_error.mp h with h | ⟨v, -, h⟩
    · exact ⟨x, List.mem_singleton_self x, h⟩
    · cases h
  | test t => cases h
  | like placement negated =>
    obtain ⟨text, rfl⟩ := hp
    cases h
  | member negated =>
    rcases bind_eq_error.mp h with h | ⟨vs, -, h⟩
    · exact exists_error_of_mapM h
    · cases h
  | between =>
    obtain ⟨low, high, rfl⟩ := hp
    rcases bind_eq_error.mp h with h | ⟨v, -, h⟩
    · exact ⟨low, by simp, h⟩
    · rcases bind_eq_error.mp h with h | ⟨w, -, h⟩
      · exact ⟨high, by simp, h⟩
      · cases h

/-- A literal that cannot be read is reported as such. -/
theorem convertTo_error {t : FieldType} {field literal : String} {e : CompileError}
    (h : c.registry.convertTo s t field literal = .error e) :
    ∃ cause, e = .conversion t field literal cause := by
  unfold Registry.convertTo at h
  cases hr : c.registry.read s t literal with
  | error cause =>
    rw [hr] at h
    exact ⟨cause, (Except.error.inj h).symm⟩
  | ok v =>
    rw [hr] at h
    cases h

/-- **A predicate fails alone** at the first segment of its path that leads nowhere, or at a literal. -/
theorem conditionAlone_error {p : Predicate} {e : CompileError}
    (hp : p.operator.arity.Takes p.operands) (h : c.conditionAlone s root p = .error e) :
    (∃ x, e = .unresolved (c.mapPath p.path) x ∧ s.LostAt root (c.mapPath p.path) x) ∨
      ∃ t field literal cause, e = .conversion t field literal cause := by
  rcases bind_eq_error.mp h with h | ⟨r, -, h⟩
  · exact Or.inl (Schema.resolve_error h)
  · obtain ⟨o, -, ho⟩ := conditionFor_error hp h
    obtain ⟨cause, rfl⟩ := convertTo_error ho
    exact Or.inr ⟨_, _, _, cause, rfl⟩

/-- **A filter is never reported as malformed.** -/
theorem conditionAlone_ne_malformed {p : Predicate} (hp : p.operator.arity.Takes p.operands)
    (e : SyntaxError) : c.conditionAlone s root p ≠ .error (.malformed e) := by
  intro h
  rcases conditionAlone_error hp h with ⟨x, h, -⟩ | ⟨t, field, literal, cause, h⟩
  · cases h
  · cases h

/-- A fault of a path is that of the predicate and names the first segment that leads nowhere. -/
theorem lostAt_of_conditionAlone {p : Predicate} {path x : String}
    (hp : p.operator.arity.Takes p.operands)
    (h : c.conditionAlone s root p = .error (.unresolved path x)) :
    path = c.mapPath p.path ∧ s.LostAt root path x := by
  rcases conditionAlone_error hp h with ⟨y, h, hlost⟩ | ⟨t, field, literal, cause, h⟩
  · cases h
    exact ⟨rfl, hlost⟩
  · cases h

/-- The reduction of a predicate as if it were the whole filter, with no joins. -/
def reduceAlone (c : Compiler) (s : Schema) (root : String) (cache : FieldCache) (p : Predicate) :
    Except CompileError Condition :=
  (c.reduce (Condition.backend s root) [] cache (.one (.predicate p))).result

theorem reduceAlone_eq {cache : FieldCache} (hc : cache.Coherent s) {p : Predicate}
    (hn : "" ∉ Text.pieces '.' (c.mapPath p.path)) :
    (c.reduceAlone s root cache p).map Condition.unjoined = c.conditionAlone s root p :=
  reducePredicate_alone (Tracks.start s root [] cache) hc hn

theorem reduceAlone_ok_iff {cache : FieldCache} (hc : cache.Coherent s) {p : Predicate}
    (hn : "" ∉ Text.pieces '.' (c.mapPath p.path)) :
    (∃ d, c.reduceAlone s root cache p = .ok d) ↔ ∃ d, c.conditionAlone s root p = .ok d := by
  rw [← reduceAlone_eq hc hn]
  constructor
  · rintro ⟨d, hd⟩
    exact ⟨_, map_eq_ok.mpr ⟨d, hd, rfl⟩⟩
  · rintro ⟨_, hd⟩
    obtain ⟨d, hd, -⟩ := map_eq_ok.mp hd
    exact ⟨d, hd⟩

theorem reduceAlone_error_iff {cache : FieldCache} (hc : cache.Coherent s) {p : Predicate}
    (hn : "" ∉ Text.pieces '.' (c.mapPath p.path)) {e : CompileError} :
    c.reduceAlone s root cache p = .error e ↔ c.conditionAlone s root p = .error e := by
  rw [← reduceAlone_eq hc hn, map_eq_error]

end Compiler

/-! ### The first predicate that fails -/

section

variable {c : Compiler} {s : Schema} {root : String}

/-- The new joins are those of the beginnings, each once, in the order of their first use. -/
theorem Tracks.forall₂_spells {uses : List (List String)} {st : Progress (List JoinRecord) Join}
    (h : Tracks s root [] uses st) :
    List.Forall₂ (fun r q => Spells st.backend (some r.id) q) st.backend uses.eraseDups := by
  have hb : st.backend = uses.eraseDups.map (recordOf s root 0 uses) := by
    rw [h.backend]
    rfl
  nth_rewrite 2 [hb]
  rw [List.forall₂_map_left_iff, List.forall₂_same]
  intro q hq
  have hmem := List.mem_eraseDups.mp hq
  have hspells := h.spells (Or.inr hmem)
  rw [joinId_of_ne_nil (h.met q hmem).1] at hspells
  exact hspells

/-- **Where a group fails:** at the first of its predicates that fails alone. -/
theorem reduce_error {cache : FieldCache} (hc : cache.Coherent s) {g : Group}
    (hn : AllNamed c g.predicates) {e : CompileError}
    (h : (c.reduce (Condition.backend s root) [] cache g).result = .error e) :
    ∃ before p after st, g.predicates = before ++ p :: after ∧
      (∀ q ∈ before, ∃ d, c.conditionAlone s root q = .ok d) ∧
      c.conditionAlone s root p = .error e ∧ Behind c s root [] (before ++ [p]) st ∧
      (c.reduce (Condition.backend s root) [] cache g).backend = st.backend := by
  have hrule := reduceGroup_rule (keptBy_behind hn []) g (List.prefix_refl _)
    (Behind.start hc c root [])
  rw [Compiler.reduce_eq] at h ⊢
  generalize (c.reduceGroup (Condition.backend s root) g).runFrom ⟨[], [], cache⟩ = run at h hrule ⊢
  cases hrule with
  | built inv before shape => cases h
  | @stopped before after p _ st₀ st split inv reduced fails =>
    cases h
    have hp : "" ∉ Text.pieces '.' (c.mapPath p.path) := hn p (by simp [split])
    have hst := inv.predicate hp
    rw [fails] at hst
    refine ⟨before, p, after, st, split, fun q hq => ?_, inv.conditionAlone_error hp fails, hst, rfl⟩
    obtain ⟨d, hd⟩ := reduced q hq
    exact ⟨_, hd⟩

/-- A predicate that does not fail alone uses all beginnings of its path. -/
theorem pathUses_of_conditionAlone {p : Predicate} {d : Condition}
    (h : c.conditionAlone s root p = .ok d) :
    pathUses s root (c.mapPath p.path) = properPrefixes (c.mapPath p.path) := by
  obtain ⟨r, hr, -⟩ := bind_eq_ok.mp h
  unfold Schema.resolve at hr
  dsimp only at hr
  split at hr
  · cases hr
  · rename_i owner ho
    exact pathUses_eq ho

/-- What is used up to a predicate: all beginnings of the paths before it, if none of these fails alone,
and the beginnings of its own path that can be followed. -/
theorem usesOf_concat {before : List Predicate}
    (h : ∀ q ∈ before, ∃ d, c.conditionAlone s root q = .ok d) (p : Predicate) :
    usesOf c s root (before ++ [p]) = (before.flatMap fun q => properPrefixes (c.mapPath q.path)) ++
      (properPrefixes (c.mapPath p.path)).filter fun q => (s.entityAlong? root q).isSome := by
  have hbefore : usesOf c s root before = before.flatMap fun q => properPrefixes (c.mapPath q.path) := by
    refine List.flatMap_congr fun q hq => ?_
    obtain ⟨d, hd⟩ := h q hq
    exact pathUses_of_conditionAlone hd
  rw [usesOf] at hbefore ⊢
  rw [List.flatMap_append, List.flatMap_singleton, hbefore, pathUses_eq_filter]

theorem prefixClosed_usesOf (c : Compiler) (s : Schema) (root : String) (ps : List Predicate) :
    PrefixClosed (usesOf c s root ps) := by
  have h := prefixClosed_flatMap s root (ps.map fun p => c.mapPath p.path)
  rwa [List.flatMap_map] at h

/-- What is joined behind some predicates, if nothing has been before. -/
theorem Behind.joins {ps : List Predicate} {st : Progress (List JoinRecord) Join}
    (h : Behind c s root [] ps st) : Forest s root st.backend ∧
      List.Forall₂ (fun r q => Spells st.backend (some r.id) q) st.backend
        (usesOf c s root ps).eraseDups :=
  ⟨h.tracks.forest (forest_nil s root) (prefixClosed_usesOf c s root ps), h.tracks.forall₂_spells⟩

end

/-- **Where and how compilation fails.**  On a backend without joins a text is reported as malformed if and
only if it is no filter, with the fault that reading it has, and then nothing is joined.  A filter compiles
if and only if all of its predicates do alone.  Otherwise the fault is that of the first one, in the order
in which they are written, that fails alone; if its path leads nowhere, the fault names the first segment
that does; and there is one join for every beginning of the paths before it and for every beginning of its
own path that can be followed, in the order of their first use. -/
theorem fault_of_compile {c : Compiler} (hmap : c.mapPath = id) {s : Schema} {cache : FieldCache}
    (hc : cache.Coherent s) (root text : String) :
    let out := c.compile (Condition.backend s root) [] cache text
    (∀ e, out.result = .error (.malformed e) ↔ parse text = .error e) ∧
      (∀ e, parse text = .error e → out.backend = []) ∧
      ∀ g, parse text = .ok g →
        ((∃ cond, out.result = .ok cond) ↔
          ∀ p ∈ g.predicates, ∃ d, c.reduceAlone s root cache p = .ok d) ∧
        ∀ e, out.result = .error e → ∃ before p after, g.predicates = before ++ p :: after ∧
          (∀ q ∈ before, ∃ d, c.reduceAlone s root cache q = .ok d) ∧
          c.reduceAlone s root cache p = .error e ∧
          (∀ path x, e = .unresolved path x → path = p.path ∧ s.LostAt root path x) ∧
          Forest s root out.backend ∧
          List.Forall₂ (fun r q => Spells out.backend (some r.id) q) out.backend
            ((before.flatMap fun q => properPrefixes q.path) ++
              (properPrefixes p.path).filter fun q => (s.entityAlong? root q).isSome).eraseDups := by
  intro out
  cases hparse : parse text with
  | error e₀ =>
    have hout : out = ⟨.error (.malformed e₀), [], cache⟩ := by
      change c.compile _ _ _ _ = _
      rw [Compiler.compile, hparse]
    rw [hout]
    refine ⟨fun e => ?_, fun _ _ => rfl, fun g hg => absurd hg (by simp)⟩
    constructor <;> rintro ⟨⟩ <;> rfl
  | ok g =>
    have hn := allNamed_of_parse hmap hparse
    have hout : out = c.reduce (Condition.backend s root) [] cache g :=
      Compiler.compile_of_parse hparse rfl [] cache
    rw [hout]
    refine ⟨fun e => iff_of_false (fun h => ?_) (by simp), fun e he => absurd he (by simp), ?_⟩
    · obtain ⟨before, p, after, -, hg, -, hp, -⟩ := reduce_error hc hn h
      have hmem : p ∈ g.predicates := by simp [hg]
      exact Compiler.conditionAlone_ne_malformed (takes_of_parse hparse p hmem) e hp
    · rintro _ ⟨⟩
      refine ⟨?_, fun e h => ?_⟩
      · refine ((Behind.start hc c root []).reduceGroup_ok_iff hn).trans ?_
        exact forall₂_congr fun p hp => (Compiler.reduceAlone_ok_iff hc (hn p hp)).symm
      · obtain ⟨before, p, after, st, hg, hbefore, hp, hst, hb⟩ := reduce_error hc hn h
        have hmem : p ∈ g.predicates := by simp [hg]
        have hmem' : ∀ q ∈ before, q ∈ g.predicates := fun q hq => hg ▸ List.mem_append_left _ hq
        obtain ⟨hforest, hjoins⟩ := hst.joins
        rw [usesOf_concat hbefore, hmap] at hjoins
        refine ⟨before, p, after, hg, fun q hq => ?_, ?_, fun path x he => ?_, ?_, ?_⟩
        · exact (Compiler.reduceAlone_ok_iff hc (hn q (hmem' q hq))).mpr (hbefore q hq)
        · exact (Compiler.reduceAlone_error_iff hc (hn p hmem)).mpr hp
        · rw [he] at hp
          have hlost := Compiler.lostAt_of_conditionAlone (takes_of_parse hparse p hmem) hp
          rwa [hmap] at hlost
        · rwa [hb]
        · rwa [hb]

/-- The second predicate fails behind a relationship that can be followed; the third would fail too. -/
theorem fault_of_compile_library :
    let text := "books.pages > 9 && (books.author.nam is null || books.x = 1)"
    let out := Compiler.standard.compile (Condition.backend library "Author") [] .empty text
    out.result = .error (.unresolved "books.author.nam" "nam") ∧
      library.LostAt "Author" "books.author.nam" "nam" ∧
      List.Forall₂ (fun r q => Spells out.backend (some r.id) q) out.backend
        [["books"], ["books", "author"]] := by
  intro text out
  let first : Predicate := ⟨"books.pages", .compare .greater, [.number "9"], ⟨1, 1⟩⟩
  let second : Predicate := ⟨"books.author.nam", .test .isNull, [], ⟨1, 21⟩⟩
  let third : Predicate := ⟨"books.x", .compare .equal, [.number "1"], ⟨1, 49⟩⟩
  have hparse : parse text = .ok (.join (.one (.predicate first)) .and
      (.group (.join (.one (.predicate second)) .or (.predicate third)))) := by
    decide +kernel
  have hout : (Compiler.standard.compile (Condition.backend library "Author") [] .empty text).result =
      .error (.unresolved "books.author.nam" "nam") := by
    decide +kernel
  obtain ⟨-, -, hfails⟩ := fault_of_compile (c := .standard) rfl
    (FieldCache.empty_coherent library) "Author" text
  obtain ⟨before, p, after, hsplit, -, -, hwhere, -, hjoins⟩ := (hfails _ hparse).2 _ hout
  obtain ⟨hpath, hlost⟩ := hwhere _ _ rfl
  have hsplit : [first, second, third] = before ++ p :: after := hsplit
  have hfirst : before = [first] ∧ p = second := by
    rcases before with _ | ⟨b, _ | ⟨b', before⟩⟩
    · cases hsplit
      exact absurd hpath (by decide)
    · cases hsplit
      exact ⟨rfl, rfl⟩
    · rcases before with _ | ⟨b'', before⟩
      · cases hsplit
        exact absurd hpath (by decide)
      · have hlen := congrArg List.length hsplit
        simp at hlen
  obtain ⟨rfl, rfl⟩ := hfirst
  have huses : ([first].flatMap (fun q => properPrefixes q.path) ++
      (properPrefixes second.path).filter fun q => (library.entityAlong? "Author" q).isSome).eraseDups =
        [["books"], ["books", "author"]] := by
    decide +kernel
  rw [huses] at hjoins
  exact ⟨hout, hlost, hjoins⟩

end RecordFilter

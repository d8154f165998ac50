import RecordFilter.Proofs.Alone
import RecordFilter.Proofs.Keeping
import RecordFilter.Proofs.Meaning

/-!
# The readers that a compilation uses

A compilation asks its registry for a reader in one place only, when a literal is read for a field whose
type is no enumeration.  `Compiler.ReadsFor` says for which fields a compilation reads literals: those of
the predicates with such an operator that it comes to (`Compiler.visits`), each as the path is resolved
there.  Registries that agree at the types of these fields (`Registry.AgreeAt`) give the same outcome,
whether it is a predicate or an error (`Compiler.reduce_of_agree`).

After some registrations the reader of a type is the one registered last for it
(`Registry.reader?_registerAll`), so of a history of registrations nothing else matters
(`reduce_of_readers_agree`).
-/

namespace RecordFilter

open Compilation

/-! ### Registries that agree at a type -/

def FieldType.isEnum : FieldType → Bool
  | enum _ => true
  | _ => false

namespace Registry

/-- **The readers of the type are the same**, unless it is an enumeration, which needs none. -/
def AgreeAt (r r' : Registry) (t : FieldType) : Prop := t.isEnum = false → r.reader? t = r'.reader? t

variable {r r' : Registry} {t : FieldType}

/-- A literal of another type than an enumeration is read by the reader of the type. -/
theorem read_of_not_isEnum (ht : t.isEnum = false) (r : Registry) (s : Schema) (literal : String) :
    r.read s t literal =
      match r.reader? t with
      | some reader => reader literal
      | none => .error (.noReader t) := by
  cases t with
  | enum name => cases ht
  | _ => rfl

/-- Literals are read alike where registries agree. -/
theorem AgreeAt.convertTo (h : r.AgreeAt r' t) (s : Schema) (field literal : String) :
    r.convertTo s t field literal = r'.convertTo s t field literal := by
  have hread : r.read s t literal = r'.read s t literal := by
    cases t with
    | enum name => rfl
    | _ => rw [read_of_not_isEnum rfl, read_of_not_isEnum rfl, h rfl]
  rw [Registry.convertTo, hread, Registry.convertTo]

/-- The registry after several registrations, the first one first. -/
def registerAll (r : Registry) (regs : List (FieldType × LiteralReader)) : Registry :=
  regs.foldl (fun r x => r.register x.1 x.2) r

/-- **The reader registered last** is the one of its type. -/
theorem reader?_registerAll (r : Registry) (regs : List (FieldType × LiteralReader)) (t : FieldType) :
    (r.registerAll regs).reader? t = (regs.reverse.lookup t).or (r.reader? t) := by
  induction regs using List.reverseRecOn with
  | nil => rfl
  | append_singleton regs x ih =>
    unfold registerAll at ih ⊢
    rw [List.foldl_concat, List.reverse_concat, List.lookup_cons]
    change (if t = x.1 then some x.2 else Registry.reader? _ t) = _
    by_cases ht : t = x.1
    · rw [if_pos ht, beq_iff_eq.mpr ht]
      rfl
    · rw [if_neg ht, beq_false_of_ne ht]
      exact ih

/-- Histories with the same last reader for the type agree at it. -/
theorem agreeAt_registerAll (r : Registry) {regs regs' : List (FieldType × LiteralReader)}
    (h : t.isEnum = false → regs.reverse.lookup t = regs'.reverse.lookup t) :
    (r.registerAll regs).AgreeAt (r.registerAll regs') t := by
  intro ht
  rw [reader?_registerAll, reader?_registerAll, h ht]

end Registry

/-! ### Where literals are read -/

/-- The operators whose operands are read as values of the type of the field. -/
def Operator.readsLiterals : Operator → Bool
  | compare _ => true
  | test _ => false
  | like _ _ => false
  | member _ => true
  | between => true

namespace Compiler

variable {σ P J F : Type} {c : Compiler} {r' : Registry} {b : Backend σ P J F}

/-- **A predicate** whose literals are read for a field reads them alike if the registries agree at the
type of the field. -/
theorem runFrom_reducePredicate_of_agree {p : Predicate} {st : Progress σ J}
    (h : ∀ f st', (b.resolve (c.mapPath p.path)).runFrom st = (.ok f, st') →
      p.operator.readsLiterals = true → c.registry.AgreeAt r' f.type) :
    (reducePredicate { c with registry := r' } b p).runFrom st = (c.reducePredicate b p).runFrom st := by
  unfold reducePredicate
  rw [runFrom_bind, runFrom_bind]
  rcases hrun : (b.resolve (c.mapPath p.path)).runFrom st with ⟨e | f, st'⟩
  · rfl
  · have hread : p.operator.readsLiterals = true →
        (readOperand { c with registry := r' } b.schema f : Operand → Compilation σ J Value) =
          c.readOperand b.schema f := by
      intro hop
      funext o
      unfold readOperand
      rw [(h f st' hrun hop).convertTo]
    dsimp only
    unfold readLast
    cases hop : p.operator with
    | compare op => rw [hread (hop ▸ rfl)]
    | test t => rfl
    | like placement negated => rfl
    | member negated => rw [hread (hop ▸ rfl)]
    | between => rw [hread (hop ▸ rfl)]

mutual

/-- The predicates to which the reduction of a group comes, each with the progress before it. -/
def visits (c : Compiler) (b : Backend σ P J F) : Group → Progress σ J → List (Predicate × Progress σ J)
  | .one clause, st => c.clauseVisits b clause st
  | .join group _ clause, st =>
    c.visits b group st ++
      match (c.reduceGroup b group).runFrom st with
      | (.ok _, st') => c.clauseVisits b clause st'
      | (.error _, _) => []

def clauseVisits (c : Compiler) (b : Backend σ P J F) :
    Clause → Progress σ J → List (Predicate × Progress σ J)
  | .predicate p, st => [(p, st)]
  | .group group, st => c.visits b group st

end

/-- **The literals of the predicate are read for this field:** the reduction comes to the predicate, and
there its path is resolved to the field. -/
def ReadsFor (c : Compiler) (b : Backend σ P J F) (state : σ) (cache : FieldCache) (g : Group)
    (p : Predicate) (f : ResolvedPath J F) : Prop :=
  p.operator.readsLiterals = true ∧ ∃ st st', (p, st) ∈ c.visits b g ⟨state, [], cache⟩ ∧
    (b.resolve (c.mapPath p.path)).runFrom st = (.ok f, st')

mutual

/-- **Groups are reduced alike** if the predicates are to which the reduction comes. -/
theorem runFrom_reduceGroup_of_visits {c' : Compiler} : ∀ {g : Group} {st : Progress σ J},
    (∀ x ∈ c.visits b g st,
      (c'.reducePredicate b x.1).runFrom x.2 = (c.reducePredicate b x.1).runFrom x.2) →
      (c'.reduceGroup b g).runFrom st = (c.reduceGroup b g).runFrom st
  | .one clause, st, h => by
    unfold reduceGroup
    exact runFrom_reduceClause_of_visits h
  | .join group op clause, st, h => by
    rw [visits, List.forall_mem_append] at h
    unfold reduceGroup
    rw [runFrom_bind, runFrom_bind, runFrom_reduceGroup_of_visits h.1]
    rcases hrun : (c.reduceGroup b group).runFrom st with ⟨e | l, st'⟩
    · rfl
    · rw [hrun] at h
      dsimp only
      rw [runFrom_bind, runFrom_bind, runFrom_reduceClause_of_visits h.2]

theorem runFrom_reduceClause_of_visits {c' : Compiler} : ∀ {clause : Clause} {st : Progress σ J},
    (∀ x ∈ c.clauseVisits b clause st,
      (c'.reducePredicate b x.1).runFrom x.2 = (c.reducePredicate b x.1).runFrom x.2) →
      (c'.reduceClause b clause).runFrom st = (c.reduceClause b clause).runFrom st
  | .predicate p, st, h => by
    unfold reduceClause
    exact h (p, st) (List.mem_singleton_self _)
  | .group group, st, h => by
    unfold reduceClause
    exact runFrom_reduceGroup_of_visits (g := group) h

end

/-- **Registries that agree where they are asked** cannot be told apart. -/
theorem reduce_of_agree {state : σ} {cache : FieldCache} {g : Group}
    (h : ∀ p f, c.ReadsFor b state cache g p f → c.registry.AgreeAt r' f.type) :
    reduce { c with registry := r' } b state cache g = c.reduce b state cache g := by
  have hrun : (reduceGroup { c with registry := r' } b g).runFrom ⟨state, [], cache⟩ =
      (c.reduceGroup b g).runFrom ⟨state, [], cache⟩ :=
    runFrom_reduceGroup_of_visits fun x hx => runFrom_reducePredicate_of_agree fun f st' hf hop =>
      h x.1 f ⟨hop, x.2, st', hx, hf⟩
  rw [reduce_eq, reduce_eq, hrun]

/-! ### What is known where a predicate is reduced -/

variable {Inv : Progress σ J → Prop}

mutual

/-- **What every predicate keeps** is known wherever a predicate is reduced, and at the end. -/
theorem visits_of_keeps (hcombine : ∀ op l r, Keeps Inv (build (b.combine op l r) : Compilation σ J P)) :
    ∀ {g : Group} {st : Progress σ J}, (∀ p ∈ g.predicates, Keeps Inv (c.reducePredicate b p)) → Inv st →
      (∀ x ∈ c.visits b g st, x.1 ∈ g.predicates ∧ Inv x.2) ∧ Inv ((c.reduceGroup b g).runFrom st).2
  | .one clause, st, h, hst => by
    unfold reduceGroup visits
    exact clauseVisits_of_keeps hcombine h hst
  | .join group op clause, st, h, hst => by
    rw [Group.predicates, List.forall_mem_append] at h
    obtain ⟨hleft, hmid⟩ := visits_of_keeps hcombine h.1 hst
    unfold reduceGroup visits
    rw [Group.predicates, List.forall_mem_append, runFrom_bind]
    have hleft' : ∀ x ∈ c.visits b group st,
        x.1 ∈ group.predicates ++ Group.clausePredicates clause ∧ Inv x.2 := fun x hx =>
      ⟨List.mem_append_left _ (hleft x hx).1, (hleft x hx).2⟩
    rcases hrun : (c.reduceGroup b group).runFrom st with ⟨e | l, st'⟩
    · rw [hrun] at hmid
      exact ⟨⟨hleft', nofun⟩, hmid⟩
    · rw [hrun] at hmid
      obtain ⟨hright, hend⟩ := clauseVisits_of_keeps hcombine h.2 hmid
      refine ⟨⟨hleft', fun x hx => ⟨List.mem_append_right _ (hright x hx).1, (hright x hx).2⟩⟩, ?_⟩
      dsimp only
      rw [runFrom_bind]
      rcases hrun' : (c.reduceClause b clause).runFrom st' with ⟨e | r, st''⟩
      · rwa [hrun'] at hend
      · rw [hrun'] at hend
        exact hcombine op l r st'' hend

theorem clauseVisits_of_keeps
    (hcombine : ∀ op l r, Keeps Inv (build (b.combine op l r) : Compilation σ J P)) :
    ∀ {clause : Clause} {st : Progress σ J},
      (∀ p ∈ Group.clausePredicates clause, Keeps Inv (c.reducePredicate b p)) → Inv st →
        (∀ x ∈ c.clauseVisits b clause st, x.1 ∈ Group.clausePredicates clause ∧ Inv x.2) ∧
          Inv ((c.reduceClause b clause).runFrom st).2
  | .predicate p, st, h, hst => by
    have hp : p ∈ Group.clausePredicates (.predicate p) := List.mem_singleton_self p
    unfold reduceClause clauseVisits
    refine ⟨fun x hx => ?_, h p hp st hst⟩
    rw [List.mem_singleton.mp hx]
    exact ⟨hp, hst⟩
  | .group group, st, h, hst => by
    unfold reduceClause clauseVisits
    exact visits_of_keeps (g := group) hcombine h hst

end

end Compiler

/-! ### The types of these fields -/

namespace Backend

variable {σ P J F : Type} (b : Backend σ P J F) (path : String)

/-- **With a coherent cache** a path is resolved to a field with its declared type, and the cache stays
coherent. -/
theorem ends_resolve_coherent {st : Progress σ J} (h : st.cache.Coherent b.schema) :
    (b.resolve path).Ends st
      (fun f q => b.schema.fieldType? f.owner f.name = some f.type ∧ q.cache.Coherent b.schema)
      fun q => q.cache.Coherent b.schema := by
  have hstep : ∀ trail segment (j : J) (_ : List String) (q : Progress σ J), True →
      q.cache.Coherent b.schema →
        (b.joinOnce path (extendTrail trail segment) j segment).Ends q
          (fun _ q => True ∧ q.cache.Coherent b.schema) fun q => q.cache.Coherent b.schema :=
    fun _ _ _ _ _ _ hq => ends_joinOnce (fun _ _ => ⟨trivial, hq⟩) (fun _ _ _ _ => ⟨trivial, hq⟩)
      fun _ _ _ => hq
  have hjoins := ends_joinAlong (fun _ _ => True) (fun _ q => q.cache.Coherent b.schema)
    (fun _ q => q.cache.Coherent b.schema) hstep (AttributePath.ofText path).relations ""
    (j := b.root) [] trivial h
  refine ends_resolve (hjoins.mono (fun _ _ hq => hq.2) fun _ hq => hq.choose_spec.2)
    (fun _ _ hq => hq) (fun _ _ _ hq => FieldCache.lookup_coherent hq _ _) ?_
  intro js q f t hq _ ht
  exact ⟨(FieldCache.lookup_fst hq _ _).symm.trans ht, FieldCache.lookup_coherent hq _ _⟩

end Backend

namespace Compiler

variable {σ P J F : Type} {c : Compiler} {b : Backend σ P J F} {state : σ} {cache : FieldCache} {g : Group}
  {p : Predicate}

theorem ReadsFor.mem {f : ResolvedPath J F} (h : c.ReadsFor b state cache g p f) : p ∈ g.predicates := by
  obtain ⟨-, st, -, hx, -⟩ := h
  have hkeeps : ∀ p ∈ g.predicates, Keeps (fun _ => True) (c.reducePredicate b p) :=
    fun _ _ _ _ => trivial
  exact ((visits_of_keeps (fun _ _ _ _ _ => trivial) hkeeps trivial).1 _ hx).1

/-- **With a coherent cache** literals are read for fields with their declared types. -/
theorem ReadsFor.declared {f : ResolvedPath J F} (h : c.ReadsFor b state cache g p f)
    (hc : cache.Coherent b.schema) : b.schema.fieldType? f.owner f.name = some f.type := by
  obtain ⟨-, st, st', hx, hrun⟩ := h
  have hkeeps : ∀ p ∈ g.predicates,
      Keeps (fun q => q.cache.Coherent b.schema) (c.reducePredicate b p) := fun p _ =>
    keeps_reducePredicate
      (Ends.keeps fun _ hq => (b.ends_resolve_coherent _ hq).mono (fun _ _ hq => hq.2) fun _ hq => hq)
      fun _ _ hq => hq
  have hst := ((visits_of_keeps (fun _ _ _ _ hq => hq) hkeeps hc).1 _ hx).2
  exact ((b.ends_resolve_coherent _ hst).ok hrun).1

/-- **For conditions** these are the fields to which the paths lead in the schema. -/
theorem ReadsFor.typeAlong? {s : Schema} {root : String} {old : List JoinRecord}
    {f : ResolvedPath Join FieldRef} (h : c.ReadsFor (Condition.backend s root) old cache g p f)
    (hc : cache.Coherent s) (hn : AllNamed c g.predicates) :
    s.typeAlong? root (Text.pieces '.' (c.mapPath p.path)) = some f.type := by
  have hp := h.mem
  obtain ⟨-, st, st', hx, hrun⟩ := h
  have hkeeps : ∀ p ∈ g.predicates, Keeps (fun q => ∃ done, Behind c s root old done q)
      (c.reducePredicate (Condition.backend s root) p) := by
    rintro p hp q ⟨done, hq⟩
    exact ⟨done ++ [p], hq.predicate (hn p hp)⟩
  obtain ⟨-, done, hbehind⟩ :=
    (visits_of_keeps (fun _ _ _ _ hq => hq) hkeeps ⟨[], Behind.start hc c root old⟩).1 _ hx
  obtain ⟨-, -, hres⟩ := resolve_spec hbehind.tracks (hn p hp)
  rw [hrun] at hres
  cases hres with
  | found entity declared known =>
    rw [AttributePath.pieces_eq, Schema.typeAlong?_concat, entity, Option.bind_some,
      ← FieldCache.lookup_fst hbehind.coherent]
    exact known

end Compiler

/-! ### The law -/

/-- **A compilation depends on the readers that it asks for, and on nothing else of its registry.** With
another registry that has the same readers for the types of the fields for which literals are read,
enumerations apart, the outcome is the same: the predicate or the error, the joins and what is remembered
of field types. So of two histories of registrations only the last reader of each of these types matters,
and registrations for other types change nothing, in whatever order they come.

Literals are read for the fields of the comparisons, memberships and ranges of the group only, with the
types that are declared for them; for conditions, these are the types to which the paths lead. -/
theorem reduce_of_readers_agree {σ P J F : Type} (r : Registry) (mapPath : String → String)
    (b : Backend σ P J F) (state : σ) (cache : FieldCache) (g : Group) :
    let compiler : Registry → Compiler := fun r => ⟨r, mapPath⟩
    (∀ r', (∀ p f, (compiler r).ReadsFor b state cache g p f → r.AgreeAt r' f.type) →
      (compiler r').reduce b state cache g = (compiler r).reduce b state cache g) ∧
    (∀ regs regs', (∀ p f, (compiler (r.registerAll regs)).ReadsFor b state cache g p f →
        f.type.isEnum = false → regs.reverse.lookup f.type = regs'.reverse.lookup f.type) →
      (compiler (r.registerAll regs')).reduce b state cache g =
        (compiler (r.registerAll regs)).reduce b state cache g) ∧
    (∀ regs, (∀ p f, (compiler r).ReadsFor b state cache g p f → f.type.isEnum = false →
        ∀ x ∈ regs, x.1 ≠ f.type) →
      (compiler (r.registerAll regs)).reduce b state cache g = (compiler r).reduce b state cache g) ∧
    (∀ p f, (compiler r).ReadsFor b state cache g p f →
      p ∈ g.predicates ∧ p.operator.readsLiterals = true ∧
        (cache.Coherent b.schema → b.schema.fieldType? f.owner f.name = some f.type)) ∧
    ∀ s root old p f, (compiler r).ReadsFor (Condition.backend s root) old cache g p f →
      cache.Coherent s → AllNamed (compiler r) g.predicates →
        s.typeAlong? root (Text.pieces '.' (mapPath p.path)) = some f.type := by
  intro compiler
  refine ⟨fun r' h => ?_, fun regs regs' h => ?_, fun regs h => ?_, fun p f h => ?_, ?_⟩
  · exact Compiler.reduce_of_agree h
  · exact Compiler.reduce_of_agree fun p f hread => r.agreeAt_registerAll (h p f hread)
  · refine Compiler.reduce_of_agree (c := compiler r) fun p f hread ht => ?_
    have hnone : regs.reverse.lookup f.type = none := by
      rw [List.lookup_eq_none_iff]
      intro x hx
      exact bne_iff_ne.mpr (h p f hread ht x (List.mem_reverse.mp hx)).symm
    rw [Registry.reader?_registerAll, hnone, Option.none_or]
  · exact ⟨h.mem, h.1, h.declared⟩
  · exact fun s root old p f h hc hn => h.typeAlong? hc hn

/-- Nothing is readable any more but pages: readers that refuse every text are put over those of texts and
truth values, of the enumeration and of truth values again.  A comparison with a variant, a test, a search
in a text and a comparison of pages give the condition that they gave before; and a refusing reader for
pages is noticed. -/
theorem reduce_of_readers_agree_people :
    let people : Schema := ⟨⟨0⟩, [⟨"Author", none, [⟨"name", .text⟩, ⟨"gender", .enum "Gender"⟩,
      ⟨"retired", .bool⟩, ⟨"books", .collection "Book"⟩]⟩, ⟨"Book", none, [⟨"pages", .integer .w32⟩]⟩],
      [("Gender", ["FEMALE", "MALE"])]⟩
    let refuse : LiteralReader := fun _ => .error (.refused "no")
    let predicate := fun path op xs => Clause.predicate ⟨path, op, xs, ⟨1, 1⟩⟩
    let g := Group.join (.join (.join (.one
      (predicate "gender" (.compare .equal) [.string "FEMALE"]))
      .and (predicate "retired" (.test .isFalse) []))
      .and (predicate "name" (.like .anywhere false) [.string "an"]))
      .and (predicate "books.pages" (.compare .less) [.number "99"])
    let outcome := fun r =>
      Compiler.reduce ⟨r, id⟩ (Condition.backend people "Author") [] .empty g
    let regs := [(.text, refuse), (.bool, refuse), (.enum "Gender", refuse), (.bool, refuse)]
    (outcome .builtIn).result = .ok (.and (.and (.and
      (.compare ⟨[], "gender", none⟩ .equal (.enum "Gender" "FEMALE"))
      (.test ⟨[], "retired", none⟩ .isFalse)) (.like ⟨[], "name", none⟩ "%AN%" false))
      (.compare ⟨["books"], "pages", some 0⟩ .less (.integer .w32 99))) ∧
    outcome (Registry.builtIn.registerAll regs) = outcome .builtIn ∧
    outcome (Registry.builtIn.registerAll (regs.reverse ++ regs)) = outcome .builtIn ∧
    (outcome (Registry.builtIn.register (.integer .w32) refuse)).result =
      .error (.conversion (.integer .w32) "pages" "99" (.refused "no")) := by
  intro people refuse predicate g outcome regs
  obtain ⟨-, -, hunused, hreads, htypes⟩ := reduce_of_readers_agree .builtIn id
    (Condition.backend people "Author") [] .empty g
  have hnamed : ∀ p ∈ g.predicates, "" ∉ Text.pieces '.' p.path := by decide
  have hused : ∀ p f, Compiler.ReadsFor ⟨.builtIn, id⟩ (Condition.backend people "Author") [] .empty g p f →
      f.type.isEnum = false → f.type = .integer .w32 := by
    intro p f h hf
    obtain ⟨hp, hop, -⟩ := hreads p f h
    have ht := htypes people "Author" [] p f h (FieldCache.empty_coherent people) hnamed
    have hall : ∀ p ∈ g.predicates, p.operator.readsLiterals = true →
        people.typeAlong? "Author" (Text.pieces '.' p.path) = some (.enum "Gender") ∨
          people.typeAlong? "Author" (Text.pieces '.' p.path) = some (.integer .w32) := by decide
    rcases hall p hp hop with hg | hg
    · rw [← Option.some.inj (hg.symm.trans ht)] at hf
      cases hf
    · exact (Option.some.inj (hg.symm.trans ht)).symm
  have hregs : ∀ regs' : List (FieldType × LiteralReader), (∀ x ∈ regs', x.1 ≠ .integer .w32) →
      outcome (Registry.builtIn.registerAll regs') = outcome .builtIn := by
    refine fun regs' h => hunused regs' fun p f hread hf x hx => ?_
    rw [hused p f hread hf]
    exact h x hx
  refine ⟨?_, hregs regs ?_, hregs (regs.reverse ++ regs) ?_, ?_⟩
  · dsimp only [outcome, g, predicate, people]
    decide +kernel
  · simp [regs]
  · simp [regs]
  · dsimp only [outcome, g, predicate, people, refuse]
    decide +kernel

end RecordFilter

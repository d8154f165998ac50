import RecordFilter.Proofs.Forest
import RecordFilter.Proofs.Reduction
import RecordFilter.Proofs.Simulation
import RecordFilter.Proofs.WellFormed

/-!
# Several compilations on one backend

The joins of a backend stay when a text has been compiled, and the next compilation makes its own behind
them.  A compilation does not look at the joins that are there already: on top of `k` joins it does what
it does on none, with all numbers of joins raised by `k` (`Compiler.compile_onTop`).

What the joins are after any number of compilations that succeed is said by `joins_of_session`: each
compilation adds one join for every beginning of a path that it uses, in the order of the first uses, and
the joins are a forest in which the place of every test spells the path of its field.
-/

namespace RecordFilter

/-! ### Numbers of joins -/

def FieldRef.raise (k : Nat) (f : FieldRef) : FieldRef := { f with join := f.join.map (k + ·) }

def Join.raise (k : Nat) (j : Join) : Join := { j with id := j.id.map (k + ·) }

def JoinRecord.raise (k : Nat) (r : JoinRecord) : JoinRecord :=
  { r with id := k + r.id, parent := r.parent.map (k + ·) }

/-- The condition with other fields. -/
def Condition.mapFields (f : FieldRef → FieldRef) : Condition → Condition
  | compare field op v => compare (f field) op v
  | test field t => test (f field) t
  | like field pattern negated => like (f field) pattern negated
  | member field vs => member (f field) vs
  | between field low high => between (f field) low high
  | not c => not (c.mapFields f)
  | and l r => and (l.mapFields f) (r.mapFields f)
  | or l r => or (l.mapFields f) (r.mapFields f)

def Condition.raise (k : Nat) : Condition → Condition := mapFields (FieldRef.raise k)

/-- The outcome on top of other joins: the joins behind these, and all numbers raised. -/
def Compiler.Outcome.onTop (o : Outcome (List JoinRecord) Condition) (old : List JoinRecord) :
    Outcome (List JoinRecord) Condition :=
  ⟨o.result.map (Condition.raise old.length), old ++ o.backend.map (JoinRecord.raise old.length),
    o.cache⟩

/-- On top of old joins the backend does the same with higher numbers. -/
theorem simulation_onTop (s : Schema) (root : String) (old : List JoinRecord) :
    Simulation (fun joins joins' => joins' = old ++ joins.map (JoinRecord.raise old.length))
      (fun j j' => j' = j.raise old.length) (fun f f' => f' = f.raise old.length)
      (fun c c' => c' = c.raise old.length) (Condition.backend s root) (Condition.backend s root) where
  schema := rfl
  root := rfl
  entityOf := by
    rintro j j' rfl
    rfl
  join := by
    rintro j j' rfl segment joins joins' rfl
    show Option.Rel _ (Condition.makeJoin s j segment joins).1 (Condition.makeJoin s _ segment _).1 ∧
      (Condition.makeJoin s _ segment _).2 = old ++ (Condition.makeJoin s j segment joins).2.map _
    unfold Condition.makeJoin
    have he : (j.raise old.length).entity = j.entity := rfl
    rw [he]
    cases s.target? j.entity segment with
    | none => exact ⟨.none, rfl⟩
    | some e =>
      have hlen : (old ++ joins.map (JoinRecord.raise old.length)).length =
          old.length + joins.length := by simp
      dsimp only
      rw [hlen]
      refine ⟨.some rfl, ?_⟩
      rw [List.map_append, List.append_assoc]
      rfl
  field := by
    rintro j j' rfl name
    show Option.Rel _ (Condition.takeField s j name) (Condition.takeField s (j.raise old.length) name)
    unfold Condition.takeField
    have he : (j.raise old.length).entity = j.entity := rfl
    rw [he]
    cases s.fieldType? j.entity name with
    | none => exact .none
    | some t => exact .some rfl
  compare := by
    rintro f f' rfl op v joins joins' hs
    exact ⟨rfl, hs⟩
  test := by
    rintro f f' rfl t joins joins' hs
    exact ⟨rfl, hs⟩
  like := by
    rintro f f' rfl pattern negated joins joins' hs
    exact ⟨rfl, hs⟩
  member := by
    rintro f f' rfl vs joins joins' hs
    exact ⟨rfl, hs⟩
  between := by
    rintro f f' rfl low high joins joins' hs
    exact ⟨rfl, hs⟩
  not := by
    rintro c c' rfl joins joins' hs
    exact ⟨rfl, hs⟩
  combine := by
    rintro l l' r r' rfl rfl op joins joins' hs
    cases op <;> exact ⟨rfl, hs⟩

/-- **A compilation does not look at the joins that are there already.** -/
theorem Compiler.compile_onTop (c : Compiler) (s : Schema) (root : String) (old : List JoinRecord)
    (cache : FieldCache) (text : String) :
    c.compile (Condition.backend s root) old cache text =
      (c.compile (Condition.backend s root) [] cache text).onTop old := by
  have hs : old = old ++ ([] : List JoinRecord).map (JoinRecord.raise old.length) := by simp
  obtain ⟨hr, hb, hc⟩ := (simulation_onTop s root old).compile c hs cache text
  generalize c.compile (Condition.backend s root) [] cache text = o at hr hb hc
  generalize c.compile (Condition.backend s root) old cache text = o' at hr hb hc
  obtain ⟨result, backend, cache₁⟩ := o
  obtain ⟨result', backend', cache₂⟩ := o'
  dsimp only at hr hb hc
  subst hb hc
  cases hr with
  | ok h =>
    subst h
    rfl
  | error e => rfl

/-! ### The joins that a text uses -/

/-- The beginnings of a path, the shorter ones first: all of its segments but the last, up to each. -/
def properPrefixes (path : String) : List (List String) := (Text.pieces '.' path).inits.tail.dropLast

theorem properPrefixes_eq (path : String) :
    properPrefixes path = prefixesFrom [] (AttributePath.ofText path).relations := by
  have hinits : (AttributePath.ofText path).relations.inits ≠ [] := by
    rw [← List.length_pos_iff, List.length_inits]
    omega
  rw [properPrefixes, AttributePath.pieces_eq, List.inits_append, prefixesFrom_nil,
    List.tail_append_of_ne_nil hinits]
  simp

/-- A path that can be followed uses all of its beginnings. -/
theorem pathUses_eq {s : Schema} {root path e : String}
    (h : s.entityAlong? root (AttributePath.ofText path).relations = some e) :
    pathUses s root path = properPrefixes path := by
  rw [properPrefixes_eq, pathUses, Schema.navigable_of_entityAlong? h]

theorem met_properPrefixes (path : String) :
    Met (properPrefixes path) (AttributePath.ofText path).relations := by
  by_cases h : (AttributePath.ofText path).relations = []
  · exact Or.inl h
  · right
    rw [properPrefixes_eq]
    exact mem_prefixesFrom.mpr ⟨_, h, List.prefix_refl _, rfl⟩

/-- One compilation: how literals are read and paths changed, what is remembered, and the text. -/
structure Call where
  compiler : Compiler
  cache : FieldCache
  text : String

namespace Call

/-- What the compilation gives on top of the joins that are there. -/
def outcome (s : Schema) (root : String) (joins : List JoinRecord) (c : Call) :
    Compiler.Outcome (List JoinRecord) Condition :=
  c.compiler.compile (Condition.backend s root) joins c.cache c.text

/-- The paths that are resolved, in the order of the predicates. -/
def paths (c : Call) (ps : List Predicate) : List String := ps.map fun p => c.compiler.mapPath p.path

/-- No path that is resolved has an empty segment. -/
def Named (c : Call) : Prop :=
  ∀ g, parse c.text = .ok g → ∀ path ∈ c.paths g.predicates, "" ∉ Text.pieces '.' path

/-- Paths as they are written have none. -/
theorem named_of_id {c : Call} (h : c.compiler.mapPath = id) : c.Named := by
  intro g hg path hp
  obtain ⟨p, hmem, rfl⟩ := List.mem_map.mp hp
  rw [h]
  exact named_of_parse hg hmem

variable {s : Schema} {root : String} {c : Call}

/-- **Each predicate** adds the beginnings of its path, and all tests of its condition are tests of a field
at the place of its relationships. -/
theorem keptBy_tracks (s : Schema) (root : String) (old : List JoinRecord) (c : Call)
    {all : List Predicate} (hall : ∀ path ∈ c.paths all, "" ∉ Text.pieces '.' path) :
    KeptBy c.compiler s root all
      (fun done st => Tracks s root old ((c.paths done).flatMap (pathUses s root)) st)
      (fun p cond => pathUses s root (c.compiler.mapPath p.path) =
          properPrefixes (c.compiler.mapPath p.path) ∧
        ∀ a ∈ cond.atoms, Met ((c.paths all).flatMap (pathUses s root)) a.field.path ∧
          a.field.join = joinId old.length ((c.paths all).flatMap (pathUses s root)) a.field.path) := by
  intro done p st hp ht
  have hpaths : (c.paths (done ++ [p])).flatMap (pathUses s root) =
      (c.paths done).flatMap (pathUses s root) ++ pathUses s root (c.compiler.mapPath p.path) := by
    simp [paths]
  obtain ⟨rest, rfl⟩ := hp
  have hn : "" ∉ Text.pieces '.' (c.compiler.mapPath p.path) := by
    refine hall _ (List.mem_map_of_mem ?_)
    simp
  obtain ⟨ht', -, hcond⟩ := Compiler.reducePredicate_spec ht hn
  show Tracks s root old ((c.paths (done ++ [p])).flatMap (pathUses s root)) _ ∧ _
  rw [hpaths]
  refine ⟨ht', fun cond h => ?_⟩
  obtain ⟨r, hres, hfor⟩ := hcond cond h
  cases hres with
  | @found owner t js entity declared known =>
    have huses := pathUses_eq entity
    refine ⟨huses, fun a ha => ?_⟩
    have hfield := Compiler.field_of_mem_atoms hfor ha
    have hmet : Met ((c.paths (done ++ [p])).flatMap (pathUses s root))
        (AttributePath.ofText (c.compiler.mapPath p.path)).relations := by
      rw [hpaths, huses]
      exact (met_properPrefixes _).imp_right (List.mem_append_right _)
    have hsplit : (c.paths (done ++ [p] ++ rest)).flatMap (pathUses s root) =
        (c.paths (done ++ [p])).flatMap (pathUses s root) ++
          (c.paths rest).flatMap (pathUses s root) := by
      simp [paths]
    rw [hfield, hsplit, joinId_append hmet, hpaths]
    exact ⟨(hpaths ▸ hmet).append _, rfl⟩

/-- **A compilation that succeeds** uses the beginnings of its paths, and every test is at the place of
its path. -/
theorem tracks_of_ok {joins : List JoinRecord} {cond : Condition} (hn : c.Named)
    (h : (c.outcome s root joins).result = .ok cond) :
    ∃ g st, parse c.text = .ok g ∧ (c.outcome s root joins).backend = st.backend ∧
      PrefixClosed ((c.paths g.predicates).flatMap properPrefixes) ∧
      Tracks s root joins ((c.paths g.predicates).flatMap properPrefixes) st ∧
      ∀ a ∈ cond.atoms, Met ((c.paths g.predicates).flatMap properPrefixes) a.field.path ∧
        a.field.join =
          joinId joins.length ((c.paths g.predicates).flatMap properPrefixes) a.field.path := by
  obtain ⟨g, st, hg, hrun, hout⟩ := Compiler.compile_ok h
  have hkept := keptBy_tracks s root joins c (hn g hg)
  obtain ⟨ht, hq, hb⟩ := reduceGroup_built hkept (List.prefix_refl _)
    (Tracks.start s root joins c.cache) hrun
  have huses : (c.paths g.predicates).flatMap (pathUses s root) =
      (c.paths g.predicates).flatMap properPrefixes := by
    refine List.flatMap_congr fun path hpath => ?_
    obtain ⟨p, hp, rfl⟩ := List.mem_map.mp hpath
    obtain ⟨d, hd, -⟩ := hq p hp
    exact hd
  have hclosed := prefixClosed_flatMap s root (c.paths g.predicates)
  rw [huses] at ht hclosed
  refine ⟨g, st, hg, congrArg Compiler.Outcome.backend hout, hclosed, ht, fun a ha => ?_⟩
  obtain ⟨p, -, d, hd, ha⟩ := hb.exists_predicate ha
  rw [huses] at hd
  exact hd.2 a ha

end Call

/-! ### Sessions -/

/-- The joins of a backend on which some calls have been made, all of them successfully. -/
inductive Session (s : Schema) (root : String) : List JoinRecord → Prop
  | new : Session s root []
  | call {joins : List JoinRecord} {cond : Condition} (h : Session s root joins) (c : Call)
      (named : c.Named) (ok : (c.outcome s root joins).result = .ok cond) :
      Session s root (c.outcome s root joins).backend

/-- Whatever has been compiled, the joins are a forest. -/
theorem Session.forest {s : Schema} {root : String} {joins : List JoinRecord}
    (h : Session s root joins) : Forest s root joins := by
  induction h with
  | new => exact forest_nil s root
  | call _ c named ok ih =>
    obtain ⟨g, st, -, hb, hclosed, ht, -⟩ := Call.tracks_of_ok named ok
    rw [hb]
    exact ht.forest ih hclosed

/-- **One join for every beginning of a path.**  A call that succeeds leaves the joins of the earlier
calls as they are.  Behind them it adds one join for every beginning of the paths that it resolves, in the
order of their first use, so that the joins are a forest again.  Every test in its condition is at the
place that its path spells.  And all this is what the call gives on no joins at all, with the numbers
raised. -/
theorem joins_of_session {s : Schema} {root : String} {joins : List JoinRecord} {cond : Condition}
    (h : Session s root joins) (c : Call) (hn : c.Named)
    (hok : (c.outcome s root joins).result = .ok cond) :
    ∃ g new, parse c.text = .ok g ∧ (c.outcome s root joins).backend = joins ++ new ∧
      List.Forall₂ (fun r q => Spells (joins ++ new) (some r.id) q) new
        ((c.paths g.predicates).flatMap properPrefixes).eraseDups ∧
      Forest s root (joins ++ new) ∧
      (∀ a ∈ cond.atoms, Spells (joins ++ new) a.field.join a.field.path ∧
        (a.field.join = none ↔ a.field.path = [])) ∧
      c.outcome s root joins = (c.outcome s root []).onTop joins := by
  obtain ⟨g, st, hg, hb, hclosed, ht, hatoms⟩ := Call.tracks_of_ok hn hok
  refine ⟨g, _, hg, hb.trans ht.backend, ?_⟩
  rw [← ht.backend]
  refine ⟨?_, ht.forest h.forest hclosed, fun a ha => ?_, c.compiler.compile_onTop s root joins _ _⟩
  · rw [List.forall₂_map_left_iff, List.forall₂_same]
    intro q hq
    have hmem := List.mem_eraseDups.mp hq
    have hspells := ht.spells (Or.inr hmem)
    rw [joinId_of_ne_nil (ht.met q hmem).1] at hspells
    exact hspells
  · obtain ⟨hmet, hjoin⟩ := hatoms a ha
    have hspells := ht.spells hmet
    rw [← hjoin] at hspells
    exact ⟨hspells, hspells.eq_none_iff⟩

/-- On top of the join of an earlier call: `books` is joined anew, and the author of a book below it. -/
theorem joins_of_session_second :
    let first : Call := ⟨⟨.builtIn, id⟩, .empty, "books.pages > 9"⟩
    let second : Call := ⟨⟨.builtIn, id⟩, .empty, "books.author.name is null"⟩
    let joins : List JoinRecord := [⟨0, none, "books", "Book"⟩]
    let new : List JoinRecord := [⟨1, none, "books", "Book"⟩, ⟨2, some 1, "author", "Author"⟩]
    (first.outcome library "Author" []).backend = joins ∧
      (second.outcome library "Author" joins).backend = joins ++ new ∧
      Forest library "Author" (joins ++ new) ∧ Spells (joins ++ new) (some 2) ["books", "author"] := by
  intro first second joins new
  have hfirst : (first.outcome library "Author" []).result =
      .ok (.compare ⟨["books"], "pages", some 0⟩ .greater (.integer .w32 9)) := by
    decide +kernel
  have hsecond : (second.outcome library "Author" joins).result =
      .ok (.test ⟨["books", "author"], "name", some 2⟩ .isNull) := by
    decide +kernel
  have hb : (first.outcome library "Author" []).backend = joins := by decide +kernel
  have hsession : Session library "Author" joins :=
    hb ▸ .call .new first (Call.named_of_id rfl) hfirst
  obtain ⟨-, new', -, hafter, -, hforest, hatoms, -⟩ :=
    joins_of_session hsession second (Call.named_of_id rfl) hsecond
  have hnew : (second.outcome library "Author" joins).backend = joins ++ new := by decide +kernel
  rw [hnew] at hafter
  rw [← hafter] at hforest hatoms
  exact ⟨hb, hnew, hforest, (hatoms _ (List.mem_singleton_self _)).1⟩

end RecordFilter

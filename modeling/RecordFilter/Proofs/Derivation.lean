import RecordFilter.Filter.Parse
import RecordFilter.Proofs.Grammar
import RecordFilter.Proofs.Lexing

/-!
# The machine reads the grammar

Every derivation is read by the machine, and what follows it is left as it is (`Machine.run_query`).
For the converse we say what a machine has read so far (`Machine.Read`): around a row that is not
complete the rows that are open, and in the row the clauses before the connective, the path and the
operands that have been taken.  Each token keeps this up (`Machine.take?_read`), and so does a run.

Together they say that `parse` accepts the texts whose lexemes have a derivation, with the group of the
derivation (`parse_eq_ok_iff_derives`).
-/

namespace RecordFilter

/-- The lexemes derive the group by the rules of the grammar. -/
def Derives (ls : List Lexeme) (g : Group) : Prop := ∃ q : QueryTree, q.leaves = ls ∧ q.group = g

theorem Token.operand?_eq_some {t : Token} {x : Operand} : t.operand? = some x ↔ t = x.token := by
  cases t <;> cases x <;> simp [operand?, Operand.token]

theorem ValueTree.operand?_leaf (v : ValueTree) : v.leaf.token.operand? = some v.operand :=
  Token.operand?_eq_some.mpr rfl

namespace Machine

/-! ### Derivations are read -/

section complete

variable {o : Opening} {path : String} {position : Position} {os : List Opening} {due : Due}
  {l : Lexeme}

theorem run_due_more {d : Due} (h : due.take? l.token = some (.more d)) (ls : List Lexeme) :
    (⟨.predicate o path position due, os⟩ : Machine).run (l :: ls) =
      (⟨.predicate o path position d, os⟩ : Machine).run ls := by
  refine run_cons_some ?_ ls
  simp only [take?, h, Option.map_some]

theorem run_due_done {op : Operator} {xs : List Operand}
    (h : due.take? l.token = some (.done op xs)) (ls : List Lexeme) :
    (⟨.predicate o path position due, os⟩ : Machine).run (l :: ls) =
      (⟨.complete (o.with (.predicate ⟨path, op, xs, position⟩)), os⟩ : Machine).run ls := by
  refine run_cons_some ?_ ls
  simp only [take?, h, Option.map_some]

/-- A list is read up to its closing bracket. -/
theorem run_moreValues (n : Bool) (c : Mark) (rest : List Lexeme) :
    ∀ (vs : MoreValues) (xs : List Operand),
      (⟨.predicate o path position (.afterItem n xs), os⟩ : Machine).run
          (vs.leaves ++ c.lexeme .closeParen :: rest) =
        (⟨.complete (o.with (.predicate ⟨path, .member n,
          xs.reverse ++ vs.map fun v => v.2.operand, position⟩)), os⟩ : Machine).run rest
  | [], xs => by
    rw [List.map_nil, List.append_nil]
    exact run_due_done rfl rest
  | ⟨m, v⟩ :: vs, xs => by
    have hv : (Due.item n xs).take? v.leaf.token = some (.more (.afterItem n (v.operand :: xs))) := by
      rw [Due.take?, v.operand?_leaf]
      rfl
    have ih := run_moreValues n c rest vs (v.operand :: xs)
    rw [List.reverse_cons, List.append_assoc, List.singleton_append] at ih
    exact (run_due_more (l := m.lexeme .comma) rfl _).trans ((run_due_more hv _).trans ih)

/-- What stands behind a path completes its predicate. -/
theorem run_tail (t : TailTree) (rest : List Lexeme) :
    (⟨.predicate o path position .operator, os⟩ : Machine).run (t.leaves ++ rest) =
      (⟨.complete (o.with (.predicate ⟨path, t.operator, t.operands, position⟩)), os⟩ :
        Machine).run rest := by
  cases t with
  | compare op m v =>
    have hv : (Due.value op).take? v.leaf.token = some (.done (.compare op) [v.operand]) := by
      rw [Due.take?, v.operand?_leaf]
      rfl
    exact (run_due_more rfl _).trans (run_due_done hv rest)
  | test t m => exact run_due_done rfl rest
  | like placement negated m text tm => exact (run_due_more rfl _).trans (run_due_done rfl rest)
  | member n m a v vs c =>
    have hv : (Due.item n []).take? v.leaf.token = some (.more (.afterItem n [v.operand])) := by
      rw [Due.take?, v.operand?_leaf]
      rfl
    rw [TailTree.leaves, List.cons_append, List.cons_append, List.cons_append, List.append_assoc]
    exact (run_due_more rfl _).trans ((run_due_more rfl _).trans ((run_due_more hv _).trans
      (run_moreValues n c rest vs [v.operand])))
  | between m low a high =>
    have hl : Due.low.take? low.leaf.token = some (.more (.betweenBounds low.operand)) := by
      rw [Due.take?, low.operand?_leaf]
      rfl
    have hh : (Due.high low.operand).take? high.leaf.token =
        some (.done .between [low.operand, high.operand]) := by
      rw [Due.take?, high.operand?_leaf]
      rfl
    exact (run_due_more rfl _).trans ((run_due_more hl _).trans ((run_due_more rfl _).trans
      (run_due_done hh rest)))

end complete

mutual

/-- A query is read from the start of a row, and leaves the machine at the end of that row. -/
theorem run_query (os : List Opening) : ∀ (q : QueryTree) (rest : List Lexeme),
    (⟨.clause .first, os⟩ : Machine).run (q.leaves ++ rest) =
      (⟨.complete q.group, os⟩ : Machine).run rest
  | .mk c ch, rest => by
    rw [QueryTree.leaves, List.append_assoc, run_clause .first os c, run_chain os ch]
    rfl

theorem run_chain (os : List Opening) : ∀ (ch : ChainTree) {g : Group} (rest : List Lexeme),
    (⟨.complete g, os⟩ : Machine).run (ch.leaves ++ rest) =
      (⟨.complete (ch.onto g), os⟩ : Machine).run rest
  | .done, _, _ => rfl
  | .more op m c ch, g, rest => by
    have ht : (⟨.complete g, os⟩ : Machine).take? (m.lexeme (.connective op)) =
        some ⟨.clause (.after g op), os⟩ := rfl
    rw [ChainTree.leaves, List.cons_append, List.append_assoc, run_cons_some ht,
      run_clause (.after g op) os c, run_chain os ch]
    rfl

theorem run_clause (o : Opening) (os : List Opening) : ∀ (c : ClauseTree) (rest : List Lexeme),
    (⟨.clause o, os⟩ : Machine).run (c.leaves ++ rest) =
      (⟨.complete (o.with c.clause), os⟩ : Machine).run rest
  | .predicate path m t, rest => by
    have ht : (⟨.clause o, os⟩ : Machine).take? (m.lexeme (.path path)) =
        some ⟨.predicate o path m.position .operator, os⟩ := rfl
    rw [ClauseTree.leaves, List.cons_append, run_cons_some ht, run_tail]
    rfl
  | .group a q c, rest => by
    have ht : (⟨.clause o, os⟩ : Machine).take? (a.lexeme .openParen) =
        some ⟨.clause .first, o :: os⟩ := rfl
    rw [ClauseTree.leaves, List.cons_append, List.append_assoc, run_cons_some ht,
      run_query (o :: os) q]
    exact run_cons_some rfl rest

end

end Machine

/-! ### What has been read is the beginning of a derivation -/

/-- The lexemes are a list up to the last of its items, which are given with the latest in front. -/
def ItemsRead (n : Bool) (items : List Operand) (ls : List Lexeme) : Prop :=
  ∃ (m a : Mark) (v : ValueTree) (vs : MoreValues),
    items.reverse = v.operand :: vs.map (fun v => v.2.operand) ∧
      ls = m.lexeme (.operator (.member n)) :: a.lexeme .openParen :: v.leaf :: vs.leaves

/-- The lexemes are what stands between a path and the token that is due. -/
def Due.Read : Due → List Lexeme → Prop
  | operator, ls => ls = []
  | value c, ls => ∃ m : Mark, ls = [m.lexeme (.operator (.compare c))]
  | string p n, ls => ∃ m : Mark, ls = [m.lexeme (.operator (.like p n))]
  | openList n, ls => ∃ m : Mark, ls = [m.lexeme (.operator (.member n))]
  | item n xs, ls =>
    (xs = [] ∧ ∃ m a : Mark, ls = [m.lexeme (.operator (.member n)), a.lexeme .openParen]) ∨
      ∃ (ls' : List Lexeme) (m : Mark), ItemsRead n xs ls' ∧ ls = ls' ++ [m.lexeme .comma]
  | afterItem n xs, ls => ItemsRead n xs ls
  | low, ls => ∃ m : Mark, ls = [m.lexeme (.operator .between)]
  | betweenBounds x, ls =>
    ∃ (m : Mark) (v : ValueTree), v.operand = x ∧ ls = [m.lexeme (.operator .between), v.leaf]
  | high x, ls =>
    ∃ (m : Mark) (v : ValueTree) (a : Mark), v.operand = x ∧
      ls = [m.lexeme (.operator .between), v.leaf, a.lexeme (.connective .and)]

/-- The same behind one more lexeme, with which the predicate may be complete. -/
def DueStep.Read : DueStep → List Lexeme → Prop
  | more d, ls => d.Read ls
  | done op xs, ls => ∃ t : TailTree, t.operator = op ∧ t.operands = xs ∧ t.leaves = ls

/-- A literal is the leaf of a value. -/
theorem exists_value {l : Lexeme} {x : Operand} (h : l.token.operand? = some x) :
    ∃ v : ValueTree, v.operand = x ∧ v.leaf = l :=
  ⟨⟨x, l.text, l.position⟩, rfl, by rw [ValueTree.leaf, ← Token.operand?_eq_some.mp h]; rfl⟩

theorem ItemsRead.first (n : Bool) (m a : Mark) (v : ValueTree) :
    ItemsRead n [v.operand] [m.lexeme (.operator (.member n)), a.lexeme .openParen, v.leaf] :=
  ⟨m, a, v, [], rfl, rfl⟩

theorem ItemsRead.next {n : Bool} {xs : List Operand} {ls : List Lexeme} (h : ItemsRead n xs ls)
    (m : Mark) (v : ValueTree) :
    ItemsRead n (v.operand :: xs) (ls ++ [m.lexeme .comma, v.leaf]) := by
  obtain ⟨m', a, w, vs, hxs, rfl⟩ := h
  refine ⟨m', a, w, vs ++ [(m, v)], ?_, ?_⟩
  · rw [List.reverse_cons, hxs, List.map_append]
    rfl
  · simp [MoreValues.leaves]

theorem afterOperator_read (op : Operator) (m : Mark) :
    (Due.afterOperator op).Read [m.lexeme (.operator op)] := by
  cases op with
  | compare c => exact ⟨m, rfl⟩
  | test t => exact ⟨.test t m, rfl, rfl, rfl⟩
  | like p n => exact ⟨m, rfl⟩
  | member n => exact ⟨m, rfl⟩
  | between => exact ⟨m, rfl⟩

/-- A token that is due leads on from what has been read to what is due behind it. -/
theorem Due.take?_read {d : Due} {l : Lexeme} {s : DueStep} {ls : List Lexeme} (h : d.Read ls)
    (ht : d.take? l.token = some s) : s.Read (ls ++ [l]) := by
  obtain ⟨m, t, rfl⟩ := exists_mark l
  rw [Mark.token_lexeme] at ht
  cases d with
  | operator =>
    obtain ⟨op, hop, rfl⟩ := Option.map_eq_some_iff.mp ht
    cases t <;> cases hop
    cases h
    exact afterOperator_read op m
  | value c =>
    obtain ⟨m₁, rfl⟩ := h
    obtain ⟨x, hx, rfl⟩ := Option.map_eq_some_iff.mp ht
    obtain ⟨v, rfl, hv⟩ := exists_value (l := m.lexeme t) hx
    exact ⟨.compare c m₁ v, rfl, rfl, by rw [← hv]; rfl⟩
  | string p n =>
    obtain ⟨m₁, rfl⟩ := h
    cases t <;> cases ht
    exact ⟨.like p n m₁ _ m, rfl, rfl, rfl⟩
  | openList n =>
    obtain ⟨m₁, rfl⟩ := h
    cases t <;> cases ht
    exact Or.inl ⟨rfl, m₁, m, rfl⟩
  | item n xs =>
    obtain ⟨x, hx, rfl⟩ := Option.map_eq_some_iff.mp ht
    obtain ⟨v, rfl, hv⟩ := exists_value (l := m.lexeme t) hx
    rw [← hv]
    rcases h with ⟨rfl, m₁, a, rfl⟩ | ⟨ls, m₁, h, rfl⟩
    · exact ItemsRead.first n m₁ a v
    · rw [List.append_assoc]
      exact h.next m₁ v
  | afterItem n xs =>
    cases t <;> cases ht
    · -- the closing bracket completes the list
      obtain ⟨m₁, a, v, vs, hxs, rfl⟩ := h
      exact ⟨.member n m₁ a v vs m, rfl, hxs.symm, rfl⟩
    · exact Or.inr ⟨ls, m, h, rfl⟩
  | low =>
    obtain ⟨m₁, rfl⟩ := h
    obtain ⟨x, hx, rfl⟩ := Option.map_eq_some_iff.mp ht
    obtain ⟨v, rfl, hv⟩ := exists_value (l := m.lexeme t) hx
    exact ⟨m₁, v, rfl, by rw [← hv]; rfl⟩
  | betweenBounds x =>
    obtain ⟨m₁, v, rfl, rfl⟩ := h
    rcases t with _ | _ | _ | _ | _ | _ | _ | (_ | _) | _ <;> cases ht
    exact ⟨m₁, v, m, rfl, rfl⟩
  | high x =>
    obtain ⟨m₁, v, a, rfl, rfl⟩ := h
    obtain ⟨y, hy, rfl⟩ := Option.map_eq_some_iff.mp ht
    obtain ⟨w, rfl, hw⟩ := exists_value (l := m.lexeme t) hy
    exact ⟨.between m₁ v a w, rfl, rfl, by rw [← hw]; rfl⟩

/-- The lexemes are the clauses before the one that is being read, with the connective behind
them. -/
def Opening.Read : Opening → List Lexeme → Prop
  | first, ls => ls = []
  | after g op, ls =>
    ∃ (q : QueryTree) (m : Mark), q.group = g ∧ ls = q.leaves ++ [m.lexeme (.connective op)]

/-- The lexemes are what has been read of the row. -/
def RowState.Read : RowState → List Lexeme → Prop
  | clause o, ls => o.Read ls
  | predicate o path position due, ls =>
    ∃ (before : List Lexeme) (m : Mark) (behind : List Lexeme), o.Read before ∧
      m.position = position ∧ due.Read behind ∧ ls = before ++ m.lexeme (.path path) :: behind
  | complete g, ls => Derives ls g

/-- The lexemes are the rows that are open, each up to the bracket that interrupts it. -/
def OuterRead : List Opening → List Lexeme → Prop
  | [], ls => ls = []
  | o :: os, ls =>
    ∃ (around before : List Lexeme) (m : Mark), OuterRead os around ∧ o.Read before ∧
      ls = around ++ before ++ [m.lexeme .openParen]

/-- The lexemes are what the machine has read. -/
def Machine.Read (m : Machine) (ls : List Lexeme) : Prop :=
  ∃ around row : List Lexeme, OuterRead m.outer around ∧ m.row.Read row ∧ ls = around ++ row

/-- A clause completes the row up to it. -/
theorem Opening.Read.derives {o : Opening} {ls : List Lexeme} (h : o.Read ls) (c : ClauseTree) :
    Derives (ls ++ c.leaves) (o.with c.clause) := by
  cases o with
  | first =>
    cases h
    exact ⟨.mk c .done, List.append_nil _, rfl⟩
  | after g op =>
    obtain ⟨q, m, rfl, rfl⟩ := h
    refine ⟨q.snoc op m c, ?_, q.group_snoc op m c⟩
    rw [q.leaves_snoc, List.append_assoc, List.singleton_append]

namespace Machine

theorem read_start : start.Read [] := ⟨[], [], rfl, rfl, rfl⟩

/-- **A token that the machine takes continues what it has read.** -/
theorem take?_read {m m' : Machine} {l : Lexeme} {ls : List Lexeme} (h : m.Read ls)
    (ht : m.take? l = some m') : m'.Read (ls ++ [l]) := by
  obtain ⟨row, outer⟩ := m
  obtain ⟨around, row', ha, hr, rfl⟩ := h
  obtain ⟨k, t, rfl⟩ := exists_mark l
  cases row with
  | clause o =>
    cases t with
    | path path =>
      cases ht
      exact ⟨around, _, ha, ⟨row', k, [], hr, rfl, rfl, rfl⟩, List.append_assoc ..⟩
    | openParen =>
      cases ht
      exact ⟨_, [], ⟨around, row', k, ha, hr, rfl⟩, rfl, (List.append_nil _).symm⟩
    | _ => cases ht
  | predicate o path position due =>
    obtain ⟨before, m, behind, ho, rfl, hd, rfl⟩ := hr
    obtain ⟨s, hs, hs'⟩ := Option.map_eq_some_iff.mp ht
    have hread := Due.take?_read hd hs
    cases s with
    | more d =>
      cases hs'
      exact ⟨around, _, ha, ⟨before, m, _, ho, rfl, hread, rfl⟩, by simp⟩
    | done op xs =>
      cases hs'
      obtain ⟨u, rfl, rfl, hu⟩ := hread
      refine ⟨around, _, ha, ho.derives (.predicate path m u), ?_⟩
      rw [ClauseTree.leaves, hu]
      simp
  | complete g =>
    obtain ⟨q, rfl, rfl⟩ := hr
    cases t with
    | connective op =>
      cases ht
      exact ⟨around, _, ha, ⟨q, k, rfl, rfl⟩, List.append_assoc ..⟩
    | closeParen =>
      cases outer with
      | nil => cases ht
      | cons o os =>
        cases ht
        obtain ⟨around, before, a, ha, ho, rfl⟩ := ha
        refine ⟨around, _, ha, ho.derives (.group a q k), ?_⟩
        rw [ClauseTree.leaves]
        simp
    | _ => cases ht

theorem run_read {m m' : Machine} {ls : List Lexeme} : ∀ {ls' : List Lexeme}, m.Read ls →
    m.run ls' = (m', []) → m'.Read (ls ++ ls')
  | [], h, hr => by
    cases hr
    rwa [List.append_nil]
  | l :: ls', h, hr => by
    cases ht : m.take? l with
    | none =>
      rw [run_cons_none ht] at hr
      cases hr
    | some n =>
      rw [run_cons_some ht] at hr
      rw [List.append_cons]
      exact run_read (take?_read h ht) hr

/-- **The machine reads the grammar**: it takes all of the lexemes and may stop there just if they
have a derivation. -/
theorem run_start_iff {ls : List Lexeme} {g : Group} :
    (∃ m, start.run ls = (m, []) ∧ m.result? = some g) ↔ Derives ls g := by
  constructor
  · rintro ⟨⟨row, outer⟩, hr, hg⟩
    obtain ⟨around, row', ha, hrow, hls⟩ := run_read read_start hr
    cases row with
    | complete g' =>
      cases outer with
      | nil =>
        cases hg
        cases ha
        rw [List.nil_append, List.nil_append] at hls
        rwa [hls]
      | cons => cases hg
    | _ => cases hg
  · rintro ⟨q, rfl, rfl⟩
    have h := run_query [] q []
    rw [List.append_nil, run_nil] at h
    exact ⟨_, h, rfl⟩

end Machine

/-! ### Texts -/

theorem Feed.toTokens_eq_ok_iff {f : Feed} {ls : List Lexeme} {e : Lexeme} :
    f.toTokens = .ok (ls ++ [e]) ↔ f = ⟨ls, .endOfText e⟩ := by
  obtain ⟨tokens, stop⟩ := f
  cases stop with
  | endOfText l => simp [toTokens]
  | fault e c => simp [toTokens]

/-- Tokens are read to a group if and only if the text behind them ends and they derive the group. -/
theorem Feed.parse_eq_ok_iff {f : Feed} {g : Group} :
    f.parse.1 = .ok g ↔ ∃ (ls : List Lexeme) (e : Lexeme), f = ⟨ls, .endOfText e⟩ ∧ Derives ls g := by
  obtain ⟨tokens, stop⟩ := f
  constructor
  · intro h
    unfold parse at h
    split at h
    · cases h
    · rename_i m e hr hs
      refine ⟨tokens, e, congrArg (Feed.mk tokens) hs, Machine.run_start_iff.mp ⟨m, hr, ?_⟩⟩
      unfold Machine.finish at h
      split at h
      · rename_i hg
        rw [hg, ← Except.ok.inj h]
      · cases h
    · cases h
  · rintro ⟨ls, e, hf, hd⟩
    cases hf
    obtain ⟨m, hr, hg⟩ := Machine.run_start_iff.mpr hd
    unfold parse
    simp only [hr]
    rw [Machine.finish, hg]

/-- A group that has been read has a derivation of which every leaf has its shape. -/
theorem exists_query_of_parse {text : String} {g : Group} (h : parse text = .ok g) :
    ∃ q : QueryTree, q.group = g ∧ ∀ l ∈ q.leaves, l.token.Shaped := by
  obtain ⟨ls, e, hf, q, rfl, rfl⟩ := Feed.parse_eq_ok_iff.mp h
  refine ⟨q, rfl, fun l hl => ?_⟩
  have hs := (Cursor.ofText text).shaped_feed.1 l
  rw [← Feed.ofText, hf] at hs
  exact (hs hl).1

/-- **`parse` accepts exactly the grammar and builds the one tree.**  A text is read to a group if and
only if its tokens up to the end of the text derive that group, and they have one derivation only. -/
theorem parse_eq_ok_iff_derives :
    (∀ (text : String) (g : Group), parse text = .ok g ↔
      ∃ (ls : List Lexeme) (e : Lexeme), tokenize text = .ok (ls ++ [e]) ∧ e.token = .endOfText ∧
        Derives ls g) ∧
      ∀ q q' : QueryTree, q.leaves = q'.leaves → q = q' := by
  refine ⟨fun text g => ?_, fun q q' h => QueryTree.leaves_inj h⟩
  rw [parse, Feed.parse_eq_ok_iff]
  constructor
  · rintro ⟨ls, e, hf, hd⟩
    have he : e.token = .endOfText :=
      (Cursor.ofText text).shaped_feed.2 e (by rw [← Feed.ofText, hf])
    exact ⟨ls, e, Feed.toTokens_eq_ok_iff.mpr hf, he, hd⟩
  · rintro ⟨ls, e, hf, -, hd⟩
    exact ⟨ls, e, Feed.toTokens_eq_ok_iff.mp hf, hd⟩

/-- The first `and` belongs to the range, the second one joins two clauses. -/
theorem parse_eq_ok_iff_derives_between :
    let text := "a between 1 and 2 and b is null"
    let range := Clause.predicate ⟨"a", .between, [.number "1", .number "2"], ⟨1, 1⟩⟩
    let test := Clause.predicate ⟨"b", .test .isNull, [], ⟨1, 23⟩⟩
    ∃ (ls : List Lexeme) (e : Lexeme) (q : QueryTree), tokenize text = .ok (ls ++ [e]) ∧
      q.leaves = ls ∧ q.group = .join (.one range) .and test ∧
        ∀ q' : QueryTree, q'.leaves = ls → q' = q := by
  intro text range test
  have hp : parse text = .ok (.join (.one range) .and test) := by decide +kernel
  obtain ⟨ls, e, ht, -, q, rfl, hg⟩ := (parse_eq_ok_iff_derives.1 text _).mp hp
  exact ⟨q.leaves, e, q, ht, rfl, hg, fun q' h => parse_eq_ok_iff_derives.2 q' q h⟩

end RecordFilter

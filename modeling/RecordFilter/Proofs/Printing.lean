import RecordFilter.Proofs.Spelled
import RecordFilter.Proofs.WellFormed

/-!
# Groups as they are written

A group that can be written is read again as it was (`parse_render`).  The text of the group spells the
tokens of the group (`Group.spelled`), since what `render` writes behind a token always ends it.  And
lexemes with these tokens have a derivation, whose group differs from the group that was written in
nothing but the positions (`Group.exists_query`).
-/

namespace RecordFilter

/-! ### The tokens of a group -/

/-- The values of a list behind the first, each with a comma before it. -/
def moreTokens (xs : List Operand) : List Token := xs.flatMap fun x => [.comma, x.token]

/-- The tokens behind an operator. -/
def Predicate.operandTokens (p : Predicate) : List Token :=
  match p.operator, p.operands with
  | .member _, x :: xs => .openParen :: x.token :: (moreTokens xs ++ [.closeParen])
  | .between, [low, high] => [low.token, .connective .and, high.token]
  | _, xs => xs.map Operand.token

def Predicate.tokens (p : Predicate) : List Token :=
  .path p.path :: .operator p.operator :: p.operandTokens

mutual

def Group.tokens : Group → List Token
  | .one c => Group.clauseTokens c
  | .join g op c => g.tokens ++ .connective op :: Group.clauseTokens c

def Group.clauseTokens : Clause → List Token
  | .predicate p => p.tokens
  | .group g => .openParen :: (g.tokens ++ [.closeParen])

end

/-! ### The text spells the tokens -/

section spelled

variable {us : List Token} {r : List Char}

theorem Spelled.openParen (h : Spelled us r) : Spelled (.openParen :: us) ('(' :: r) :=
  h.token ['('] (by decide) rfl

theorem Spelled.closeParen (h : Spelled us r) : Spelled (.closeParen :: us) (')' :: r) :=
  h.token [')'] (by decide) rfl

theorem Spelled.comma (h : Spelled us r) : Spelled (.comma :: us) (',' :: r) :=
  h.token [','] (by decide) rfl

theorem Spelled.connective (op : Connective) (h : Spelled us r) :
    Spelled (.connective op :: us) (op.symbol.toList ++ r) := by
  cases op
  · exact h.token ['&', '&'] (by decide) rfl
  · exact h.token ['|', '|'] (by decide) rfl

theorem Spelled.andWord (hr : EndsToken r) (h : Spelled us r) :
    Spelled (.connective .and :: us) ("and".toList ++ r) :=
  h.token _ (by decide) (readsAs_keyword (by decide) (by decide) (by decide) rfl r hr)

/-- The text of a literal spells it. -/
theorem Operand.spelled {x : Operand} (hx : x.WellFormed) (hr : EndsToken r) (h : Spelled us r) :
    Spelled (x.token :: us) (x.render.toList ++ r) := by
  cases x with
  | string s => exact h.token _ nofun (readToken_quoted s r)
  | number n => exact h.token _ nofun (NumberText.read hx hr)

theorem toList_intercalate_cons (x : Operand) (xs : List Operand) :
    (", ".intercalate ((x :: xs).map Operand.render)).toList =
      x.render.toList ++ xs.flatMap fun y => ',' :: ' ' :: y.render.toList := by
  induction xs generalizing x with
  | nil => simp
  | cons y ys ih =>
    rw [List.map_cons, List.map_cons, String.intercalate_cons_cons, ← List.map_cons,
      String.toList_append, String.toList_append, ih y, List.flatMap_cons, List.append_assoc]
    rfl

theorem spelled_more {xs : List Operand} (hx : ∀ x ∈ xs, x.WellFormed) (hr : EndsToken r)
    (h : Spelled us r) :
    Spelled (moreTokens xs ++ us) ((xs.flatMap fun y => ',' :: ' ' :: y.render.toList) ++ r) ∧
      EndsToken ((xs.flatMap fun y => ',' :: ' ' :: y.render.toList) ++ r) := by
  induction xs with
  | nil => exact ⟨h, hr⟩
  | cons x xs ih =>
    obtain ⟨hs, he⟩ := ih fun y hy => hx y (List.mem_cons_of_mem x hy)
    rw [List.flatMap_cons, List.append_assoc]
    exact ⟨((Operand.spelled (hx x List.mem_cons_self) he hs).blank).comma, endsToken_cons rfl _⟩

theorem Operand.spelled_blank {x : Operand} (hx : x.WellFormed) (hr : EndsToken r)
    (h : Spelled us r) :
    Spelled (x.token :: us) (' ' :: (x.render.toList ++ r)) ∧
      EndsToken (' ' :: (x.render.toList ++ r)) :=
  ⟨(spelled hx hr h).blank, endsToken_blank _⟩

/-- What stands behind an operator spells its tokens, and ends the operator. -/
theorem Predicate.spelled_operands {p : Predicate} (hp : p.WellFormed) (hr : EndsToken r)
    (h : Spelled us r) :
    Spelled (p.operandTokens ++ us) (p.renderOperands.toList ++ r) ∧
      EndsToken (p.renderOperands.toList ++ r) := by
  obtain ⟨path, op, xs, position⟩ := p
  obtain ⟨-, ha, hx⟩ := hp
  dsimp only at ha hx
  cases op with
  | compare c =>
    obtain ⟨x, rfl⟩ := ha
    have ht : (renderOperands ⟨path, .compare c, [x], position⟩).toList = ' ' :: x.render.toList := by
      simp [renderOperands]
    rw [ht]
    exact Operand.spelled_blank (hx x List.mem_cons_self) hr h
  | test t =>
    cases ha
    exact ⟨h, hr⟩
  | like placement negated =>
    obtain ⟨s, rfl⟩ := ha
    have ht : (renderOperands ⟨path, .like placement negated, [.string s], position⟩).toList =
        ' ' :: (quoted s).toList := by
      simp [renderOperands, Operand.render]
    rw [ht]
    exact Operand.spelled_blank (x := .string s) trivial hr h
  | member negated =>
    cases xs with
    | nil => exact absurd rfl ha
    | cons x xs =>
      have ht : (renderOperands ⟨path, .member negated, x :: xs, position⟩).toList ++ r =
          ' ' :: '(' :: (x.render.toList ++
            ((xs.flatMap fun y => ',' :: ' ' :: y.render.toList) ++ ')' :: r)) := by
        rw [renderOperands, String.toList_append, String.toList_append, toList_intercalate_cons]
        simp
      obtain ⟨hs, he⟩ := spelled_more (fun y hy => hx y (List.mem_cons_of_mem x hy))
        (endsToken_cons (c := ')') rfl r) h.closeParen
      have hlist := (Operand.spelled (hx x List.mem_cons_self) he hs).openParen.blank
      rw [ht]
      refine ⟨?_, endsToken_blank _⟩
      simpa [operandTokens] using hlist
  | between =>
    obtain ⟨low, high, rfl⟩ := ha
    have ht : (renderOperands ⟨path, .between, [low, high], position⟩).toList ++ r =
        ' ' :: (low.render.toList ++ ' ' :: ("and".toList ++ ' ' :: (high.render.toList ++ r))) := by
      simp [renderOperands, bounds?]
    obtain ⟨hhigh, he⟩ := Operand.spelled_blank (hx high (by simp)) hr h
    rw [ht]
    exact Operand.spelled_blank (hx low (by simp)) (endsToken_blank _) (hhigh.andWord he).blank

theorem Predicate.spelled {p : Predicate} (hp : p.WellFormed) (hr : EndsToken r) (h : Spelled us r) :
    Spelled (p.tokens ++ us) (p.render.toList ++ r) := by
  obtain ⟨hs, he⟩ := spelled_operands hp hr h
  have hop := Spelled.token _ (by nofun) (p.operator.readsAs _ he) hs
  have hpath := Spelled.token _ (by nofun) (hp.path.read (endsToken_blank _)) hop.blank
  have ht : p.render.toList ++ r = p.path.toList ++ ' ' :: (p.operator.symbol.toList ++
      (p.renderOperands.toList ++ r)) := by
    simp [render]
  rw [ht]
  exact hpath

end spelled

mutual

/-- **The text of a group spells the tokens of the group.** -/
theorem Group.spelled : ∀ (g : Group) {us : List Token} {r : List Char}, g.WellFormed →
    EndsToken r → Spelled us r → Spelled (g.tokens ++ us) (g.render.toList ++ r)
  | .one c, us, r, hg, hr, h => Group.spelled_clause c hg hr h
  | .join g op c, us, r, hg, hr, h => by
    obtain ⟨hg, hc⟩ := List.forall_mem_append.mp hg
    have hclause := (Group.spelled_clause c hc hr h).blank.connective op
    have ht : (render (join g op c)).toList ++ r = g.render.toList ++
        ' ' :: (op.symbol.toList ++ ' ' :: ((renderClause c).toList ++ r)) := by
      simp [render]
    rw [ht, Group.tokens, List.append_assoc]
    exact g.spelled hg (endsToken_blank _) hclause.blank

theorem Group.spelled_clause : ∀ (c : Clause) {us : List Token} {r : List Char},
    (∀ p ∈ Group.clausePredicates c, p.WellFormed) → EndsToken r → Spelled us r →
      Spelled (Group.clauseTokens c ++ us) ((Group.renderClause c).toList ++ r)
  | .predicate p, us, r, hp, hr, h => Predicate.spelled (hp p List.mem_cons_self) hr h
  | .group g, us, r, hg, hr, h => by
    have hs := (g.spelled hg (endsToken_cons (c := ')') rfl r) h.closeParen).openParen
    have ht : (renderClause (.group g)).toList ++ r = '(' :: (g.render.toList ++ ')' :: r) := by
      simp [renderClause]
    rw [ht, Group.clauseTokens, List.cons_append, List.append_assoc]
    exact hs

end

/-! ### The tokens derive the group -/

theorem exists_mark_cons {ls : List Lexeme} {t : Token} {ts : List Token}
    (h : ls.map Lexeme.token = t :: ts) :
    ∃ (m : Mark) (ls' : List Lexeme), ls = m.lexeme t :: ls' ∧ ls'.map Lexeme.token = ts := by
  obtain ⟨l, ls', rfl, rfl, hls⟩ := List.map_eq_cons_iff.mp h
  obtain ⟨m, t, rfl⟩ := exists_mark l
  exact ⟨m, ls', rfl, hls⟩

theorem exists_moreValues {xs : List Operand} {ts : List Token} : ∀ {ls : List Lexeme},
    ls.map Lexeme.token = moreTokens xs ++ ts →
      ∃ (vs : MoreValues) (ls' : List Lexeme), ls = vs.leaves ++ ls' ∧
        ls'.map Lexeme.token = ts ∧ vs.map (fun v => v.2.operand) = xs := by
  induction xs with
  | nil => exact fun h => ⟨[], _, rfl, h, rfl⟩
  | cons x xs ih =>
    intro ls h
    obtain ⟨m, ls₁, rfl, h₁⟩ := exists_mark_cons h
    obtain ⟨k, ls₂, rfl, h₂⟩ := exists_mark_cons h₁
    obtain ⟨vs, ls₃, rfl, h₃, rfl⟩ := ih h₂
    exact ⟨(m, ⟨x, k⟩) :: vs, ls₃, rfl, h₃, rfl⟩

/-- Lexemes with the tokens behind a path have a tree with the operator and the operands. -/
theorem Predicate.exists_tail {p : Predicate} (hp : p.WellFormed) {ls : List Lexeme}
    (h : ls.map Lexeme.token = .operator p.operator :: p.operandTokens) :
    ∃ t : TailTree, t.leaves = ls ∧ t.operator = p.operator ∧ t.operands = p.operands := by
  obtain ⟨path, op, xs, position⟩ := p
  obtain ⟨-, ha, -⟩ := hp
  dsimp only at ha
  obtain ⟨m, ls, rfl, h₁⟩ := exists_mark_cons h
  cases op with
  | compare c =>
    obtain ⟨x, rfl⟩ := ha
    obtain ⟨k, ls, rfl, h₂⟩ := exists_mark_cons h₁
    cases List.map_eq_nil_iff.mp h₂
    exact ⟨.compare c m ⟨x, k⟩, rfl, rfl, rfl⟩
  | test t =>
    cases ha
    cases List.map_eq_nil_iff.mp h₁
    exact ⟨.test t m, rfl, rfl, rfl⟩
  | like placement negated =>
    obtain ⟨s, rfl⟩ := ha
    obtain ⟨k, ls, rfl, h₂⟩ := exists_mark_cons h₁
    cases List.map_eq_nil_iff.mp h₂
    exact ⟨.like placement negated m s k, rfl, rfl, rfl⟩
  | member negated =>
    cases xs with
    | nil => exact absurd rfl ha
    | cons x xs =>
      obtain ⟨a, ls, rfl, h₂⟩ := exists_mark_cons h₁
      obtain ⟨k, ls, rfl, h₃⟩ := exists_mark_cons h₂
      obtain ⟨vs, ls, rfl, h₄, rfl⟩ := exists_moreValues h₃
      obtain ⟨c, ls, rfl, h₅⟩ := exists_mark_cons h₄
      cases List.map_eq_nil_iff.mp h₅
      exact ⟨.member negated m a ⟨x, k⟩ vs c, rfl, rfl, rfl⟩
  | between =>
    obtain ⟨low, high, rfl⟩ := ha
    obtain ⟨k, ls, rfl, h₂⟩ := exists_mark_cons h₁
    obtain ⟨a, ls, rfl, h₃⟩ := exists_mark_cons h₂
    obtain ⟨k', ls, rfl, h₄⟩ := exists_mark_cons h₃
    cases List.map_eq_nil_iff.mp h₄
    exact ⟨.between m ⟨low, k⟩ a ⟨high, k'⟩, rfl, rfl, rfl⟩

mutual

/-- **Lexemes with the tokens of a group derive the group**, but for the positions. -/
theorem Group.exists_query : ∀ (g : Group) {ls : List Lexeme}, g.WellFormed →
    ls.map Lexeme.token = g.tokens → ∃ q : QueryTree, q.leaves = ls ∧ q.group.unplaced = g.unplaced
  | .one c, ls, hg, h => by
    obtain ⟨ct, rfl, hc⟩ := Group.exists_clause c hg h
    exact ⟨.mk ct .done, List.append_nil _, congrArg Group.one hc⟩
  | .join g op c, ls, hg, h => by
    obtain ⟨hg, hc⟩ := List.forall_mem_append.mp hg
    obtain ⟨ls, ls', rfl, h₁, h₂⟩ := List.map_eq_append_iff.mp h
    obtain ⟨q, rfl, hq⟩ := g.exists_query hg h₁
    obtain ⟨m, ls', rfl, h₃⟩ := exists_mark_cons h₂
    obtain ⟨ct, rfl, hct⟩ := Group.exists_clause c hc h₃
    refine ⟨q.snoc op m ct, q.leaves_snoc op m ct, ?_⟩
    rw [q.group_snoc op m ct]
    exact congrArg₂ (Group.join · op ·) hq hct

theorem Group.exists_clause : ∀ (c : Clause) {ls : List Lexeme},
    (∀ p ∈ Group.clausePredicates c, p.WellFormed) → ls.map Lexeme.token = Group.clauseTokens c →
      ∃ ct : ClauseTree, ct.leaves = ls ∧
        Group.mapClause Predicate.unplaced ct.clause = Group.mapClause Predicate.unplaced c
  | .predicate p, ls, hp, h => by
    obtain ⟨m, ls, rfl, h₁⟩ := exists_mark_cons h
    obtain ⟨t, rfl, hop, hxs⟩ := Predicate.exists_tail (hp p List.mem_cons_self) h₁
    refine ⟨.predicate p.path m t, rfl, ?_⟩
    rw [ClauseTree.clause, hop, hxs]
    rfl
  | .group g, ls, hg, h => by
    obtain ⟨a, ls, rfl, h₁⟩ := exists_mark_cons h
    obtain ⟨ls, ls', rfl, h₂, h₃⟩ := List.map_eq_append_iff.mp h₁
    obtain ⟨c, ls', rfl, h₄⟩ := exists_mark_cons h₃
    cases List.map_eq_nil_iff.mp h₄
    obtain ⟨q, rfl, hq⟩ := g.exists_query hg h₂
    exact ⟨.group a q c, rfl, congrArg Clause.group hq⟩

end

/-! ### Writing and reading -/

/-- What can be written is read again, but for the positions. -/
theorem Group.WellFormed.parse {g : Group} (hg : g.WellFormed) :
    ∃ g', parse g.render = .ok g' ∧ g'.unplaced = g.unplaced := by
  have hs := g.spelled hg endsToken_nil Spelled.done
  rw [List.append_nil, List.append_nil] at hs
  obtain ⟨ls, e, hf, hls⟩ := hs.feed .start
  obtain ⟨q, hq, hqg⟩ := g.exists_query hg hls
  exact ⟨q.group, Feed.parse_eq_ok_iff.mpr ⟨ls, e, hf, q, hq, rfl⟩, hqg⟩

/-- **Writing and reading are inverse.**  What can be written is read again as it was, up to the
positions; so is everything that was read from a text; and if strings are put in place of the strings of a
group, then it is the same tree, with the other strings, that is read. -/
theorem parse_render :
    (∀ g : Group, g.WellFormed → ∃ g', parse g.render = .ok g' ∧ g'.unplaced = g.unplaced) ∧
      (∀ (text : String) (g : Group), parse text = .ok g →
        ∃ g', parse g.render = .ok g' ∧ g'.unplaced = g.unplaced) ∧
      ∀ g h : Group, g.WellFormed → h.withoutStrings = g.withoutStrings →
        ∃ h', parse h.render = .ok h' ∧ h'.unplaced = h.unplaced ∧
          h'.unplaced.withoutStrings = g.unplaced.withoutStrings := by
  refine ⟨fun g hg => hg.parse, fun text g h => (wellFormed_of_parse h).parse, fun g h hg hh => ?_⟩
  have hwf : h.WellFormed := by
    rw [← Group.wellFormed_withoutStrings, hh, Group.wellFormed_withoutStrings]
    exact hg
  obtain ⟨h', hp, hu⟩ := hwf.parse
  refine ⟨h', hp, hu, ?_⟩
  rw [hu, ← Group.unplaced_withoutStrings, hh, Group.unplaced_withoutStrings]

/-- A string with a quote, a backslash, a line break and an `or` in it, and one in its place. -/
theorem parse_render_string :
    let g := fun s : String => Group.one (.predicate ⟨"name", .like .anywhere false, [.string s], .start⟩)
    (g "a' or \\ b\n").WellFormed ∧
      ∃ g', parse (g "a' or \\ b\n").render = .ok g' ∧ g'.unplaced = (g "a' or \\ b\n").unplaced ∧
        (∃ g'', parse g'.render = .ok g'' ∧ g''.unplaced = g'.unplaced) ∧
        ∃ h', parse (g "").render = .ok h' ∧ h'.unplaced = (g "").unplaced ∧
          h'.unplaced.withoutStrings = (g "a' or \\ b\n").unplaced.withoutStrings := by
  intro g
  have hg : (g "a' or \\ b\n").WellFormed := by
    intro p hp
    cases List.mem_singleton.mp hp
    refine ⟨⟨by decide, by decide, by decide⟩, ⟨_, rfl⟩, ?_⟩
    intro x hx
    cases List.mem_singleton.mp hx
    trivial
  obtain ⟨g', hp, hu⟩ := parse_render.1 _ hg
  exact ⟨hg, g', hp, hu, parse_render.2.1 _ _ hp, parse_render.2.2 _ (g "") hg rfl⟩

end RecordFilter

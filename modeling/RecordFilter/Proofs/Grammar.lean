import RecordFilter.Filter.Machine

/-!
# The grammar of filters

    query     := clause (connective clause)*
    clause    := predicate | '(' query ')'
    predicate := path ( comparison value
                      | test
                      | matching STRING
                      | membership '(' value (',' value)* ')'
                      | 'between' value 'and' value )
    value     := STRING | NUMBER

A derivation is a tree with one node for each use of a rule, whose leaves are the lexemes from left to
right; the tokens of the rules are built into the nodes, so every tree is a derivation.  `leaves` are
the lexemes of a tree and `group` is the group that it stands for.

The grammar is unambiguous: a list of lexemes has at most one derivation (`QueryTree.leaves_inj`).
Clauses end where they end whatever follows, and a query goes on as long as there is a connective.
-/

namespace RecordFilter

/-- What a lexeme has besides its token. -/
structure Mark where
  text : String
  position : Position

def Mark.lexeme (m : Mark) (t : Token) : Lexeme := ⟨t, m.text, m.position⟩

theorem Mark.lexeme_inj {m m' : Mark} {t t' : Token} (h : m.lexeme t = m'.lexeme t') :
    m = m' ∧ t = t' := by
  cases m
  cases m'
  cases h
  exact ⟨rfl, rfl⟩

@[simp] theorem Mark.token_lexeme (m : Mark) (t : Token) : (m.lexeme t).token = t := rfl

theorem exists_mark (l : Lexeme) : ∃ (m : Mark) (t : Token), l = m.lexeme t :=
  ⟨⟨l.text, l.position⟩, l.token, rfl⟩

/-- The token that a literal is read from. -/
def Operand.token : Operand → Token
  | string t => .string t
  | number t => .number t

theorem Operand.token_inj {x y : Operand} (h : x.token = y.token) : x = y := by
  cases x <;> cases y <;> cases h <;> rfl

/-! ### Trees -/

structure ValueTree where
  operand : Operand
  mark : Mark

def ValueTree.leaf (v : ValueTree) : Lexeme := v.mark.lexeme v.operand.token

/-- The values of a list behind the first, each with the comma before it. -/
abbrev MoreValues := List (Mark × ValueTree)

def MoreValues.leaves (vs : MoreValues) : List Lexeme :=
  vs.flatMap fun v => [v.1.lexeme .comma, v.2.leaf]

/-- What stands behind the path of a predicate. -/
inductive TailTree
  | compare (op : Comparison) (mark : Mark) (value : ValueTree)
  | test (t : Test) (mark : Mark)
  | like (placement : Placement) (negated : Bool) (mark : Mark) (text : String) (textMark : Mark)
  | member (negated : Bool) (mark opening : Mark) (value : ValueTree) (more : MoreValues)
      (closing : Mark)
  | between (mark : Mark) (low : ValueTree) (and : Mark) (high : ValueTree)

namespace TailTree

def operator : TailTree → Operator
  | compare op _ _ => .compare op
  | test t _ => .test t
  | like placement negated _ _ _ => .like placement negated
  | member negated _ _ _ _ _ => .member negated
  | between _ _ _ _ => .between

/-- The literals from left to right. -/
def operands : TailTree → List Operand
  | compare _ _ v => [v.operand]
  | test _ _ => []
  | like _ _ _ text _ => [.string text]
  | member _ _ _ v vs _ => v.operand :: vs.map fun v => v.2.operand
  | between _ low _ high => [low.operand, high.operand]

def leaves : TailTree → List Lexeme
  | compare op m v => [m.lexeme (.operator (.compare op)), v.leaf]
  | test t m => [m.lexeme (.operator (.test t))]
  | like placement negated m text tm =>
    [m.lexeme (.operator (.like placement negated)), tm.lexeme (.string text)]
  | member negated m o v vs c =>
    m.lexeme (.operator (.member negated)) :: o.lexeme .openParen :: v.leaf ::
      (vs.leaves ++ [c.lexeme .closeParen])
  | between m low a high =>
    [m.lexeme (.operator .between), low.leaf, a.lexeme (.connective .and), high.leaf]

end TailTree

mutual

inductive QueryTree
  | mk (first : ClauseTree) (chain : ChainTree)

/-- The clauses of a query behind the first, each with the connective before it. -/
inductive ChainTree
  | done
  | more (op : Connective) (mark : Mark) (clause : ClauseTree) (chain : ChainTree)

inductive ClauseTree
  | predicate (path : String) (mark : Mark) (tail : TailTree)
  | group (opening : Mark) (query : QueryTree) (closing : Mark)

end

mutual

def QueryTree.leaves : QueryTree → List Lexeme
  | .mk c ch => c.leaves ++ ch.leaves

def ChainTree.leaves : ChainTree → List Lexeme
  | .done => []
  | .more op m c ch => m.lexeme (.connective op) :: (c.leaves ++ ch.leaves)

def ClauseTree.leaves : ClauseTree → List Lexeme
  | .predicate path m t => m.lexeme (.path path) :: t.leaves
  | .group o q c => o.lexeme .openParen :: (q.leaves ++ [c.lexeme .closeParen])

end

mutual

/-- The group of a query: its clauses in their order, joined from the left. -/
def QueryTree.group : QueryTree → Group
  | .mk c ch => ch.onto (.one c.clause)

/-- The group with the clauses of the chain joined to it. -/
def ChainTree.onto : ChainTree → Group → Group
  | .done, g => g
  | .more op _ c ch, g => ch.onto (.join g op c.clause)

/-- The clause; a predicate has the position of its path. -/
def ClauseTree.clause : ClauseTree → Clause
  | .predicate path m t => .predicate ⟨path, t.operator, t.operands, m.position⟩
  | .group _ q _ => .group q.group

end

/-! ### Longer queries -/

/-- The chain with one more clause. -/
def ChainTree.snoc (op : Connective) (m : Mark) (c : ClauseTree) : ChainTree → ChainTree
  | .done => .more op m c .done
  | .more op' m' c' ch => .more op' m' c' (snoc op m c ch)

theorem ChainTree.leaves_snoc (op : Connective) (m : Mark) (c : ClauseTree) :
    ∀ ch : ChainTree, (ch.snoc op m c).leaves = ch.leaves ++ m.lexeme (.connective op) :: c.leaves
  | .done => by simp [snoc, leaves]
  | .more _ _ _ ch => by simp [snoc, leaves, leaves_snoc op m c ch]

theorem ChainTree.onto_snoc (op : Connective) (m : Mark) (c : ClauseTree) :
    ∀ (ch : ChainTree) (g : Group), (ch.snoc op m c).onto g = .join (ch.onto g) op c.clause
  | .done, g => by simp [snoc, onto]
  | .more _ _ _ ch, g => by simp [snoc, onto, onto_snoc op m c ch]

def QueryTree.snoc (op : Connective) (m : Mark) (c : ClauseTree) : QueryTree → QueryTree
  | .mk c₀ ch => .mk c₀ (ch.snoc op m c)

theorem QueryTree.leaves_snoc (op : Connective) (m : Mark) (c : ClauseTree) (q : QueryTree) :
    (q.snoc op m c).leaves = q.leaves ++ m.lexeme (.connective op) :: c.leaves := by
  cases q
  simp [snoc, leaves, ChainTree.leaves_snoc]

theorem QueryTree.group_snoc (op : Connective) (m : Mark) (c : ClauseTree) (q : QueryTree) :
    (q.snoc op m c).group = .join q.group op c.clause := by
  cases q
  simp [snoc, group, ChainTree.onto_snoc]

/-! ### One derivation -/

theorem ValueTree.leaf_inj {v w : ValueTree} (h : v.leaf = w.leaf) : v = w := by
  obtain ⟨hm, ht⟩ := Mark.lexeme_inj h
  cases v
  cases w
  cases Operand.token_inj ht
  cases hm
  rfl

/-- A list of values ends at its closing bracket. -/
theorem MoreValues.leaves_inj : ∀ {vs ws : MoreValues} {c d : Mark} {r r' : List Lexeme},
    vs.leaves ++ c.lexeme .closeParen :: r = ws.leaves ++ d.lexeme .closeParen :: r' →
      vs = ws ∧ c = d ∧ r = r'
  | [], [], c, d, r, r', h => by
    injection h with hc hr
    exact ⟨rfl, (Mark.lexeme_inj hc).1, hr⟩
  | [], _ :: _, c, d, r, r', h => by
    injection h with hc hr
    cases (Mark.lexeme_inj hc).2
  | _ :: _, [], c, d, r, r', h => by
    injection h with hc hr
    cases (Mark.lexeme_inj hc).2
  | ⟨m, v⟩ :: vs, ⟨m', w⟩ :: ws, c, d, r, r', h => by
    injection h with hm h
    injection h with hv h
    obtain ⟨rfl, rfl, rfl⟩ := leaves_inj h
    cases (Mark.lexeme_inj hm).1
    cases ValueTree.leaf_inj hv
    exact ⟨rfl, rfl, rfl⟩

/-- What stands behind a path ends where it ends, whatever follows. -/
theorem TailTree.leaves_inj {t u : TailTree} {r r' : List Lexeme}
    (h : t.leaves ++ r = u.leaves ++ r') : t = u ∧ r = r' := by
  cases t <;> cases u <;> injection h with hm h <;> obtain ⟨rfl, ht⟩ := Mark.lexeme_inj hm <;> cases ht
  case compare op _ v w =>
    injection h with hv hr
    cases ValueTree.leaf_inj hv
    exact ⟨rfl, hr⟩
  case test => exact ⟨rfl, h⟩
  case like =>
    injection h with hs hr
    obtain ⟨rfl, ht⟩ := Mark.lexeme_inj hs
    cases ht
    exact ⟨rfl, hr⟩
  case member n m o v vs c o' w ws c' =>
    injection h with ho h
    injection h with hv h
    cases (Mark.lexeme_inj ho).1
    cases ValueTree.leaf_inj hv
    simp only [List.append_eq, List.append_assoc, List.singleton_append] at h
    obtain ⟨rfl, rfl, rfl⟩ := MoreValues.leaves_inj h
    exact ⟨rfl, rfl⟩
  case between m low a high low' a' high' =>
    injection h with hl h
    injection h with ha h
    injection h with hh hr
    cases ValueTree.leaf_inj hl
    cases (Mark.lexeme_inj ha).1
    cases ValueTree.leaf_inj hh
    exact ⟨rfl, hr⟩

/-- Lexemes with which no query goes on: the first of them is no connective. -/
def NoConnective (r : List Lexeme) : Prop :=
  ∀ (op : Connective) (m : Mark) (r' : List Lexeme), r ≠ m.lexeme (.connective op) :: r'

theorem noConnective_nil : NoConnective [] := nofun

theorem noConnective_closeParen (m : Mark) (r : List Lexeme) :
    NoConnective (m.lexeme .closeParen :: r) := by
  intro op m' r' h
  injection h with hm _
  cases (Mark.lexeme_inj hm).2

mutual

/-- A query ends at the first lexeme behind a clause that is no connective. -/
theorem QueryTree.leaves_append_inj : ∀ (q q' : QueryTree) {r r' : List Lexeme},
    NoConnective r → NoConnective r' → q.leaves ++ r = q'.leaves ++ r' → q = q' ∧ r = r'
  | .mk c ch, .mk c' ch', r, r', hr, hr', h => by
    rw [QueryTree.leaves, QueryTree.leaves, List.append_assoc, List.append_assoc] at h
    obtain ⟨rfl, hch⟩ := ClauseTree.leaves_append_inj c c' h
    obtain ⟨rfl, rfl⟩ := ChainTree.leaves_append_inj ch ch' hr hr' hch
    exact ⟨rfl, rfl⟩

theorem ChainTree.leaves_append_inj : ∀ (ch ch' : ChainTree) {r r' : List Lexeme},
    NoConnective r → NoConnective r' → ch.leaves ++ r = ch'.leaves ++ r' → ch = ch' ∧ r = r'
  | .done, .done, _, _, _, _, h => ⟨rfl, h⟩
  | .done, .more op m _ _, _, _, hr, _, h => absurd h (hr op m _)
  | .more op m _ _, .done, _, _, _, hr', h => absurd h.symm (hr' op m _)
  | .more _ _ c ch, .more _ _ c' ch', r, r', hr, hr', h => by
    injection h with hm h
    obtain ⟨rfl, ht⟩ := Mark.lexeme_inj hm
    cases ht
    simp only [List.append_eq, List.append_assoc] at h
    obtain ⟨rfl, hch⟩ := ClauseTree.leaves_append_inj c c' h
    obtain ⟨rfl, rfl⟩ := ChainTree.leaves_append_inj ch ch' hr hr' hch
    exact ⟨rfl, rfl⟩

/-- A clause ends where it ends, whatever follows. -/
theorem ClauseTree.leaves_append_inj : ∀ (c c' : ClauseTree) {r r' : List Lexeme},
    c.leaves ++ r = c'.leaves ++ r' → c = c' ∧ r = r'
  | .predicate _ _ t, .predicate _ _ t', r, r', h => by
    injection h with hm h
    obtain ⟨rfl, ht⟩ := Mark.lexeme_inj hm
    cases ht
    obtain ⟨rfl, rfl⟩ := TailTree.leaves_inj h
    exact ⟨rfl, rfl⟩
  | .predicate _ _ _, .group _ _ _, _, _, h => by
    injection h with hm _
    cases (Mark.lexeme_inj hm).2
  | .group _ _ _, .predicate _ _ _, _, _, h => by
    injection h with hm _
    cases (Mark.lexeme_inj hm).2
  | .group _ q c, .group _ q' c', r, r', h => by
    injection h with hm h
    cases (Mark.lexeme_inj hm).1
    simp only [List.append_eq, List.append_assoc, List.singleton_append] at h
    obtain ⟨rfl, hq⟩ := QueryTree.leaves_append_inj q q' (noConnective_closeParen c r)
      (noConnective_closeParen c' r') h
    injection hq with hc hr
    cases (Mark.lexeme_inj hc).1
    exact ⟨rfl, hr⟩

end

/-- **The grammar is unambiguous.** -/
theorem QueryTree.leaves_inj {q q' : QueryTree} (h : q.leaves = q'.leaves) : q = q' := by
  refine (leaves_append_inj q q' noConnective_nil noConnective_nil ?_).1
  rw [List.append_nil, List.append_nil, h]

end RecordFilter

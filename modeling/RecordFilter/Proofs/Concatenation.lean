import RecordFilter.Proofs.Derivation
import RecordFilter.Proofs.TokenStream
import RecordFilter.Proofs.WellFormed

/-!
# Filters put together

A derivation can be moved to another place (`QueryTree.behind`) and be gone on with by another one
(`QueryTree.append`), and so can the groups that they stand for.  Together with the tokens of texts in a
row this gives the groups of texts that are made of the texts of other groups: of a text in brackets
(`parse_inBrackets`), and of two texts with a connective between them (`parse_connected`).
-/

namespace RecordFilter

open RecordFilter.Text

/-! ### Derivations in another place -/

def Mark.behind (base : Position) (m : Mark) : Mark := ⟨m.text, base.behind m.position⟩

theorem Mark.behind_lexeme (base : Position) (m : Mark) (t : Token) :
    (m.lexeme t).behind base = (m.behind base).lexeme t := rfl

def ValueTree.behind (base : Position) (v : ValueTree) : ValueTree := ⟨v.operand, v.mark.behind base⟩

def TailTree.behind (base : Position) : TailTree → TailTree
  | compare op m v => compare op (m.behind base) (v.behind base)
  | test t m => test t (m.behind base)
  | like placement negated m text tm => like placement negated (m.behind base) text (tm.behind base)
  | member negated m o v vs c =>
    member negated (m.behind base) (o.behind base) (v.behind base)
      (vs.map fun v => (v.1.behind base, v.2.behind base)) (c.behind base)
  | between m low a high =>
    between (m.behind base) (low.behind base) (a.behind base) (high.behind base)

mutual

/-- The derivation of the same text in a text that begins at `base`. -/
def QueryTree.behind (base : Position) : QueryTree → QueryTree
  | .mk c ch => .mk (c.behind base) (ch.behind base)

def ChainTree.behind (base : Position) : ChainTree → ChainTree
  | .done => .done
  | .more op m c ch => .more op (m.behind base) (c.behind base) (ch.behind base)

def ClauseTree.behind (base : Position) : ClauseTree → ClauseTree
  | .predicate path m t => .predicate path (m.behind base) (t.behind base)
  | .group o q c => .group (o.behind base) (q.behind base) (c.behind base)

end

def Predicate.behind (base : Position) (p : Predicate) : Predicate :=
  { p with position := base.behind p.position }

/-- The group of a text that begins at `base`. -/
def Group.behind (base : Position) (g : Group) : Group := g.mapPredicates (Predicate.behind base)

section behind

variable (base : Position)

theorem MoreValues.leaves_behind (vs : MoreValues) :
    MoreValues.leaves (vs.map fun v => (v.1.behind base, v.2.behind base)) =
      vs.leaves.map (Lexeme.behind base) := by
  rw [leaves, leaves, List.flatMap_map, List.map_flatMap]
  rfl

theorem TailTree.leaves_behind (t : TailTree) :
    (t.behind base).leaves = t.leaves.map (Lexeme.behind base) := by
  cases t with
  | member negated m o v vs c =>
    simp only [behind, leaves, MoreValues.leaves_behind, List.map_cons, List.map_append, List.map_nil]
    rfl
  | _ => rfl

theorem TailTree.operator_behind (t : TailTree) : (t.behind base).operator = t.operator := by
  cases t <;> rfl

theorem TailTree.operands_behind (t : TailTree) : (t.behind base).operands = t.operands := by
  cases t with
  | member negated m o v vs c =>
    simp only [behind, operands, List.map_map]
    rfl
  | _ => rfl

mutual

theorem QueryTree.leaves_behind : ∀ q : QueryTree,
    (q.behind base).leaves = q.leaves.map (Lexeme.behind base)
  | .mk c ch => by
    rw [QueryTree.behind, QueryTree.leaves, QueryTree.leaves, c.leaves_behind, ch.leaves_behind,
      List.map_append]

theorem ChainTree.leaves_behind : ∀ ch : ChainTree,
    (ch.behind base).leaves = ch.leaves.map (Lexeme.behind base)
  | .done => rfl
  | .more op m c ch => by
    rw [ChainTree.behind, ChainTree.leaves, ChainTree.leaves, c.leaves_behind, ch.leaves_behind,
      List.map_cons, List.map_append, Mark.behind_lexeme]

theorem ClauseTree.leaves_behind : ∀ c : ClauseTree,
    (c.behind base).leaves = c.leaves.map (Lexeme.behind base)
  | .predicate path m t => by
    rw [ClauseTree.behind, ClauseTree.leaves, ClauseTree.leaves, t.leaves_behind, List.map_cons,
      Mark.behind_lexeme]
  | .group o q c => by
    rw [ClauseTree.behind, ClauseTree.leaves, ClauseTree.leaves, q.leaves_behind, List.map_cons,
      List.map_append, Mark.behind_lexeme]
    rfl

end

mutual

theorem QueryTree.group_behind : ∀ q : QueryTree, (q.behind base).group = q.group.behind base
  | .mk c ch => by
    rw [QueryTree.behind, QueryTree.group, QueryTree.group, ch.onto_behind, c.clause_behind]
    rfl

theorem ChainTree.onto_behind : ∀ (ch : ChainTree) (g : Group),
    (ch.onto g).behind base = (ch.behind base).onto (g.behind base)
  | .done, g => rfl
  | .more op m c ch, g => by
    rw [ChainTree.behind, ChainTree.onto, ChainTree.onto, ch.onto_behind, c.clause_behind]
    rfl

theorem ClauseTree.clause_behind : ∀ c : ClauseTree,
    (c.behind base).clause = Group.mapClause (Predicate.behind base) c.clause
  | .predicate path m t => by
    rw [ClauseTree.behind, ClauseTree.clause, ClauseTree.clause, t.operator_behind, t.operands_behind]
    rfl
  | .group o q c => by
    rw [ClauseTree.behind, ClauseTree.clause, ClauseTree.clause, q.group_behind]
    rfl

end

end behind

/-! ### Derivations one behind the other -/

/-- The clauses of the one group and of the other, with a connective between them. -/
def Group.append (g : Group) (op : Connective) : Group → Group
  | one c => .join g op c
  | join h op' c => .join (g.append op h) op' c

/-- The chain gone on with by a query. -/
def ChainTree.append (op : Connective) (m : Mark) (q : QueryTree) : ChainTree → ChainTree
  | .done => match q with | .mk c ch => .more op m c ch
  | .more op' m' c' ch' => .more op' m' c' (ch'.append op m q)

/-- The query gone on with by another one. -/
def QueryTree.append (op : Connective) (m : Mark) : QueryTree → QueryTree → QueryTree
  | .mk c ch, r => .mk c (ch.append op m r)

section append

variable (op : Connective) (m : Mark) (r : QueryTree)

theorem ChainTree.leaves_append : ∀ ch : ChainTree,
    (ch.append op m r).leaves = ch.leaves ++ m.lexeme (.connective op) :: r.leaves
  | .done => by
    cases r
    rw [append, leaves, leaves, QueryTree.leaves, List.nil_append]
  | .more op' m' c' ch' => by
    rw [append, leaves, leaves, leaves_append ch', List.cons_append, List.append_assoc]

theorem QueryTree.leaves_append (q : QueryTree) :
    (append op m q r).leaves = q.leaves ++ m.lexeme (.connective op) :: r.leaves := by
  cases q
  rw [append, leaves, leaves, ChainTree.leaves_append, List.append_assoc]

end append

/-! ### Texts -/

/-- The text of a derivation has it moved where it is put. -/
theorem Laid.query {cs : List Char} {q : QueryTree} (h : Laid .start cs q.leaves) (base : Position) :
    Laid base cs (q.behind base).leaves := by
  have hplaced := h.placed ⟨[], rfl⟩ base
  rw [Position.behind_start] at hplaced
  rwa [q.leaves_behind]

/-- The spellings of a connective: its symbol, or its word in small or capital letters. -/
def Connective.Written (op : Connective) (w : String) : Prop :=
  w = op.symbol ∨ lowered w.toList = op.word

theorem isWordStart_of_toLower {c : Char} (h : isWordStart c.toLower = true) :
    isWordStart c = true := by
  unfold Char.toLower at h
  split at h
  · rename_i hc
    have hu : c.isUpper = true := decide_eq_true hc
    have ha : c.isAlpha = true := Bool.or_eq_true_iff.mpr (.inl hu)
    rw [isWordStart, ha, Bool.true_or]
  · exact h

/-- A word of letters in capital or small letters is a plain word. -/
theorem plainWord_of_lowered {w : List Char} {word : String} (h : lowered w = word)
    (hword : word ≠ "" ∧ word.toList.all isWordStart = true) : PlainWord w := by
  have hw : w.map Char.toLower = word.toList := by rw [← h, lowered, String.toList_ofList]
  have hstart : ∀ c ∈ w, isWordStart c = true := by
    intro c hc
    exact isWordStart_of_toLower (List.all_eq_true.mp hword.2 _ (hw ▸ List.mem_map_of_mem hc))
  refine ⟨?_, List.all_eq_true.mpr fun c hc => isWordChar_of_isWordStart (hstart c hc), ?_⟩
  · cases w with
    | nil => exact absurd (String.toList_eq_nil_iff.mp hw.symm) hword.1
    | cons c cs => exact hstart c List.mem_cons_self
  · rw [Bool.eq_false_iff]
    intro hc
    cases hstart '.' (List.contains_iff_mem.mp hc)

theorem Connective.Written.plainWord {op : Connective} {w : String}
    (h : lowered w.toList = op.word) : PlainWord w.toList :=
  plainWord_of_lowered h (by cases op <;> decide)

theorem Connective.Written.read {op : Connective} {w : String} (h : op.Written w) :
    readToken w.toList = .found (.connective op) w.toList [] := by
  rcases h with rfl | h
  · cases op <;> rfl
  · have hkey : keyword? (lowered w.toList) = some (.connective op) := by
      rw [h]
      cases op <;> rfl
    have hread := readsAs_keyword (plainWord h) (by rw [h]; cases op <;> decide)
      (by rw [h]; cases op <;> decide) hkey [] endsToken_nil
    rwa [List.append_nil] at hread

end RecordFilter

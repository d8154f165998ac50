import Mathlib.Data.List.Infix
import RecordFilter.Proofs.Printing

/-!
# Where a fault is reported

Tokens are viable if some filter that can be read begins with them; the end of the text counts as a
token.  The machine takes a token just if the tokens up to it are viable (`Machine.viable_iff_accepts`):
whatever row it is in, a few tokens complete the row and the rows around it (`Machine.closing`), and a
token that it refuses stands in no derivation at that place, since a derivation is read wherever its
lexemes come from.

So a text that is not read has either a first token up to which its tokens are not viable, and this is
the token that is reported, or viable tokens up to a fault that is no matter of the grammar, and this
fault is reported (`error_of_parse`).
-/

namespace RecordFilter

/-- The tokens before the first fault of a text, with the end of the text if there is no fault. -/
def Feed.lexemes (f : Feed) : List Lexeme :=
  match f.stop with
  | .endOfText l => f.tokens ++ [l]
  | .fault _ _ => f.tokens

/-- Some filter that can be read begins with these tokens. -/
def Viable (ts : List Token) : Prop :=
  ∃ (text : String) (g : Group) (ls : List Lexeme),
    parse text = .ok g ∧ tokenize text = .ok ls ∧ ts <+: ls.map Lexeme.token

theorem Viable.of_longer {ts us : List Token} (h : Viable us) (hp : ts <+: us) : Viable ts := by
  obtain ⟨text, g, ls, hg, hls, hu⟩ := h
  exact ⟨text, g, ls, hg, hls, hp.trans hu⟩

/-! ### The tokens of a derivation -/

theorem ValueTree.token_leaf (v : ValueTree) : v.leaf.token = v.operand.token := rfl

theorem MoreValues.tokens_leaves (vs : MoreValues) :
    vs.leaves.map Lexeme.token = moreTokens (vs.map fun v => v.2.operand) := by
  induction vs with
  | nil => rfl
  | cons v vs ih =>
    rw [List.map_cons, moreTokens, List.flatMap_cons, ← moreTokens, ← ih]
    rfl

/-- What stands behind a path has the tokens of the predicate. -/
theorem TailTree.tokens_leaves (path : String) (position : Position) (t : TailTree) :
    .path path :: t.leaves.map Lexeme.token =
      Predicate.tokens ⟨path, t.operator, t.operands, position⟩ := by
  cases t with
  | member n m o v vs c =>
    have hvs := vs.tokens_leaves
    simp only [leaves, operator, operands, Predicate.tokens, Predicate.operandTokens, List.map_cons,
      List.map_append, List.map_nil, Mark.token_lexeme, ValueTree.token_leaf, hvs]
  | _ => rfl

mutual

/-- The leaves of a derivation have the tokens of its group. -/
theorem QueryTree.tokens_leaves : ∀ q : QueryTree, q.leaves.map Lexeme.token = q.group.tokens
  | .mk c ch => by
    rw [QueryTree.leaves, List.map_append, c.tokens_leaves, QueryTree.group, ch.tokens_onto]
    rfl

theorem ChainTree.tokens_onto : ∀ (ch : ChainTree) (g : Group),
    (ch.onto g).tokens = g.tokens ++ ch.leaves.map Lexeme.token
  | .done, g => (List.append_nil _).symm
  | .more op m c ch, g => by
    rw [ChainTree.onto, ch.tokens_onto, Group.tokens, ChainTree.leaves, List.map_cons,
      List.map_append, c.tokens_leaves, List.append_assoc]
    rfl

theorem ClauseTree.tokens_leaves : ∀ c : ClauseTree,
    c.leaves.map Lexeme.token = Group.clauseTokens c.clause
  | .predicate path m t => t.tokens_leaves path m.position
  | .group o q c => by
    rw [ClauseTree.leaves, List.map_cons, List.map_append, q.tokens_leaves]
    rfl

end

/-! ### Viable tokens begin a group that can be written -/

theorem Group.viable_tokens {g : Group} (hg : g.WellFormed) : Viable (g.tokens ++ [.endOfText]) := by
  have hs := g.spelled hg endsToken_nil Spelled.done
  rw [List.append_nil, List.append_nil] at hs
  obtain ⟨ls, e, hf, hls⟩ := hs.feed .start
  obtain ⟨q, hq, -⟩ := g.exists_query hg hls
  have he : e.token = .endOfText :=
    (Cursor.ofText g.render).shaped_feed.2 e (congrArg Feed.stop hf)
  have hp : parse g.render = .ok q.group := Feed.parse_eq_ok_iff.mpr ⟨ls, e, hf, q, hq, rfl⟩
  refine ⟨g.render, q.group, ls ++ [e], hp, Feed.toTokens_eq_ok_iff.mpr hf, ?_⟩
  rw [List.map_append, hls, List.map_singleton, he]

theorem viable_iff {ts : List Token} :
    Viable ts ↔ ∃ g : Group, g.WellFormed ∧ ts <+: g.tokens ++ [.endOfText] := by
  constructor
  · rintro ⟨text, g, ls, hg, hls, hts⟩
    obtain ⟨ks, e, hf, q, rfl, rfl⟩ := Feed.parse_eq_ok_iff.mp hg
    have he : e.token = .endOfText :=
      (Cursor.ofText text).shaped_feed.2 e (congrArg Feed.stop hf)
    have hks : tokenize text = .ok (q.leaves ++ [e]) := Feed.toTokens_eq_ok_iff.mpr hf
    rw [hks] at hls
    refine ⟨q.group, wellFormed_of_parse hg, ?_⟩
    rwa [← Except.ok.inj hls, List.map_append, q.tokens_leaves, List.map_singleton, he] at hts
  · rintro ⟨g, hg, hts⟩
    exact (Group.viable_tokens hg).of_longer hts

/-! ### Whatever has been read can be completed -/

/-- A lexeme of the token, wherever it stands. -/
def Token.somewhere (t : Token) : Lexeme := ⟨t, t.spelling, .start⟩

/-- Tokens that complete a predicate. -/
def Due.closing : Due → List Token
  | operator => [.operator (.test .isNull)]
  | value _ => [.string ""]
  | string _ _ => [.string ""]
  | openList _ => [.openParen, .string "", .closeParen]
  | item _ _ => [.string "", .closeParen]
  | afterItem _ _ => [.closeParen]
  | low => [.string "", .connective .and, .string ""]
  | betweenBounds _ => [.connective .and, .string ""]
  | high _ => [.string ""]

/-- Tokens that complete a row. -/
def RowState.closing : RowState → List Token
  | clause _ => .path "a" :: Due.operator.closing
  | predicate _ _ _ due => due.closing
  | complete _ => []

/-- Tokens that complete the row and the rows around it. -/
def Machine.closing (m : Machine) : List Token := m.row.closing ++ m.outer.map fun _ => .closeParen

theorem RowState.shaped_closing (r : RowState) : ∀ t ∈ r.closing, t.Shaped := by
  rcases r with _ | ⟨_, _, _, _ | _ | _ | _ | _ | _ | _ | _ | _⟩ | _ <;>
    simp [closing, Due.closing, Token.Shaped]
  exact ⟨by decide, by decide, by decide⟩

namespace Machine

theorem shaped_closing (m : Machine) : ∀ t ∈ m.closing, t.Shaped := by
  refine List.forall_mem_append.mpr ⟨m.row.shaped_closing, List.forall_mem_map.mpr ?_⟩
  intro _ _
  trivial

theorem run_row_closing (row : RowState) (os : List Opening) (rest : List Lexeme) :
    ∃ g : Group, (⟨row, os⟩ : Machine).run (row.closing.map Token.somewhere ++ rest) =
      (⟨.complete g, os⟩ : Machine).run rest := by
  rcases row with _ | ⟨_, _, _, _ | _ | _ | _ | _ | _ | _ | _ | _⟩ | _ <;> exact ⟨_, rfl⟩

/-- The rows around a complete row are completed by as many brackets. -/
theorem run_brackets (os : List Opening) : ∀ g : Group, ∃ g' : Group,
    (⟨.complete g, os⟩ : Machine).run (os.map fun _ => Token.closeParen.somewhere) =
      (⟨.complete g', []⟩, []) := by
  induction os with
  | nil => exact fun g => ⟨g, rfl⟩
  | cons o os ih => exact fun g => ih (o.with (.group g))

theorem run_closing (m : Machine) :
    ∃ g : Group, m.run (m.closing.map Token.somewhere) = (⟨.complete g, []⟩, []) := by
  obtain ⟨g, hg⟩ := run_row_closing m.row m.outer (m.outer.map fun _ => Token.closeParen.somewhere)
  obtain ⟨g', hg'⟩ := run_brackets m.outer g
  refine ⟨g', ?_⟩
  rw [closing, List.map_append, List.map_map]
  exact hg.trans hg'

/-- What the machine has taken is viable, and so it is with the end of the text if it may end. -/
theorem viable_of_run {m : Machine} {ls : List Lexeme} (h : start.run ls = (m, []))
    (hs : ∀ l ∈ ls, l.token.Shaped) :
    Viable (ls.map Lexeme.token ++ m.closing ++ [.endOfText]) := by
  obtain ⟨g, hg⟩ := m.run_closing
  have hrun : start.run (ls ++ m.closing.map Token.somewhere) = (⟨.complete g, []⟩, []) :=
    (run_append h _).trans hg
  obtain ⟨q, hq, rfl⟩ := run_start_iff.mp ⟨_, hrun, rfl⟩
  have hshaped : ∀ l ∈ q.leaves, l.token.Shaped := by
    rw [hq, List.forall_mem_append, List.forall_mem_map]
    exact ⟨hs, m.shaped_closing⟩
  have htokens : q.group.tokens = ls.map Lexeme.token ++ m.closing := by
    rw [← q.tokens_leaves, hq, List.map_append, List.map_map]
    exact congrArg _ (List.map_id _)
  rw [← htokens]
  exact Group.viable_tokens (q.wellFormed hshaped)

/-! ### The machine takes what is viable -/

/-- The token may come next, or the text may end and this is its end. -/
def Accepts (m : Machine) (l : Lexeme) : Prop :=
  (∃ m', m.take? l = some m') ∨ l.token = .endOfText ∧ ∃ g, m.result? = some g

theorem take?_endOfText (m : Machine) {l : Lexeme} (hl : l.token = .endOfText) : m.take? l = none := by
  rcases m with ⟨_ | ⟨_, _, _, _ | _ | _ | _ | _ | _ | _ | _ | _⟩ | _, _ | _⟩ <;>
    simp [take?, hl, Due.take?, Token.operator?, Token.operand?]

/-- **A token may come just if the tokens up to it are viable.** -/
theorem viable_iff_accepts {m : Machine} {before : List Lexeme} {l : Lexeme}
    (h : start.run before = (m, [])) (hs : ∀ k ∈ before, k.token.Shaped) (hl : l.token.Shaped) :
    Viable ((before ++ [l]).map Lexeme.token) ↔ m.Accepts l := by
  constructor
  · intro hv
    obtain ⟨g, hg, rest, hrest⟩ := viable_iff.mp hv
    -- the lexemes that were read and such as the filter goes on with derive the filter
    rcases List.eq_nil_or_concat rest with rfl | ⟨rest, t, rfl⟩
    · rw [List.append_nil, List.map_append] at hrest
      obtain ⟨htokens, hend⟩ := List.append_inj' hrest rfl
      obtain ⟨q, rfl, -⟩ := g.exists_query hg htokens
      obtain ⟨m', hm', hres⟩ := run_start_iff.mpr ⟨q, rfl, rfl⟩
      cases h.symm.trans hm'
      exact Or.inr ⟨(List.cons.inj hend).1, _, hres⟩
    · rw [List.concat_eq_append, ← List.append_assoc] at hrest
      obtain ⟨htokens, -⟩ := List.append_inj' hrest rfl
      have hls : (before ++ l :: rest.map Token.somewhere).map Lexeme.token = g.tokens := by
        rw [← htokens]
        simp [Function.comp_def, Token.somewhere]
      obtain ⟨q, hq, -⟩ := g.exists_query hg hls
      obtain ⟨m', hm', -⟩ := run_start_iff.mpr ⟨q, hq, rfl⟩
      rw [run_append h] at hm'
      cases ht : m.take? l with
      | none =>
        rw [run_cons_none ht] at hm'
        cases hm'
      | some n => exact Or.inl ⟨n, ht⟩
  · rintro (⟨m', hm'⟩ | ⟨hend, g, hg⟩)
    · have hrun : start.run (before ++ [l]) = (m', []) := by
        rw [run_append h, run_cons_some hm', run_nil]
      have hshaped : ∀ k ∈ before ++ [l], k.token.Shaped :=
        List.forall_mem_append.mpr ⟨hs, List.forall_mem_singleton.mpr hl⟩
      refine (viable_of_run hrun hshaped).of_longer ?_
      rw [List.append_assoc]
      exact List.prefix_append _ _
    · obtain ⟨q, rfl, rfl⟩ := run_start_iff.mp ⟨m, h, hg⟩
      rw [List.map_append, List.map_singleton, hend, q.tokens_leaves]
      exact Group.viable_tokens (q.wellFormed hs)

/-- A machine that stops has taken the tokens in front of the one that may not come. -/
theorem run_eq_cons {m m' : Machine} {l : Lexeme} {ls rest : List Lexeme}
    (h : m.run ls = (m', l :: rest)) :
    ∃ before, ls = before ++ l :: rest ∧ m.run before = (m', []) := by
  induction ls generalizing m with
  | nil => cases h
  | cons k ls ih =>
    cases ht : m.take? k with
    | none =>
      rw [run_cons_none ht] at h
      cases h
      exact ⟨[], rfl, rfl⟩
    | some n =>
      rw [run_cons_some ht] at h
      obtain ⟨before, rfl, hb⟩ := ih h
      exact ⟨k :: before, rfl, (run_cons_some ht before).trans hb⟩

end Machine

/-! ### Faults of the grammar and of the tokens -/

namespace SyntaxFault

/-- The token that the fault is about, if it is one that may not come where it stands. -/
def refused? : SyntaxFault → Option Token
  | emptyFilter => some .endOfText
  | clauseExpected t => some t
  | operatorExpected _ t => some t
  | valueExpected _ t => some t
  | stringExpected _ t => some t
  | markExpected _ t => some t
  | endExpected t => some t
  | _ => none

end SyntaxFault

/-- The machine reports the token that may not come. -/
theorem Machine.refused?_refusal (m : Machine) (t : Token) : (m.refusal t).refused? = some t := by
  rcases m with ⟨(_ | _) | ⟨_, _, _, _ | _ | _ | _ | _ | _ | _ | _ | _⟩ | _, _ | _⟩ <;> try rfl
  by_cases ht : t = .endOfText <;> simp [refusal, SyntaxFault.refused?, ht]

/-- If the reading fails, then not because of a token that may not come. -/
def Reading.OfToken (r : Reading) : Prop :=
  ∀ f, r.outcome = .error f → f.fault.refused? = none

theorem Reading.ofToken_found (t : Token) (text rest : List Char) : (found t text rest).OfToken :=
  nofun

theorem Reading.ofToken_failed {fault : SyntaxFault} (h : fault.refused? = none)
    (before text rest : List Char) : (failed fault before text rest).OfToken := by
  intro f hf
  cases hf
  exact h

theorem ofToken_readString (cs : List Char) : (readString cs).OfToken := by
  unfold readString
  dsimp only
  split
  · exact Reading.ofToken_failed rfl _ _ _
  · split_ifs
    · exact Reading.ofToken_found _ _ _
    · exact Reading.ofToken_failed rfl _ _ _
  · split_ifs
    · exact Reading.ofToken_found _ _ _
    · exact Reading.ofToken_failed rfl _ _ _

theorem ofToken_readNumber (cs : List Char) : (readNumber cs).OfToken := by
  unfold readNumber
  dsimp only
  split
  · split_ifs
    · exact Reading.ofToken_found _ _ _
    · exact Reading.ofToken_failed rfl _ _ _
  · exact Reading.ofToken_found _ _ _

theorem ofToken_readFollower (lead : Lead) (text rest : List Char)
    {go : String → List Char → List Char → Reading} (hgo : ∀ w t r, (go w t r).OfToken) :
    (readFollower lead text rest go).OfToken := by
  unfold readFollower
  dsimp only
  split
  · exact Reading.ofToken_failed rfl _ _ _
  · split_ifs
    · exact hgo _ _ _
    · exact Reading.ofToken_failed rfl _ _ _

theorem ofToken_readIs (text rest : List Char) : (readIs text rest).OfToken := by
  refine ofToken_readFollower _ _ _ fun w t r => ?_
  split_ifs
  · exact Reading.ofToken_found _ _ _
  · exact Reading.ofToken_found _ _ _
  · exact Reading.ofToken_found _ _ _
  · refine ofToken_readFollower _ _ _ fun w t r => ?_
    split_ifs
    · exact Reading.ofToken_found _ _ _
    · exact Reading.ofToken_failed rfl _ _ _
  · exact Reading.ofToken_failed rfl _ _ _

theorem ofToken_readNot (text rest : List Char) : (readNot text rest).OfToken := by
  refine ofToken_readFollower _ _ _ fun w t r => ?_
  split_ifs
  · exact Reading.ofToken_found _ _ _
  · exact Reading.ofToken_found _ _ _
  · exact Reading.ofToken_found _ _ _
  · exact Reading.ofToken_failed rfl _ _ _

theorem ofToken_readWord (cs : List Char) : (readWord cs).OfToken := by
  unfold readWord
  dsimp only
  split
  · exact Reading.ofToken_failed rfl _ _ _
  · split_ifs
    · exact Reading.ofToken_found _ _ _
    · exact ofToken_readIs _ _
    · exact ofToken_readNot _ _
    · split
      · exact Reading.ofToken_found _ _ _
      · exact Reading.ofToken_found _ _ _

theorem ofToken_readToken (cs : List Char) : (readToken cs).OfToken := by
  unfold readToken
  split
  · exact Reading.ofToken_found _ _ _
  · split
    · exact Reading.ofToken_found _ _ _
    · unfold readOther
      split_ifs
      · exact Reading.ofToken_failed rfl _ _ _
      · exact ofToken_readString _
      · exact ofToken_readNumber _
      · exact ofToken_readWord _
      · exact Reading.ofToken_failed rfl _ _ _

/-- A fault between tokens is not about a token that may not come. -/
theorem Cursor.refused?_of_feed (c : Cursor) {e : SyntaxError} {c' : Cursor}
    (h : c.feed.stop = .fault e c') : e.fault.refused? = none := by
  cases hn : c.next.1 with
  | error e' =>
    rw [feed_error hn] at h
    cases h
    unfold next at hn
    dsimp only at hn
    split at hn
    · cases hn
    · rename_i f hf
      cases hn
      exact ofToken_readToken _ f hf
  | ok l =>
    by_cases hl : l.token = .endOfText
    · rw [feed_end hn hl] at h
      cases h
    · rw [feed_token hn hl] at h
      exact c.next.2.refused?_of_feed h
termination_by c.rest.length
decreasing_by exact next_length_lt hn hl

/-! ### The first fault -/

/-- The error is about one of these lexemes and stands at its position: the tokens in front of it are
viable, with it they are not. -/
def SyntaxError.AtFirstRefused (e : SyntaxError) (ls : List Lexeme) : Prop :=
  ∃ (before : List Lexeme) (l : Lexeme) (after : List Lexeme),
    ls = before ++ l :: after ∧ e.position = l.position ∧ e.fault.refused? = some l.token ∧
      Viable (before.map Lexeme.token) ∧ ¬ Viable ((before ++ [l]).map Lexeme.token)

theorem SyntaxError.AtFirstRefused.not_viable {e : SyntaxError} {ls : List Lexeme}
    (h : e.AtFirstRefused ls) : ¬ Viable (ls.map Lexeme.token) := by
  obtain ⟨before, l, after, rfl, -, -, -, hl⟩ := h
  refine fun hv => hl (hv.of_longer ?_)
  have hp : before ++ [l] <+: before ++ l :: after := ⟨after, by simp⟩
  exact hp.map Lexeme.token

/-- Where the machine stops, its refusal is about the first token that is refused. -/
theorem Machine.atFirstRefused {m : Machine} {before : List Lexeme} {l : Lexeme}
    (h : start.run before = (m, [])) (hs : ∀ k ∈ before, k.token.Shaped) (hl : l.token.Shaped)
    (hm : ¬ m.Accepts l) (after : List Lexeme) :
    (⟨l.position, m.refusal l.token⟩ : SyntaxError).AtFirstRefused (before ++ l :: after) := by
  refine ⟨before, l, after, rfl, rfl, m.refused?_refusal l.token, ?_, ?_⟩
  · refine (viable_of_run h hs).of_longer ?_
    rw [List.append_assoc]
    exact List.prefix_append _ _
  · exact fun hv => hm ((viable_iff_accepts h hs hl).mp hv)

/-- A text that is refused inside a row: the tokens behind the refused one, and a fault among them, are
not looked at. -/
theorem Feed.atFirstRefused_of_left {f : Feed} {m : Machine} {l : Lexeme} {after : List Lexeme}
    {e : SyntaxError} (hs : ∀ k ∈ f.tokens, k.token.Shaped ∧ k.token ≠ .endOfText)
    (hrun : Machine.start.run f.tokens = (m, l :: after)) (h : f.parse.1 = .error e) :
    e.AtFirstRefused f.lexemes := by
  obtain ⟨tokens, stop⟩ := f
  obtain ⟨before, rfl, hbefore⟩ := Machine.run_eq_cons hrun
  simp only [Feed.parse, hrun] at h
  cases h
  have hl := hs l (by simp)
  have hm : ¬ m.Accepts l := by
    rintro (⟨m', hm'⟩ | ⟨hend, -⟩)
    · rw [Machine.take?_of_run_cons hrun] at hm'
      cases hm'
    · exact hl.2 hend
  have hat := Machine.atFirstRefused hbefore (fun k hk => (hs k (by simp [hk])).1) hl.1 hm
  cases stop with
  | endOfText k =>
    have hk := hat (after ++ [k])
    rwa [← List.cons_append, ← List.append_assoc] at hk
  | fault e' c => exact hat after

/-- A text that ends where it may not end. -/
theorem Feed.atFirstRefused_of_end {tokens : List Lexeme} {m : Machine} {l : Lexeme} {e : SyntaxError}
    (hs : ∀ k ∈ tokens, k.token.Shaped) (hl : l.token = .endOfText)
    (hrun : Machine.start.run tokens = (m, []))
    (h : (Feed.mk tokens (.endOfText l)).parse.1 = .error e) :
    e.AtFirstRefused (tokens ++ [l]) := by
  simp only [Feed.parse, hrun, Machine.finish] at h
  cases hg : m.result? with
  | some g =>
    rw [hg] at h
    cases h
  | none =>
    rw [hg] at h
    cases h
    have hm : ¬ m.Accepts l := by
      rintro (⟨m', hm'⟩ | ⟨-, g, hg'⟩)
      · rw [m.take?_endOfText hl] at hm'
        cases hm'
      · rw [hg] at hg'
        cases hg'
    have hshaped : l.token.Shaped := by
      rw [hl]
      trivial
    exact Machine.atFirstRefused hrun hs hshaped hm []

/-- **The first fault is reported.**  If a text is not read, then either it has a token up to which its
tokens are not viable, and the first such token is reported at its position, or all of its tokens are
viable, up to a fault between them, and this is the fault of `tokenize`. -/
theorem error_of_parse {text : String} {e : SyntaxError} (h : parse text = .error e) :
    (¬ Viable ((Feed.ofText text).lexemes.map Lexeme.token) ∧
        e.AtFirstRefused (Feed.ofText text).lexemes) ∨
      (Viable ((Feed.ofText text).lexemes.map Lexeme.token) ∧
        tokenize text = .error e ∧ e.fault.refused? = none) := by
  obtain ⟨hs, hlast⟩ := (Cursor.ofText text).shaped_feed
  have hfault : ∀ e' c', (Cursor.ofText text).feed.stop = .fault e' c' → e'.fault.refused? = none :=
    fun _ _ => Cursor.refused?_of_feed _
  rw [parse] at h
  rw [tokenize]
  rw [← Feed.ofText] at hs hlast hfault
  cases hrun : Machine.start.run (Feed.ofText text).tokens with
  | mk m left =>
    cases left with
    | cons l after =>
      have hat := Feed.atFirstRefused_of_left hs hrun h
      exact Or.inl ⟨hat.not_viable, hat⟩
    | nil =>
      have hshaped := fun k hk => (hs k hk).1
      generalize Feed.ofText text = f at h hlast hfault hrun hshaped ⊢
      obtain ⟨tokens, stop⟩ := f
      cases stop with
      | endOfText l =>
        have hat := Feed.atFirstRefused_of_end hshaped (hlast l rfl) hrun h
        exact Or.inl ⟨hat.not_viable, hat⟩
      | fault e' c =>
        simp only [Feed.parse, hrun] at h
        cases h
        refine Or.inr ⟨(Machine.viable_of_run hrun hshaped).of_longer ?_, rfl, hfault e c rfl⟩
        rw [List.append_assoc]
        exact List.prefix_append _ _

/-- The second path is reported, not the string that is open further on. -/
theorem error_of_parse_openString :
    let text := "age > 1 name = 'x"
    let e : SyntaxError := ⟨⟨1, 9⟩, .endExpected (.path "name")⟩
    parse text = .error e ∧ tokenize text = .error ⟨⟨1, 16⟩, .openString⟩ ∧
      e.AtFirstRefused (Feed.ofText text).lexemes := by
  intro text e
  have hp : parse text = .error e := by decide +kernel
  have ht : tokenize text = .error ⟨⟨1, 16⟩, .openString⟩ := by decide +kernel
  refine ⟨hp, ht, ?_⟩
  rcases error_of_parse hp with ⟨-, h⟩ | ⟨-, -, h⟩
  · exact h
  · cases h

end RecordFilter

import RecordFilter.Proofs.Concatenation

/-!
# Renderings of the same tokens

The words of an operator and of a connective can be written in capital or small letters, some tokens have
two spellings, and whatever blanks there are between two words do not matter.  `Rendered ts cs` says that
the text `cs` writes the tokens `ts` in one of these ways.  Such a text has these tokens
(`Rendered.laid`), and what is read from a text is told from its tokens, but for the positions
(`Feed.parse_unplaced`).  So all renderings of the same tokens are read to the same group, or with the same
fault (`parse_rendered`).
-/

namespace RecordFilter

open RecordFilter.Text

/-! ### The spellings of a token -/

/-- The words one behind the other, in capital or small letters, with blanks between neighbours. -/
inductive Worded : List String → List Char → Prop
  | last {word : String} {w : List Char} (hw : lowered w = word) : Worded [word] w
  | more {word : String} {words : List String} {w blanks rest : List Char} (hw : lowered w = word)
      (hne : blanks ≠ []) (hb : ∀ c ∈ blanks, isBlank c = true) (h : Worded words rest) :
      Worded (word :: words) (w ++ (blanks ++ rest))

/-- A comparison is written by its symbol, of which `!=` has two; the other operators by their words. -/
def Operator.SpelledBy : Operator → List Char → Prop
  | compare .notEqual, cs => cs = "!=".toList ∨ cs = "<>".toList
  | compare c, cs => cs = c.symbol.toList
  | o, cs => Worded (pieces ' ' o.symbol) cs

/-- The texts that a token can be written by.  Paths and numbers are written as they are, strings with
their quotes and escapes. -/
def Token.SpelledBy : Token → List Char → Prop
  | operator o, cs => o.SpelledBy cs
  | connective op, cs => op.Written (String.ofList cs)
  | endOfText, _ => False
  | t, cs => cs = t.spelling.toList

/-- The text goes on with a blank, or ends. -/
def StartsBlank (cs : List Char) : Prop := ∀ c ∈ cs.head?, isBlank c = true

/-- **The text writes these tokens**, each by one of its spellings, with blanks between neighbours. -/
inductive Rendered : List Token → List Char → Prop
  | done {blanks : List Char} (hb : ∀ c ∈ blanks, isBlank c = true) : Rendered [] blanks
  | token {t : Token} {ts : List Token} {blanks text rest : List Char}
      (hb : ∀ c ∈ blanks, isBlank c = true) (ht : t.SpelledBy text)
      (hsep : StartsBlank rest) (h : Rendered ts rest) :
      Rendered (t :: ts) (blanks ++ (text ++ rest))

/-- The token is one of the tokens of some text, and not its end. -/
def Token.Readable (t : Token) : Prop :=
  t ≠ .endOfText ∧ ∃ (text : String) (ls : List Lexeme), tokenize text = .ok ls ∧
    t ∈ ls.map Lexeme.token

theorem Token.Readable.shaped {t : Token} (h : t.Readable) : t.Shaped := by
  obtain ⟨hne, text, ls, hls, hm⟩ := h
  obtain ⟨ks, hks, rfl⟩ := tokenize_eq_ok_iff.mp hls
  obtain ⟨l, hl, rfl⟩ := List.mem_map.mp hm
  have hfeed : (Cursor.ofText text).feed.tokens = ks := congrArg Feed.tokens hks.feed
  rcases List.mem_append.mp hl with hl | hl
  · exact ((Cursor.ofText text).shaped_feed.1 l (hfeed ▸ hl)).1
  · cases List.mem_singleton.mp hl
    exact absurd rfl hne

/-! ### A spelling is read as the token -/

/-- A word of letters is read together with what stands behind it. -/
theorem PlainWord.readToken_behind {w r : List Char} (h : PlainWord w) (hr : Closes r) :
    RecordFilter.readToken (w ++ r) = readBehind w r := by
  have hword := readWord_of_stopsAt (splitPath_of_word (List.all_eq_true.mp h.inner))
    (fun c hc => isPathChar_of_closes (hr c hc))
  obtain ⟨hs, -, -⟩ := h
  cases w with
  | nil => cases hs
  | cons c w =>
    rw [List.cons_append, readToken_of_isWordStart hs]
    exact hword

section words

variable {w v blanks r : List Char} {word : String}

/-- The next word of an operator is taken in whatever case it is written. -/
theorem readFollower_lowered (hb : ∀ c ∈ blanks, isBlank c = true) (hv : lowered v = word)
    (hword : word ≠ "" ∧ word.toList.all isWordStart = true) (hr : Closes r) (lead : Lead)
    (text : List Char) (go : String → List Char → List Char → Reading) :
    readFollower lead text (blanks ++ (v ++ r)) go = go word (text ++ (blanks ++ v)) r := by
  have hplain := plainWord_of_lowered hv hword
  rw [readFollower_append hb hplain.start (List.all_eq_true.mp hplain.inner)
    (fun c hc => isWordChar_of_closes (hr c hc)), hv, List.append_assoc]

theorem readToken_lowered_is (hw : lowered w = "is") (hr : Closes r) :
    readToken (w ++ r) = readIs w r := by
  have hplain := plainWord_of_lowered hw (by decide)
  rw [hplain.readToken_behind hr, readBehind, hplain.noPoint, if_neg Bool.false_ne_true, if_pos hw]

theorem readToken_lowered_not (hw : lowered w = "not") (hr : Closes r) :
    readToken (w ++ r) = readNot w r := by
  have hplain := plainWord_of_lowered hw (by decide)
  rw [hplain.readToken_behind hr, readBehind, hplain.noPoint, if_neg Bool.false_ne_true,
    if_neg (by rw [hw]; decide), if_pos hw]

/-- A first word, blanks, and the words behind it. -/
theorem Worded.uncons {words : List String} {cs : List Char} (hne : words ≠ [])
    (h : Worded (word :: words) cs) :
    ∃ w blanks rest, lowered w = word ∧ blanks ≠ [] ∧ (∀ c ∈ blanks, isBlank c = true) ∧
      Worded words rest ∧ cs = w ++ (blanks ++ rest) := by
  cases h with
  | last => exact absurd rfl hne
  | more hw hblanks hb h => exact ⟨_, _, _, hw, hblanks, hb, h, rfl⟩

theorem Worded.single {cs : List Char} (h : Worded [word] cs) : lowered cs = word := by
  cases h with
  | last hw => exact hw
  | more _ _ _ h => cases h

/-- An operator of one word. -/
theorem Worded.keyword {t : Token} (h : Worded [word] w)
    (hword : word ≠ "" ∧ word.toList.all isWordStart = true) (hfree : word ≠ "is" ∧ word ≠ "not")
    (ht : keyword? word = some t) : readToken w = .found t w [] := by
  have hw := h.single
  have hread := readsAs_keyword (plainWord_of_lowered hw hword) (hw ▸ hfree.1) (hw ▸ hfree.2) (hw ▸ ht)
    [] endsToken_nil
  rwa [List.append_nil] at hread

/-- An operator of two words, of which the second says what the operator is. -/
theorem Worded.follower {lead : Lead} {go : List Char → String → List Char → List Char → Reading}
    {first : String} {t : Token} {cs : List Char} (h : Worded [first, word] cs)
    (hword : word ≠ "" ∧ word.toList.all isWordStart = true)
    (hread : ∀ w r, lowered w = first → Closes r → readToken (w ++ r) = readFollower lead w r (go w))
    (hgo : ∀ w text r, go w word text r = .found t text r) : readToken cs = .found t cs [] := by
  obtain ⟨w, blanks, v, hw, hblanks, hb, hv, rfl⟩ := h.uncons (List.cons_ne_nil _ _)
  have hfollower := readFollower_lowered hb hv.single hword closes_nil lead w (go w)
  rw [List.append_nil] at hfollower
  rw [hread w _ hw (closes_of_blanks hblanks hb v), hfollower, hgo]

end words

/-- The words of a test are read as the test. -/
theorem Test.read_worded (t : Test) {cs : List Char} (h : Worded (pieces ' ' t.symbol) cs) :
    readToken cs = .found (.operator (.test t)) cs [] := by
  cases t with
  | isTrue =>
    have h : Worded ["is", "true"] cs := h
    refine h.follower (by decide) (fun _ _ => readToken_lowered_is) ?_
    exact fun _ _ _ => rfl
  | isFalse =>
    have h : Worded ["is", "false"] cs := h
    refine h.follower (by decide) (fun _ _ => readToken_lowered_is) ?_
    exact fun _ _ _ => rfl
  | isNull =>
    have h : Worded ["is", "null"] cs := h
    refine h.follower (by decide) (fun _ _ => readToken_lowered_is) ?_
    exact fun _ _ _ => rfl
  | isNotNull =>
    have h : Worded ["is", "not", "null"] cs := h
    obtain ⟨w, blanks, _, hw, hblanks, hb, hrest, rfl⟩ := h.uncons (List.cons_ne_nil _ _)
    obtain ⟨v, blanks', u, hv, hblanks', hb', hu, rfl⟩ := hrest.uncons (List.cons_ne_nil _ _)
    have hnot := readFollower_lowered hb hv (by decide) (closes_of_blanks hblanks' hb' u) .is w
    have hnull := readFollower_lowered hb' hu.single (by decide) closes_nil .isNot
      (w ++ (blanks ++ v))
    rw [List.append_nil] at hnull
    rw [readToken_lowered_is hw (closes_of_blanks hblanks hb _)]
    refine (hnot _).trans ?_
    rw [if_neg (by decide), if_neg (by decide), if_neg (by decide), if_pos rfl]
    refine (hnull _).trans ?_
    rw [if_pos rfl]
    simp only [List.append_assoc]

/-- A spelling of an operator is read as the operator. -/
theorem Operator.SpelledBy.read {o : Operator} {cs : List Char} (h : o.SpelledBy cs) :
    readToken cs = .found (.operator o) cs [] := by
  rcases o with c | t | ⟨_ | _, _ | _⟩ | (_ | _) | _
  · cases c with
    | notEqual => rcases h with rfl | rfl <;> rfl
    | _ => cases h; rfl
  · exact t.read_worded h
  · have h : Worded ["contains"] cs := h
    exact h.keyword (by decide) (by decide) rfl
  · have h : Worded ["not", "contains"] cs := h
    refine h.follower (by decide) (fun _ _ => readToken_lowered_not) ?_
    exact fun _ _ _ => rfl
  · have h : Worded ["starts"] cs := h
    exact h.keyword (by decide) (by decide) rfl
  · have h : Worded ["not", "starts"] cs := h
    refine h.follower (by decide) (fun _ _ => readToken_lowered_not) ?_
    exact fun _ _ _ => rfl
  · have h : Worded ["in"] cs := h
    exact h.keyword (by decide) (by decide) rfl
  · have h : Worded ["not", "in"] cs := h
    refine h.follower (by decide) (fun _ _ => readToken_lowered_not) ?_
    exact fun _ _ _ => rfl
  · have h : Worded ["between"] cs := h
    exact h.keyword (by decide) (by decide) rfl

/-- **A spelling of a token is read as the token.** -/
theorem Token.SpelledBy.read {t : Token} {cs : List Char} (hs : t.Shaped) (h : t.SpelledBy cs) :
    readToken cs = .found t cs [] := by
  cases t with
  | path p =>
    cases h
    exact pathText_iff.mp hs
  | string s =>
    cases h
    have hread := readToken_quoted s []
    rwa [List.append_nil] at hread
  | number n =>
    cases h
    exact numberText_iff.mp hs
  | operator o => exact Operator.SpelledBy.read h
  | connective op =>
    have hread := Connective.Written.read h
    rwa [String.toList_ofList] at hread
  | endOfText => exact h.elim
  | _ =>
    cases h
    rfl

/-! ### A rendering has the tokens that it writes -/

/-- A text that writes tokens has these tokens, wherever it begins. -/
theorem Rendered.laid {ts : List Token} {cs : List Char} (h : Rendered ts cs)
    (hs : ∀ t ∈ ts, t.Shaped) (p : Position) :
    ∃ ls, Laid p cs ls ∧ ls.map Lexeme.token = ts := by
  induction h generalizing p with
  | done hb => exact ⟨[], .done hb, rfl⟩
  | @token t ts blanks text rest hb ht hsep h ih =>
    obtain ⟨hst, hs⟩ := List.forall_mem_cons.mp hs
    obtain ⟨ls, hls, rfl⟩ := ih hs ((p.after blanks).after text)
    have hne : t ≠ .endOfText := by
      rintro rfl
      exact ht
    have hread : readToken (text ++ []) = .found t text [] := by
      rw [List.append_nil]
      exact ht.read hst
    have hcloses : Closes rest := fun c hc => by rw [hsep c hc, Bool.true_or]
    exact ⟨_, .token hb hne (readToken_of_goesOnLike hread hne (Or.inr hcloses)) hls, rfl⟩

/-! ### Tokens behind blanks -/

theorem startsBlank_cons (cs : List Char) : StartsBlank (' ' :: cs) := by
  rintro c ⟨⟩
  rfl

/-- A token behind a blank. -/
theorem Rendered.spaced {t : Token} {ts : List Token} {text rest : List Char} (ht : t.SpelledBy text)
    (hsep : StartsBlank rest) (h : Rendered ts rest) : Rendered (t :: ts) (' ' :: (text ++ rest)) :=
  .token (List.forall_mem_singleton.mpr rfl) ht hsep h

/-! ### What is read is told from the tokens -/

/-- The lexeme of a token of which the text and the place are not known. -/
def Token.unplaced (t : Token) : Lexeme := ⟨t, "", .start⟩

def Opening.unplaced : Opening → Opening
  | first => first
  | after g op => after g.unplaced op

def RowState.unplaced : RowState → RowState
  | clause o => clause o.unplaced
  | predicate o path _ due => predicate o.unplaced path .start due
  | complete g => complete g.unplaced

/-- The machine that has read the same tokens, all at the start of a text. -/
def Machine.unplaced (m : Machine) : Machine := ⟨m.row.unplaced, m.outer.map Opening.unplaced⟩

namespace Machine

theorem take?_unplaced (m : Machine) (l : Lexeme) :
    m.unplaced.take? l.token.unplaced = (m.take? l).map unplaced := by
  obtain ⟨o | ⟨o, path, position, due⟩ | g, os⟩ := m
  · obtain ⟨t, text, p⟩ := l
    cases t <;> rfl
  · have ht : l.token.unplaced.token = l.token := rfl
    simp only [take?, unplaced, RowState.unplaced, ht]
    cases due.take? l.token with
    | none => rfl
    | some s =>
      cases s with
      | more d => rfl
      | done op xs => cases o <;> rfl
  · obtain ⟨t, text, p⟩ := l
    cases t with
    | closeParen =>
      cases os with
      | nil => rfl
      | cons o os => cases o <;> rfl
    | _ => rfl

theorem refusal_unplaced (m : Machine) (t : Token) : m.unplaced.refusal t = m.refusal t := by
  obtain ⟨o | ⟨o, path, position, due⟩ | g, os⟩ := m
  · cases o <;> cases os <;> rfl
  · rfl
  · cases os <;> rfl

theorem result?_unplaced (m : Machine) : m.unplaced.result? = m.result?.map Group.unplaced := by
  obtain ⟨o | ⟨o, path, position, due⟩ | g, os⟩ := m <;> cases os <;> rfl

/-- The machine goes through the same states up to positions, and stops before the same token. -/
theorem run_unplaced (m : Machine) (ls : List Lexeme) :
    m.unplaced.run (ls.map fun l => l.token.unplaced) =
      ((m.run ls).1.unplaced, (m.run ls).2.map fun l => l.token.unplaced) := by
  induction ls generalizing m with
  | nil => rfl
  | cons l ls ih =>
    have hstep := m.take?_unplaced l
    cases ht : m.take? l with
    | none =>
      rw [ht] at hstep
      rw [run_cons_none ht, List.map_cons, run_cons_none hstep]
    | some n =>
      rw [ht] at hstep
      rw [run_cons_some ht, List.map_cons, run_cons_some hstep, ih]

end Machine

/-- What is read, without the positions of the attributes and of the fault. -/
def withoutPlaces (r : Except SyntaxError Group) : Except SyntaxFault Group :=
  (r.map Group.unplaced).mapError SyntaxError.fault

theorem Group.unplaced_unplaced (g : Group) : g.unplaced.unplaced = g.unplaced :=
  Group.mapPredicates_mapPredicates _ _ g

theorem Machine.finish_unplaced (m : Machine) {l : Lexeme} (hl : l.token = .endOfText) :
    withoutPlaces (m.unplaced.finish Token.endOfText.unplaced) = withoutPlaces (m.finish l) := by
  rw [finish, finish, m.result?_unplaced, hl]
  cases m.result? with
  | none => exact congrArg Except.error (m.refusal_unplaced .endOfText)
  | some g => exact congrArg Except.ok g.unplaced_unplaced

/-- **What is read of tokens is told from the tokens**, but for the positions. -/
theorem Feed.parse_unplaced (ls : List Lexeme) {e : Lexeme} (he : e.token = .endOfText) :
    withoutPlaces (Feed.mk (ls.map fun l => l.token.unplaced) (.endOfText Token.endOfText.unplaced)).parse.1 =
      withoutPlaces (Feed.mk ls (.endOfText e)).parse.1 := by
  have hrun : Machine.start.run (ls.map fun l => l.token.unplaced) = _ :=
    Machine.run_unplaced .start ls
  unfold Feed.parse
  rw [hrun]
  generalize Machine.start.run ls = r
  obtain ⟨m, _ | ⟨l, rest⟩⟩ := r
  · exact m.finish_unplaced he
  · exact congrArg Except.error (m.refusal_unplaced l.token)

/-! ### All renderings are read alike -/

/-- **How tokens are written does not matter.**  Every text that writes these tokens has these tokens and
the end of the text; and all of these texts are read to the same group, or with the same fault, but for the
positions. -/
theorem parse_rendered {ts : List Token} (hts : ∀ t ∈ ts, t.Readable) :
    ∃ outcome : Except SyntaxFault Group, ∀ text : String, Rendered ts text.toList →
      (∃ ls, tokenize text = .ok ls ∧ ls.map Lexeme.token = ts ++ [.endOfText]) ∧
        withoutPlaces (parse text) = outcome := by
  refine ⟨withoutPlaces (Feed.mk (ts.map Token.unplaced) (.endOfText Token.endOfText.unplaced)).parse.1,
    fun text h => ?_⟩
  obtain ⟨ls, hls, rfl⟩ := h.laid (fun t ht => (hts t ht).shaped) .start
  refine ⟨⟨_, tokenize_eq_ok_iff.mpr ⟨ls, hls, rfl⟩, List.map_append⟩, ?_⟩
  have hfeed : Feed.ofText text = _ := hls.feed
  rw [parse, hfeed, List.map_map]
  exact (Feed.parse_unplaced ls rfl).symm

/-- Capital letters, other blanks than the blank, the other spellings, and a string with words and quotes
in it. -/
theorem parse_rendered_capitals :
    let ts : List Token := [.path "a.b", .operator (.test .isNotNull), .connective .or, .path "c",
      .operator (.compare .notEqual), .string "is not 'null'"]
    let text := "a.b Is\u2003NOT\n\u00a0null || c <> 'is not \\'null\\'' "
    (∀ t ∈ ts, t.Readable) ∧ Rendered ts text.toList ∧
      ∀ text' : String, Rendered ts text'.toList →
        withoutPlaces (parse text') = withoutPlaces (parse text) := by
  intro ts text
  have hreadable : ∀ t ∈ ts, t.Readable := by
    have h : (tokenize text).map (List.map Lexeme.token) = .ok (ts ++ [.endOfText]) := by decide +kernel
    cases hls : tokenize text with
    | error e => rw [hls] at h; cases h
    | ok ls =>
      rw [hls] at h
      have hmap : ls.map Lexeme.token = ts ++ [.endOfText] := Except.ok.inj h
      refine fun t ht => ⟨?_, text, ls, hls, hmap ▸ List.mem_append_left _ ht⟩
      rintro rfl
      revert ht
      decide
  have hnull : Operator.SpelledBy (.test .isNotNull) "Is\u2003NOT\n\u00a0null".toList := by
    have hb : ∀ c ∈ ['\u2003'], isBlank c = true := List.all_eq_true.mp rfl
    have hb' : ∀ c ∈ ['\n', '\u00a0'], isBlank c = true := List.all_eq_true.mp rfl
    exact .more (w := "Is".toList) rfl (List.cons_ne_nil _ _) hb
      (.more (w := "NOT".toList) rfl (List.cons_ne_nil _ _) hb' (.last rfl))
  have hrendered : Rendered ts text.toList := by
    have hend : Rendered [] [' '] := .done (List.forall_mem_singleton.mpr rfl)
    have hstring := Rendered.spaced (t := .string "is not 'null'") rfl (startsBlank_cons []) hend
    have hother := hstring.spaced (t := .operator (.compare .notEqual)) (Or.inr rfl) (startsBlank_cons _)
    have hc := hother.spaced (t := .path "c") rfl (startsBlank_cons _)
    have hor := hc.spaced (t := .connective .or) (Or.inl rfl) (startsBlank_cons _)
    have htest := hor.spaced (t := .operator (.test .isNotNull)) hnull (startsBlank_cons _)
    have hpath := @Rendered.token (.path "a.b") _ [] _ _ (List.forall_mem_nil _) rfl (startsBlank_cons _) htest
    refine Eq.mp (congrArg (Rendered ts) ?_) hpath
    decide +kernel
  obtain ⟨outcome, hall⟩ := parse_rendered hreadable
  exact ⟨hreadable, hrendered, fun text' h => (hall text' h).2.trans (hall text hrendered).2.symm⟩

end RecordFilter

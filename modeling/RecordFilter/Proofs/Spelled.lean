import RecordFilter.Proofs.Derivation

/-!
# Texts that spell tokens

The text of every token but the last is read as that token: an operator and a connective by their symbols,
a string between quotes by its escapes, whatever is in it.

`Spelled ts cs` says that the text `cs` is made of the texts of the tokens `ts` and of blanks.  Such a text
is read as these tokens (`Spelled.feed`), wherever it begins.
-/

namespace RecordFilter

open RecordFilter.Text

/-! ### Strings -/

/-- Escapes are undone character by character. -/
theorem readQuoted_escapeQuoted (s r : List Char) :
    readQuoted (escapeQuoted s ++ '\'' :: r) = ⟨s, escapeQuoted s, '\'' :: r⟩ := by
  induction s with
  | nil => cases r <;> rfl
  | cons c s ih =>
    by_cases hc : c = '\\' ∨ c = '\''
    · have he : escapeQuoted (c :: s) = '\\' :: c :: escapeQuoted s := by
        simp [escapeQuoted, hc]
      rw [he, List.cons_append, List.cons_append, readQuoted, if_neg (by decide), if_pos rfl,
        if_pos hc.symm, ih]
    · have he : escapeQuoted (c :: s) = c :: escapeQuoted s := by
        simp [escapeQuoted, hc]
      obtain ⟨d, t, hd⟩ : ∃ d t, escapeQuoted s ++ '\'' :: r = d :: t :=
        List.exists_cons_of_ne_nil (by simp)
      rw [not_or] at hc
      rw [he, List.cons_append, hd, readQuoted, if_neg hc.2, if_neg hc.1, ← hd, ih]

theorem toList_quoted (s : String) : (quoted s).toList = '\'' :: (escapeQuoted s.toList ++ ['\'']) := by
  rw [quoted, String.toList_ofList, List.cons_append]

/-- A string is read up to its closing quote, whatever is in it and whatever follows. -/
theorem readToken_quoted (s : String) (r : List Char) :
    readToken ((quoted s).toList ++ r) = .found (.string s) (quoted s).toList r := by
  have hq := readQuoted_escapeQuoted s.toList r
  rw [toList_quoted, List.cons_append, List.append_assoc, List.singleton_append]
  change readString (escapeQuoted s.toList ++ '\'' :: r) = _
  unfold readString
  rw [hq]
  cases r with
  | nil => simp
  | cons c r => simp

/-! ### Operators -/

theorem EndsToken.cases {r : List Char} (h : EndsToken r) :
    r = [] ∨ ∃ r', r = ' ' :: r' ∨ r = ',' :: r' ∨ r = ')' :: r' := by
  cases r with
  | nil => exact Or.inl rfl
  | cons c r =>
    rcases isBreak_cases (h c rfl) with rfl | rfl | rfl
    · exact Or.inr ⟨r, Or.inl rfl⟩
    · exact Or.inr ⟨r, Or.inr (Or.inl rfl)⟩
    · exact Or.inr ⟨r, Or.inr (Or.inr rfl)⟩

/-- The next word of an operator is taken with the blanks in front of it. -/
theorem readFollower_append {blanks word r : List Char} (hb : ∀ c ∈ blanks, isBlank c = true)
    (hs : word.head?.any isWordStart = true) (hw : ∀ c ∈ word, isWordChar c = true)
    (hr : StopsAt isWordChar r) (lead : Lead) (text : List Char)
    (go : String → List Char → List Char → Reading) :
    readFollower lead text (blanks ++ (word ++ r)) go =
      go (lowered word) (text ++ blanks ++ word) r := by
  obtain ⟨c, w, rfl⟩ : ∃ c w, word = c :: w := by
    cases word with
    | nil => cases hs
    | cons c w => exact ⟨c, w, rfl⟩
  have hstart : isWordStart c = true := hs
  have hblank : StopsAt isBlank (c :: w ++ r) := by
    rintro d ⟨⟩
    rw [Bool.eq_false_iff]
    intro hd
    have hc := hw c List.mem_cons_self
    rw [isWordChar_eq_false_of_isBlank hd] at hc
    cases hc
  obtain ⟨hbt, hbd⟩ := takeWhile_of_stopsAt hb hblank
  obtain ⟨hwt, hwd⟩ := takeWhile_of_stopsAt hw hr
  unfold readFollower
  rw [hbt, hbd]
  dsimp only [List.cons_append, List.head?_cons] at hwt hwd ⊢
  rw [if_pos hstart, hwt, hwd]

/-- A word of letters, as those of the operators are. -/
structure PlainWord (w : List Char) : Prop where
  start : w.head?.any isWordStart = true
  inner : w.all isWordChar = true
  noPoint : w.contains '.' = false

instance (w : List Char) : Decidable (PlainWord w) :=
  decidable_of_iff (w.head?.any isWordStart = true ∧ w.all isWordChar = true ∧
      w.contains '.' = false)
    ⟨fun h => ⟨h.1, h.2.1, h.2.2⟩, fun h => ⟨h.1, h.2, h.3⟩⟩

section word

variable {w r : List Char}

theorem PlainWord.readToken (h : PlainWord w) (hr : EndsToken r) :
    readToken (w ++ r) =
      if lowered w = "is" then readIs w r
      else if lowered w = "not" then readNot w r
      else match keyword? (lowered w) with
        | some token => .found token w r
        | none => .found (.path (String.ofList w)) w r := by
  have hword := readWord_of_stopsAt (splitPath_of_word (List.all_eq_true.mp h.inner))
    (hr.stopsAt fun _ => isPathChar_of_isBreak)
  rw [readBehind, h.noPoint] at hword
  obtain ⟨hs, -, -⟩ := h
  cases w with
  | nil => cases hs
  | cons c w =>
    rw [List.cons_append, readToken_of_isWordStart hs]
    exact hword

theorem PlainWord.readFollower (h : PlainWord w) (hr : EndsToken r) (lead : Lead) (text : List Char)
    (go : String → List Char → List Char → Reading) :
    readFollower lead text (' ' :: w ++ r) go = go (lowered w) (text ++ ' ' :: w) r := by
  have hblank : ∀ c ∈ [' '], isBlank c = true := List.forall_mem_singleton.mpr rfl
  have hread := readFollower_append hblank h.start (List.all_eq_true.mp h.inner)
    (hr.stopsAt fun _ => isWordChar_of_isBreak) lead text go
  rwa [List.append_assoc, List.singleton_append, List.singleton_append] at hread

end word

/-- The texts from which the token is read, in front of every end of a token. -/
def ReadsAs (text : List Char) (t : Token) : Prop :=
  ∀ r, EndsToken r → readToken (text ++ r) = .found t text r

theorem readsAs_keyword {w : List Char} {t : Token} (h : PlainWord w) (his : lowered w ≠ "is")
    (hnot : lowered w ≠ "not") (ht : keyword? (lowered w) = some t) : ReadsAs w t := by
  intro r hr
  rw [h.readToken hr, if_neg his, if_neg hnot, ht]

/-- What follows `is` or `not` is read behind a blank. -/
theorem endsToken_blank (cs : List Char) : EndsToken (' ' :: cs) := endsToken_cons rfl cs

theorem readToken_is (cs : List Char) :
    readToken ("is".toList ++ ' ' :: cs) = readIs "is".toList (' ' :: cs) := by
  rw [PlainWord.readToken (by decide) (endsToken_blank cs), if_pos (by decide)]

theorem readToken_not (cs : List Char) :
    readToken ("not".toList ++ ' ' :: cs) = readNot "not".toList (' ' :: cs) := by
  rw [PlainWord.readToken (by decide) (endsToken_blank cs), if_neg (by decide), if_pos (by decide)]

theorem Comparison.readsAs (c : Comparison) : ReadsAs c.symbol.toList (.operator (.compare c)) := by
  intro r hr
  rcases hr.cases with rfl | ⟨r, rfl | rfl | rfl⟩ <;> cases c <;> rfl

theorem Test.readsAs (t : Test) : ReadsAs t.symbol.toList (.operator (.test t)) := by
  intro r hr
  cases t with
  | isTrue =>
    have h := (show PlainWord "true".toList by decide).readFollower hr
    exact (readToken_is _).trans (h _ _ _)
  | isFalse =>
    have h := (show PlainWord "false".toList by decide).readFollower hr
    exact (readToken_is _).trans (h _ _ _)
  | isNull =>
    have h := (show PlainWord "null".toList by decide).readFollower hr
    exact (readToken_is _).trans (h _ _ _)
  | isNotNull =>
    have h := (show PlainWord "not".toList by decide).readFollower (endsToken_blank ("null".toList ++ r))
    have h' := (show PlainWord "null".toList by decide).readFollower hr
    refine (readToken_is _).trans ((h _ _ _).trans ?_)
    rw [if_neg (by decide), if_neg (by decide), if_neg (by decide), if_pos (by decide)]
    exact h' _ _ _

/-- An operator is read by its symbol. -/
theorem Operator.readsAs (o : Operator) : ReadsAs o.symbol.toList (.operator o) := by
  rcases o with c | t | ⟨_ | _, _ | _⟩ | (_ | _) | _
  · exact c.readsAs
  · exact t.readsAs
  · exact readsAs_keyword (by decide) (by decide) (by decide) rfl
  · intro r hr
    have h := (show PlainWord "contains".toList by decide).readFollower hr
    exact (readToken_not _).trans (h _ _ _)
  · exact readsAs_keyword (by decide) (by decide) (by decide) rfl
  · intro r hr
    have h := (show PlainWord "starts".toList by decide).readFollower hr
    exact (readToken_not _).trans (h _ _ _)
  · exact readsAs_keyword (by decide) (by decide) (by decide) rfl
  · intro r hr
    have h := (show PlainWord "in".toList by decide).readFollower hr
    exact (readToken_not _).trans (h _ _ _)
  · exact readsAs_keyword (by decide) (by decide) (by decide) rfl

/-! ### Tokens in a row -/

/-- No token begins with a blank. -/
theorem isBlank_of_readToken {c : Char} {cs : List Char} {t : Token}
    (h : (readToken (c :: cs)).outcome = .ok t) : isBlank c = false := by
  rw [Bool.eq_false_iff]
  intro hb
  have hne : ∀ d : Char, isBlank d = false → c ≠ d := by
    rintro d hd rfl
    rw [hb] at hd
    cases hd
  have hsymbol : c ∉ symbolHeads := by
    intro hc
    have hd : (symbolHeads.all fun d => !isBlank d) = true := by decide
    exact hne c (by simpa using List.all_eq_true.mp hd c hc) rfl
  have hword := isWordChar_eq_false_of_isBlank hb
  have hstart : ¬ isWordStart c = true := by
    intro hs
    rw [isWordChar_of_isWordStart hs] at hword
    cases hword
  have hdigit : c.isDigit = false := by
    simp only [isWordChar, Char.isAlphanum, Bool.or_eq_false_iff] at hword
    exact hword.1.2
  have hsign : isSign c = false := by
    simp [isSign, hne '+' (by decide), hne '-' (by decide)]
  rw [readToken, symbol?_eq_none hsymbol] at h
  dsimp only at h
  rw [readOther, if_neg (by simp [hne '!' (by decide), hne '&' (by decide), hne '|' (by decide)]),
    if_neg (hne '\'' (by decide)), if_neg (by simp [hdigit, hsign]), if_neg hstart] at h
  cases h

/-- The text is made of the texts of these tokens and of blanks. -/
inductive Spelled : List Token → List Char → Prop
  | done : Spelled [] []
  | blank {ts : List Token} {cs : List Char} (h : Spelled ts cs) : Spelled ts (' ' :: cs)
  | token {t : Token} {ts : List Token} (text : List Char) {cs : List Char} (ht : t ≠ .endOfText)
      (hr : readToken (text ++ cs) = .found t text cs) (h : Spelled ts cs) :
      Spelled (t :: ts) (text ++ cs)

theorem Cursor.feed_of_next {c c' : Cursor} (h : c.next = c'.next) : c.feed = c'.feed := by
  cases hn : c.next.1 with
  | error e =>
    have hn' : c'.next.1 = .error e := h ▸ hn
    rw [feed_error hn, feed_error hn', h]
  | ok l =>
    have hn' : c'.next.1 = .ok l := h ▸ hn
    by_cases hl : l.token = .endOfText
    · rw [feed_end hn hl, feed_end hn' hl]
    · rw [feed_token hn hl, feed_token hn' hl, h]

theorem Cursor.next_of_skip {c c' : Cursor} (h : c.skip = c'.skip) : c.next = c'.next := by
  unfold next
  rw [h]

theorem Cursor.next_token {t : Token} {text cs : List Char}
    (hr : readToken (text ++ cs) = .found t text cs) (p : Position) :
    (⟨text ++ cs, p⟩ : Cursor).next = (.ok ⟨t, String.ofList text, p⟩, ⟨cs, p.after text⟩) := by
  have hskip : (⟨text ++ cs, p⟩ : Cursor).skip = ⟨text ++ cs, p⟩ := by
    cases h : text ++ cs with
    | nil => rfl
    | cons c ds =>
      rw [h] at hr
      have hc : isBlank c = false := isBlank_of_readToken (congrArg Reading.outcome hr)
      simp [skip, hc]
  unfold next
  rw [hskip]
  dsimp only
  rw [hr]
  rfl

/-- **A text that spells tokens is read as these tokens**, wherever it begins. -/
theorem Spelled.feed {ts : List Token} {cs : List Char} (h : Spelled ts cs) (p : Position) :
    ∃ (ls : List Lexeme) (e : Lexeme), (⟨cs, p⟩ : Cursor).feed = ⟨ls, .endOfText e⟩ ∧
      ls.map Lexeme.token = ts := by
  induction h generalizing p with
  | done => exact ⟨[], _, Cursor.feed_end (c := ⟨[], p⟩) rfl rfl, rfl⟩
  | @blank ts cs h ih =>
    obtain ⟨ls, e, hf, hls⟩ := ih (p.step ' ')
    have hskip : (⟨' ' :: cs, p⟩ : Cursor).skip = (⟨cs, p.step ' '⟩ : Cursor).skip := by
      simp [Cursor.skip, show isBlank ' ' = true from rfl]
    exact ⟨ls, e, (Cursor.feed_of_next (Cursor.next_of_skip hskip)).trans hf, hls⟩
  | @token t ts text cs ht hr h ih =>
    obtain ⟨ls, e, hf, hls⟩ := ih (p.after text)
    have hn := Cursor.next_token hr p
    refine ⟨⟨t, String.ofList text, p⟩ :: ls, e, ?_, ?_⟩
    · rw [Cursor.feed_token (congrArg Prod.fst hn) ht, hn, hf]
      rfl
    · rw [List.map_cons, hls]

end RecordFilter

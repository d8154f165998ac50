import RecordFilter.Proofs.Renderings
import RecordFilter.Proofs.Viability

/-!
# Wrong words

Behind `is`, `is not` and `not` there are only some words that may follow.  `Strays` says that the words of
a lead are followed by blanks and then by another word; this is when a token is not read because of a wrong
word (`readToken_eq_wrongWord_iff`).  The fault is reported behind the words of the lead, in front of the
blanks, and so never where the wrong word stands (`position_of_wrongWord`).

For this the place of a cursor is followed through a text: `Cursor.StandsIn` is kept by every call for the
next token, whether it reads one or not.
-/

namespace RecordFilter

open RecordFilter.Text

/-! ### Wrong words -/

/-- The words that may follow. -/
def Lead.expected : Lead → List String
  | is => ["true", "false", "null", "not"]
  | isNot => ["null"]
  | not => ["contains", "starts", "in"]

/-- The words of the lead, in capital or small letters, and behind blanks a whole word that is none of those
that may follow. -/
structure Strays (lead : Lead) (found : String) (leadText blanks word rest : List Char) : Prop where
  worded : Worded (pieces ' ' lead.words) leadText
  apart : blanks ≠ []
  blank : ∀ c ∈ blanks, isBlank c = true
  start : word.head?.any isWordStart = true
  inner : ∀ c ∈ word, isWordChar c = true
  whole : StopsAt isWordChar rest
  reads : lowered word = found
  wrong : found ∉ lead.expected

section readers

variable {lead : Lead} {found : String} {before : List Char}

/-- If a wrong word is found, then where the next word of an operator has been read. -/
theorem exists_word_of_readFollower {l : Lead} {text rest : List Char}
    {go : String → List Char → List Char → Reading} (hrest : StopsAt isWordChar rest)
    (h : (readFollower l text rest go).outcome = .error ⟨.wrongWord lead found, before⟩) :
    ∃ blanks word r, rest = blanks ++ (word ++ r) ∧ blanks ≠ [] ∧ (∀ c ∈ blanks, isBlank c = true) ∧
      word.head?.any isWordStart = true ∧ (∀ c ∈ word, isWordChar c = true) ∧ StopsAt isWordChar r ∧
        (go (lowered word) (text ++ blanks ++ word) r).outcome =
          .error ⟨.wrongWord lead found, before⟩ := by
  unfold readFollower at h
  dsimp only at h
  split at h
  · cases h
  · rename_i c hc
    split at h
    · rename_i hstart
      obtain ⟨w, hw⟩ := List.head?_eq_some_iff.mp hc
      have hword := isWordChar_of_isWordStart hstart
      refine ⟨rest.takeWhile isBlank, (rest.dropWhile isBlank).takeWhile isWordChar,
        (rest.dropWhile isBlank).dropWhile isWordChar, ?_, fun hblanks => ?_,
        fun c => List.mem_takeWhile_imp, ?_, fun c => List.mem_takeWhile_imp,
        stopsAt_dropWhile isWordChar _, h⟩
      · rw [List.takeWhile_append_dropWhile, List.takeWhile_append_dropWhile]
      · -- without blanks the word would go on in front of them
        have hsplit := List.takeWhile_append_dropWhile (p := isBlank) (l := rest)
        rw [hblanks, hw, List.nil_append] at hsplit
        have hstop := hrest c (by rw [← hsplit]; rfl)
        rw [hword] at hstop
        cases hstop
      · simp [hw, hword, hstart]
    · cases h

theorem strays_of_readIs {w rest : List Char} (hw : lowered w = "is") (hrest : StopsAt isWordChar rest)
    (h : (readIs w rest).outcome = .error ⟨.wrongWord lead found, before⟩) :
    ∃ blanks word r, w ++ rest = before ++ (blanks ++ (word ++ r)) ∧
      Strays lead found before blanks word r := by
  obtain ⟨blanks, word, r, rfl, hne, hb, hs, hi, hr, h⟩ := exists_word_of_readFollower hrest h
  split_ifs at h with htrue hfalse hnull hnot
  · cases h
  · cases h
  · cases h
  · obtain ⟨blanks', word', r', rfl, hne', hb', hs', hi', hr', h⟩ := exists_word_of_readFollower hr h
    split_ifs at h with hnull'
    · cases h
    · cases h
      have hlead : Worded ["is", "not"] (w ++ (blanks ++ word)) := .more hw hne hb (.last hnot)
      rw [List.append_assoc]
      refine ⟨blanks', word', r', ?_, hlead, hne', hb', hs', hi', hr', rfl, ?_⟩
      · simp only [List.append_assoc]
      · simpa [Lead.expected] using hnull'
  · cases h
    refine ⟨blanks, word, r, rfl, .last hw, hne, hb, hs, hi, hr, rfl, ?_⟩
    simp [Lead.expected, htrue, hfalse, hnull, hnot]

theorem strays_of_readNot {w rest : List Char} (hw : lowered w = "not")
    (hrest : StopsAt isWordChar rest)
    (h : (readNot w rest).outcome = .error ⟨.wrongWord lead found, before⟩) :
    ∃ blanks word r, w ++ rest = before ++ (blanks ++ (word ++ r)) ∧
      Strays lead found before blanks word r := by
  obtain ⟨blanks, word, r, rfl, hne, hb, hs, hi, hr, h⟩ := exists_word_of_readFollower hrest h
  split_ifs at h with hcontains hstarts hin
  · cases h
  · cases h
  · cases h
  · cases h
    refine ⟨blanks, word, r, rfl, .last hw, hne, hb, hs, hi, hr, rfl, ?_⟩
    simp [Lead.expected, hcontains, hstarts, hin]

theorem strays_of_readWord {cs : List Char}
    (h : (readWord cs).outcome = .error ⟨.wrongWord lead found, before⟩) :
    ∃ blanks word r, cs = before ++ (blanks ++ (word ++ r)) ∧
      Strays lead found before blanks word r := by
  have happend := splitPath_append cs
  have hstop := stopsAt_splitPath cs
  unfold readWord at h
  generalize splitPath cs = w at h happend hstop
  obtain ⟨path, rest⟩ := w
  dsimp only at h happend hstop
  rw [← happend]
  split at h
  · cases h
  · split_ifs at h with hpoint his hnot
    · cases h
    · exact strays_of_readIs his hstop h
    · exact strays_of_readNot hnot hstop h
    · split at h
      · cases h
      · cases h

theorem readString_ne_wrongWord (cs : List Char) :
    (readString cs).outcome ≠ .error ⟨.wrongWord lead found, before⟩ := by
  unfold readString
  dsimp only
  split
  · nofun
  · split_ifs <;> nofun
  · split_ifs <;> nofun

theorem readNumber_ne_wrongWord (cs : List Char) :
    (readNumber cs).outcome ≠ .error ⟨.wrongWord lead found, before⟩ := by
  unfold readNumber
  dsimp only
  split
  · split_ifs <;> nofun
  · nofun

theorem strays_of_readToken {cs : List Char}
    (h : (readToken cs).outcome = .error ⟨.wrongWord lead found, before⟩) :
    ∃ blanks word r, cs = before ++ (blanks ++ (word ++ r)) ∧
      Strays lead found before blanks word r := by
  unfold readToken at h
  split at h
  · cases h
  · cases cs with
    | nil => cases h
    | cons c cs =>
      dsimp only at h
      unfold readOther at h
      split_ifs at h with hlone hquote hnumber hword
      · cases h
      · exact absurd h (readString_ne_wrongWord cs)
      · exact absurd h (readNumber_ne_wrongWord (c :: cs))
      · exact strays_of_readWord h
      · cases h

/-- A word that may not follow is found, and reported behind the words of the lead. -/
theorem Strays.readToken {leadText blanks word rest : List Char}
    (h : Strays lead found leadText blanks word rest) :
    RecordFilter.readToken (leadText ++ (blanks ++ (word ++ rest))) =
      .failed (.wrongWord lead found) leadText (leadText ++ blanks ++ word) rest := by
  have hcloses := closes_of_blanks h.apart h.blank (word ++ rest)
  have hread := readFollower_append h.blank h.start h.inner h.whole
  have hwrong := h.wrong
  rw [← h.reads] at hwrong ⊢
  cases lead with
  | is =>
    simp only [Lead.expected, List.mem_cons, List.not_mem_nil, or_false, not_or] at hwrong
    obtain ⟨htrue, hfalse, hnull, hnot⟩ := hwrong
    rw [readToken_lowered_is h.worded.single hcloses]
    refine (hread .is leadText _).trans ?_
    rw [if_neg htrue, if_neg hfalse, if_neg hnull, if_neg hnot]
  | isNot =>
    simp only [Lead.expected, List.mem_cons, List.not_mem_nil, or_false] at hwrong
    have hworded : Worded ["is", "not"] leadText := h.worded
    obtain ⟨v, blanks', u, hv, hne', hb', hu, rfl⟩ := hworded.uncons (List.cons_ne_nil _ _)
    have hnot := readFollower_lowered hb' hu.single (by decide) hcloses .is v
    rw [List.append_assoc, List.append_assoc,
      readToken_lowered_is hv (closes_of_blanks hne' hb' (u ++ (blanks ++ (word ++ rest))))]
    refine (hnot _).trans ?_
    rw [if_neg (by decide), if_neg (by decide), if_neg (by decide), if_pos rfl]
    refine (hread .isNot _ _).trans ?_
    rw [if_neg hwrong]
  | not =>
    simp only [Lead.expected, List.mem_cons, List.not_mem_nil, or_false, not_or] at hwrong
    obtain ⟨hcontains, hstarts, hin⟩ := hwrong
    rw [readToken_lowered_not h.worded.single hcloses]
    refine (hread .not leadText _).trans ?_
    rw [if_neg hcontains, if_neg hstarts, if_neg hin]

/-- **A token is not read because of a wrong word if and only if there is one behind a lead.** -/
theorem readToken_eq_wrongWord_iff {cs : List Char} :
    (readToken cs).outcome = .error ⟨.wrongWord lead found, before⟩ ↔
      ∃ blanks word rest, cs = before ++ (blanks ++ (word ++ rest)) ∧
        Strays lead found before blanks word rest := by
  constructor
  · exact strays_of_readToken
  · rintro ⟨blanks, word, rest, rfl, h⟩
    rw [h.readToken]
    rfl

end readers

/-! ### Positions -/

/-- Behind a text the line is a later one, or it is the same and the column is as much greater as the text
is long. -/
theorem Position.after_advances (p : Position) (cs : List Char) :
    p.line < (p.after cs).line ∨
      (p.after cs).line = p.line ∧ (p.after cs).column = p.column + cs.length := by
  induction cs generalizing p with
  | nil => exact Or.inr ⟨rfl, rfl⟩
  | cons c cs ih =>
    have hstep : (p.step c).line = p.line + 1 ∨
        (p.step c).line = p.line ∧ (p.step c).column = p.column + 1 := by
      unfold step
      split
      · exact Or.inl rfl
      · exact Or.inr ⟨rfl, rfl⟩
    have hrest := ih (p.step c)
    rw [after_cons, List.length_cons]
    omega

theorem Position.after_ne (p : Position) {cs : List Char} (h : cs ≠ []) : p.after cs ≠ p := by
  intro heq
  have hlength := List.length_pos_iff.mpr h
  have hadvances := p.after_advances cs
  rw [heq] at hadvances
  omega

/-! ### Cursors in a text -/

namespace Cursor

variable {text : String} {c : Cursor}

/-- The cursor has a part of the text behind it, and stands at the position behind this part. -/
def StandsIn (text : String) (c : Cursor) : Prop :=
  ∃ before, text.toList = before ++ c.rest ∧ c.position = Position.start.after before

theorem standsIn_ofText (text : String) : (ofText text).StandsIn text := ⟨[], rfl, rfl⟩

theorem StandsIn.skip (h : c.StandsIn text) : c.skip.StandsIn text := by
  obtain ⟨before, htext, hposition⟩ := h
  refine ⟨before ++ c.rest.takeWhile isBlank, ?_, ?_⟩
  · rw [htext, List.append_assoc, Cursor.skip, List.takeWhile_append_dropWhile]
  · rw [Cursor.skip, hposition, Position.after_append]

/-- **A call for the next token leaves the cursor in the text**, whatever comes of it. -/
theorem StandsIn.next (h : c.StandsIn text) : c.next.2.StandsIn text := by
  obtain ⟨before, htext, hposition⟩ := h.skip
  refine ⟨before ++ (readToken c.skip.rest).text, ?_, ?_⟩
  · rw [htext, List.append_assoc]
    exact congrArg (before ++ ·) (readToken_text c.skip.rest).symm
  · rw [Position.after_append, ← hposition]
    rfl

/-- What one of several calls gives is given at a cursor in the text. -/
theorem StandsIn.of_mem_steps {n : Nat} (h : c.StandsIn text) {e : SyntaxError}
    (he : .error e ∈ c.steps n) : ∃ c' : Cursor, c'.StandsIn text ∧ c'.next.1 = .error e := by
  induction n generalizing c with
  | zero => cases he
  | succ n ih =>
    rcases List.mem_cons.mp he with hfirst | hrest
    · exact ⟨c, h, hfirst.symm⟩
    · exact ih h.next hrest

/-- The fault at which the tokens end is found at a cursor in the text. -/
theorem StandsIn.of_feed {c : Cursor} (h : c.StandsIn text) {e : SyntaxError} {c'' : Cursor}
    (he : c.feed.stop = .fault e c'') : ∃ c' : Cursor, c'.StandsIn text ∧ c'.next.1 = .error e := by
  cases hn : c.next.1 with
  | error e' =>
    rw [feed_error hn] at he
    cases he
    exact ⟨c, h, hn⟩
  | ok l =>
    by_cases hl : l.token = .endOfText
    · rw [feed_end hn hl] at he
      cases he
    · rw [feed_token hn hl] at he
      exact h.next.of_feed he
termination_by c.rest.length
decreasing_by exact next_length_lt hn hl

theorem next_eq_error_iff {e : SyntaxError} : c.next.1 = .error e ↔
    ∃ f, (readToken c.skip.rest).outcome = .error f ∧
      e = ⟨c.skip.position.after f.before, f.fault⟩ := by
  unfold next
  dsimp only
  cases (readToken c.skip.rest).outcome with
  | ok t => exact iff_of_false nofun nofun
  | error f =>
    constructor
    · rintro ⟨⟩
      exact ⟨f, rfl, rfl⟩
    · rintro ⟨_, ⟨⟩, rfl⟩
      rfl

end Cursor

/-! ### What is reported -/

/-- The error is reported for the text: when the filter is read, when all its tokens are read, or by one of
any number of calls for the next token. -/
def Reports (text : String) (e : SyntaxError) : Prop :=
  parse text = .error e ∨ tokenize text = .error e ∨ ∃ n, .error e ∈ (Cursor.ofText text).steps n

/-- A fault that is not about a token that may not come is reported at a cursor in the text. -/
theorem Reports.exists_cursor {text : String} {e : SyntaxError} (h : Reports text e)
    (hfault : e.fault.refused? = none) : ∃ c : Cursor, c.StandsIn text ∧ c.next.1 = .error e := by
  have hstart := Cursor.standsIn_ofText text
  have htokens : tokenize text = .error e →
      ∃ c : Cursor, c.StandsIn text ∧ c.next.1 = .error e := by
    intro h
    unfold tokenize Feed.toTokens at h
    split at h
    · cases h
    · rename_i e' c' hstop
      cases h
      exact hstart.of_feed hstop
  rcases h with h | h | ⟨n, h⟩
  · rcases error_of_parse h with ⟨-, before, l, after, -, -, hl, -⟩ | ⟨-, h, -⟩
    · rw [hfault] at hl
      cases hl
    · exact htokens h
  · exact htokens h
  · exact hstart.of_mem_steps h

/-- **Where a wrong word is reported.**  If a wrong word is reported for a text, then the text has the words
of the lead, blanks and the wrong word one behind the other, and the fault is reported at the first of the
blanks; this is never the position of the first character of the word. -/
theorem position_of_wrongWord {text : String} {p : Position} {lead : Lead} {found : String}
    (h : Reports text ⟨p, .wrongWord lead found⟩) :
    ∃ before leadText blanks word rest : List Char,
      text.toList = before ++ (leadText ++ (blanks ++ (word ++ rest))) ∧
        Strays lead found leadText blanks word rest ∧ p = Position.start.after (before ++ leadText) ∧
          p ≠ Position.start.after (before ++ (leadText ++ blanks)) := by
  obtain ⟨c, hc, hnext⟩ := h.exists_cursor rfl
  obtain ⟨before, htext, hposition⟩ := hc.skip
  obtain ⟨⟨fault, leadText⟩, hread, herror⟩ := Cursor.next_eq_error_iff.mp hnext
  cases herror
  obtain ⟨blanks, word, rest, hrest, hstrays⟩ := readToken_eq_wrongWord_iff.mp hread
  refine ⟨before, leadText, blanks, word, rest, hrest ▸ htext, hstrays, ?_, ?_⟩
  · rw [hposition, Position.after_append]
  · rw [hposition, Position.after_append, Position.after_append]
    exact (Position.after_ne _ hstrays.apart).symm

/-- The blanks in front of the word may be anything, also the end of a line. -/
theorem position_of_wrongWord_lines :
    let text := "a = 1 && b IS\n  NoT \t empty"
    let e : SyntaxError := ⟨⟨2, 6⟩, .wrongWord .isNot "empty"⟩
    parse text = .error e ∧ ∃ before leadText blanks word rest : List Char,
      text.toList = before ++ (leadText ++ (blanks ++ (word ++ rest))) ∧
        Strays .isNot "empty" leadText blanks word rest ∧
          e.position = Position.start.after (before ++ leadText) ∧
            e.position ≠ Position.start.after (before ++ (leadText ++ blanks)) := by
  intro text e
  have hp : parse text = .error e := by decide +kernel
  exact ⟨hp, position_of_wrongWord (Or.inl hp)⟩

/-- The wrong word stands in column 8, and column 5 is reported. -/
theorem wrongWord_before_blanks :
    tokenize "a is   maybe" = .error ⟨⟨1, 5⟩, .wrongWord .is "maybe"⟩ ∧
      "a is   maybe".toList = "a is   ".toList ++ "maybe".toList ∧
        Position.start.after "a is   ".toList = ⟨1, 8⟩ := by
  have ht : tokenize "a is   maybe" = .error ⟨⟨1, 5⟩, .wrongWord .is "maybe"⟩ := by decide +kernel
  exact ⟨ht, by decide, by decide⟩

end RecordFilter

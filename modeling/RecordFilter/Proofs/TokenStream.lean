import Mathlib.Data.List.Induction
import RecordFilter.Proofs.TokenEnd

/-!
# The token stream

`Laid p cs ls` says that the text `cs`, which begins at the position `p`, is blanks, the text of a token,
blanks, the text of a token, and so on up to the blanks at its end, and that `ls` are these tokens with
their texts and the positions of their first characters.  The tokens of a text are the ones that lie in
it so, and the end of the text behind it (`feed_eq_iff`, `tokenize_eq_ok_iff`); in front of something
else that ends a token they are the first tokens (`Laid.feed_append`).

Such texts can be put one behind the other (`Laid.append`) and somewhere else (`Laid.placed`), where the
positions are counted from another place on.

`tokenize_lossless` is what this says of the tokens of a text: they and the blanks between them are the
text, and each stands at its line and column.
-/

namespace RecordFilter

open RecordFilter.Text

/-! ### Tokens in a text -/

/-- The tokens that lie in a text, between blanks. -/
inductive Laid : Position → List Char → List Lexeme → Prop
  | done {p : Position} {blanks : List Char} (hb : ∀ c ∈ blanks, isBlank c = true) : Laid p blanks []
  | token {p : Position} {blanks text rest : List Char} {t : Token} {ls : List Lexeme}
      (hb : ∀ c ∈ blanks, isBlank c = true) (ht : t ≠ .endOfText)
      (hr : readToken (text ++ rest) = .found t text rest)
      (h : Laid ((p.after blanks).after text) rest ls) :
      Laid p (blanks ++ (text ++ rest)) (⟨t, String.ofList text, p.after blanks⟩ :: ls)

/-- Behind blanks a token is read as it is read without them. -/
theorem Cursor.skip_blanks {blanks cs : List Char} (hb : ∀ c ∈ blanks, isBlank c = true)
    (p : Position) : (⟨blanks ++ cs, p⟩ : Cursor).skip = (⟨cs, p.after blanks⟩ : Cursor).skip := by
  simp only [skip, List.dropWhile_append_of_pos hb, List.takeWhile_append_of_pos hb,
    Position.after_append]

theorem Cursor.feed_blanks {blanks cs : List Char} (hb : ∀ c ∈ blanks, isBlank c = true)
    (p : Position) : (⟨blanks ++ cs, p⟩ : Cursor).feed = (⟨cs, p.after blanks⟩ : Cursor).feed :=
  feed_of_next (next_of_skip (skip_blanks hb p))

/-- These tokens, and then what the feed has. -/
def Feed.pushAll (ls : List Lexeme) (f : Feed) : Feed := ⟨ls ++ f.tokens, f.stop⟩

/-- **The tokens that lie in a text** are read in front of whatever ends them, and what follows is read from
there. -/
theorem Laid.feed_append {p : Position} {cs ds : List Char} {ls : List Lexeme} (h : Laid p cs ls)
    (hd : Closes ds) : (⟨cs ++ ds, p⟩ : Cursor).feed = (⟨ds, p.after cs⟩ : Cursor).feed.pushAll ls := by
  induction h with
  | done hb => exact Cursor.feed_blanks hb _
  | @token p blanks text rest t ls hb ht hr h ih =>
    have hread := readToken_of_goesOnLike hr ht (goesOnLike_append hd)
    have hnext := Cursor.next_token hread (p.after blanks)
    rw [List.append_assoc, List.append_assoc, Cursor.feed_blanks hb,
      Cursor.feed_token (congrArg Prod.fst hnext) ht, hnext, ih, Position.after_append,
      Position.after_append]
    rfl

theorem Laid.feed {p : Position} {cs : List Char} {ls : List Lexeme} (h : Laid p cs ls) :
    (⟨cs, p⟩ : Cursor).feed = ⟨ls, .endOfText ⟨.endOfText, "", p.after cs⟩⟩ := by
  have hend : (⟨[], p.after cs⟩ : Cursor).feed = ⟨[], .endOfText ⟨.endOfText, "", p.after cs⟩⟩ :=
    Cursor.feed_end rfl rfl
  have hfeed := h.feed_append closes_nil
  rw [List.append_nil, hend] at hfeed
  rw [hfeed, Feed.pushAll, List.append_nil]

/-- What a cursor reads are blanks and the text of the token behind them. -/
theorem Cursor.next_shape {c : Cursor} {l : Lexeme} (h : c.next.1 = .ok l) :
    ∃ blanks text rest : List Char, (∀ b ∈ blanks, isBlank b = true) ∧
      c.rest = blanks ++ (text ++ rest) ∧ readToken (text ++ rest) = .found l.token text rest ∧
        l = ⟨l.token, String.ofList text, c.position.after blanks⟩ ∧
          c.next.2 = ⟨rest, (c.position.after blanks).after text⟩ := by
  have ho : (readToken (c.rest.dropWhile isBlank)).outcome = .ok l.token := outcome_of_next h
  have htext := readToken_text (c.rest.dropWhile isBlank)
  refine ⟨c.rest.takeWhile isBlank, (readToken (c.rest.dropWhile isBlank)).text,
    (readToken (c.rest.dropWhile isBlank)).rest, fun b => List.mem_takeWhile_imp, ?_, ?_, ?_, rfl⟩
  · rw [htext, List.takeWhile_append_dropWhile]
  · rw [htext, Reading.found, ← ho]
  · unfold next at h
    dsimp only [skip] at h
    rw [ho] at h
    exact (Except.ok.inj h).symm

theorem Cursor.laid_of_feed (c : Cursor) {ls : List Lexeme} {e : Lexeme}
    (h : c.feed = ⟨ls, .endOfText e⟩) :
    Laid c.position c.rest ls ∧ e = ⟨.endOfText, "", c.position.after c.rest⟩ := by
  cases hn : c.next.1 with
  | error f =>
    rw [feed_error hn] at h
    cases h
  | ok l =>
    obtain ⟨blanks, text, rest, hb, hrest, hread, hl, hnext⟩ := next_shape hn
    by_cases ht : l.token = .endOfText
    · rw [feed_end hn ht] at h
      obtain ⟨rfl, he⟩ := Feed.mk.inj h
      obtain ⟨rfl, rfl⟩ := List.append_eq_nil_iff.mp
        (eq_nil_of_readToken (congrArg Reading.outcome (ht ▸ hread)))
      rw [← FeedEnd.endOfText.inj he, hl, ht, hrest, List.append_nil, List.append_nil]
      exact ⟨.done hb, rfl⟩
    · rw [feed_token hn ht] at h
      obtain ⟨rfl, hstop⟩ := Feed.mk.inj h
      have hfeed : c.next.2.feed = ⟨c.next.2.feed.tokens, .endOfText e⟩ := by rw [← hstop]
      obtain ⟨hlaid, he⟩ := c.next.2.laid_of_feed hfeed
      rw [hnext] at hlaid he
      rw [hl, hrest, hnext, Position.after_append, Position.after_append]
      exact ⟨.token hb ht hread hlaid, he⟩
termination_by c.rest.length
decreasing_by exact next_length_lt hn ht

theorem tokenize_eq_ok_iff {text : String} {ts : List Lexeme} :
    tokenize text = .ok ts ↔ ∃ ls, Laid .start text.toList ls ∧
      ts = ls ++ [⟨.endOfText, "", Position.start.after text.toList⟩] := by
  rw [tokenize, Feed.ofText, Cursor.ofText, Feed.toTokens]
  constructor
  · intro h
    split at h
    · rename_i l hl
      obtain ⟨hlaid, rfl⟩ := Cursor.laid_of_feed ⟨text.toList, .start⟩ (e := l) (by rw [← hl])
      exact ⟨_, hlaid, (Except.ok.inj h).symm⟩
    · cases h
  · rintro ⟨ls, h, rfl⟩
    rw [h.feed]

/-! ### Texts one behind the other -/

/-- Blanks may stand in front. -/
theorem Laid.blanks {p : Position} {blanks cs : List Char} {ls : List Lexeme}
    (hb : ∀ c ∈ blanks, isBlank c = true) (h : Laid (p.after blanks) cs ls) : Laid p (blanks ++ cs) ls := by
  cases h with
  | done hb' => exact .done (List.forall_mem_append.mpr ⟨hb, hb'⟩)
  | @token _ blanks' _ _ _ _ hb' ht hr h =>
    rw [← Position.after_append p blanks blanks'] at h ⊢
    rw [← List.append_assoc]
    exact .token (List.forall_mem_append.mpr ⟨hb, hb'⟩) ht hr h

/-- **Texts put one behind the other have the tokens of the one and of the other**, if the first ends
where the second begins. -/
theorem Laid.append {p : Position} {cs ds : List Char} {ls ks : List Lexeme} (h : Laid p cs ls)
    (hd : Closes ds) (h' : Laid (p.after cs) ds ks) : Laid p (cs ++ ds) (ls ++ ks) := by
  induction h with
  | done hb => exact h'.blanks hb
  | @token p blanks text rest t ls hb ht hr h ih =>
    rw [Position.after_append, Position.after_append] at h'
    rw [List.append_assoc, List.append_assoc]
    exact .token hb ht (readToken_of_goesOnLike hr ht (goesOnLike_append hd)) (ih h')

/-- A text that begins with a token. -/
theorem Laid.first {p : Position} {text rest : List Char} {t : Token} {ls : List Lexeme}
    (ht : t ≠ .endOfText) (hr : readToken (text ++ rest) = .found t text rest)
    (h : Laid (p.after text) rest ls) : Laid p (text ++ rest) (⟨t, String.ofList text, p⟩ :: ls) := by
  have hnone : ∀ c ∈ ([] : List Char), isBlank c = true := nofun
  exact .token hnone ht hr h

/-- A text whose token is read alone is this token. -/
theorem Laid.single {text : List Char} {t : Token} (ht : t ≠ .endOfText)
    (hr : readToken text = .found t text []) (p : Position) :
    Laid p text [⟨t, String.ofList text, p⟩] := by
  have hr' : readToken (text ++ []) = .found t text [] := by rwa [List.append_nil]
  have hend : Laid (p.after text) [] [] := .done nofun
  have h := Laid.first ht hr' hend
  rwa [List.append_nil] at h

/-- A text is longer than it has tokens. -/
theorem Laid.length_le {p : Position} {cs : List Char} {ls : List Lexeme} (h : Laid p cs ls) :
    ls.length ≤ cs.length := by
  induction h with
  | done => exact Nat.zero_le _
  | @token p blanks text rest t ls hb ht hr h ih =>
    have hne := readToken_ne_nil (congrArg Reading.outcome hr) ht
    rw [hr] at hne
    have hpos : 0 < text.length := List.length_pos_iff.mpr hne
    simp only [List.length_append, List.length_cons]
    omega

/-! ### Texts in another place -/

/-- The position `p` of a text that begins at `base`. -/
def Position.behind (base p : Position) : Position :=
  if p.line = 1 then ⟨base.line, base.column + (p.column - 1)⟩
  else ⟨base.line + (p.line - 1), p.column⟩

/-- The lexeme in a text that begins at `base`. -/
def Lexeme.behind (base : Position) (l : Lexeme) : Lexeme := { l with position := base.behind l.position }

theorem Position.behind_step {base p : Position} {c : Char} (hl : 0 < p.line) (hc : 0 < p.column) :
    base.behind (p.step c) = (base.behind p).step c := by
  by_cases hn : c = '\n'
  · by_cases h : p.line = 1
    · simp [behind, step, hn, h]
    · have h' : p.line ≠ 0 := by omega
      simp [behind, step, hn, h, h']
      omega
  · by_cases h : p.line = 1
    · simp [behind, step, hn, h]
      omega
    · simp [behind, step, hn, h]

/-- Lines and columns are counted from one. -/
theorem Position.after_start_pos (cs : List Char) :
    0 < (start.after cs).line ∧ 0 < (start.after cs).column := by
  induction cs using List.reverseRecOn with
  | nil => exact ⟨Nat.one_pos, Nat.one_pos⟩
  | append_singleton cs c ih =>
    rw [after_append, after_cons, after_nil, step]
    split
    · exact ⟨Nat.succ_pos _, Nat.one_pos⟩
    · exact ⟨ih.1, Nat.succ_pos _⟩

theorem Position.behind_after_start (base : Position) (cs : List Char) :
    base.behind (start.after cs) = base.after cs := by
  induction cs using List.reverseRecOn with
  | nil => rfl
  | append_singleton cs c ih =>
    obtain ⟨hl, hc⟩ := after_start_pos cs
    simp only [after_append, after_cons, after_nil]
    rw [behind_step hl hc, ih]

@[simp] theorem Position.behind_start (base : Position) : base.behind start = base :=
  behind_after_start base []

/-- The position behind some text. -/
def Position.Reached (p : Position) : Prop := ∃ cs, p = start.after cs

theorem Position.Reached.after {p : Position} (h : p.Reached) (cs : List Char) : (p.after cs).Reached := by
  obtain ⟨before, rfl⟩ := h
  exact ⟨before ++ cs, (after_append start before cs).symm⟩

theorem Position.Reached.behind_after {p : Position} (h : p.Reached) (base : Position) (cs : List Char) :
    base.behind (p.after cs) = (base.behind p).after cs := by
  obtain ⟨before, rfl⟩ := h
  rw [← after_append, behind_after_start, behind_after_start, after_append]

/-- **A text in another place has the same tokens there**, at positions counted from there. -/
theorem Laid.placed {p : Position} {cs : List Char} {ls : List Lexeme} (h : Laid p cs ls)
    (hp : p.Reached) (base : Position) : Laid (base.behind p) cs (ls.map (Lexeme.behind base)) := by
  induction h with
  | done hb => exact .done hb
  | @token p blanks text rest t ls hb ht hr h ih =>
    have hblanks := hp.after blanks
    have hrest := ih (hblanks.after text)
    rw [hblanks.behind_after, hp.behind_after] at hrest
    rw [List.map_cons, Lexeme.behind, hp.behind_after]
    exact .token hb ht hr hrest

/-! ### Nothing is lost -/

/-- Line and column behind a text: the line feeds in it and one, and the characters behind the last of
them and one. -/
def lineColumn (before : List Char) : Position :=
  ⟨before.count '\n' + 1, (before.reverse.takeWhile (· != '\n')).length + 1⟩

theorem Position.after_start (cs : List Char) : start.after cs = lineColumn cs := by
  induction cs using List.reverseRecOn with
  | nil => rfl
  | append_singleton cs c ih =>
    rw [after_append, ih]
    by_cases hc : c = '\n'
    · simp [lineColumn, step, hc]
    · simp [lineColumn, step, hc]

/-- A lexeme with the blanks in front of it. -/
structure Part where
  blanks : List Char
  lexeme : Lexeme

def Part.text (p : Part) : List Char := p.blanks ++ p.lexeme.text.toList

/-- The text `cs` behind `before` is these parts in a row, and each lexeme is where it says. -/
structure Parted (before cs : List Char) (parts : List Part) : Prop where
  whole : parts.flatMap Part.text = cs
  blank : ∀ p ∈ parts, ∀ c ∈ p.blanks, isBlank c = true
  placed : ∀ a p b, parts = a ++ p :: b →
    p.lexeme.position = lineColumn (before ++ a.flatMap Part.text ++ p.blanks)

theorem Parted.nil (before : List Char) : Parted before [] [] :=
  ⟨rfl, nofun, fun _ _ _ h => absurd h.symm (List.append_ne_nil_of_right_ne_nil _ (List.cons_ne_nil _ _))⟩

theorem Parted.cons {before blanks cs : List Char} {l : Lexeme} {parts : List Part}
    (hb : ∀ c ∈ blanks, isBlank c = true) (hl : l.position = lineColumn (before ++ blanks))
    (h : Parted (before ++ (blanks ++ l.text.toList)) cs parts) :
    Parted before (blanks ++ (l.text.toList ++ cs)) (⟨blanks, l⟩ :: parts) := by
  refine ⟨?_, List.forall_mem_cons.mpr ⟨hb, h.blank⟩, fun a p b he => ?_⟩
  · rw [List.flatMap_cons, h.whole, Part.text, List.append_assoc]
  · cases a with
    | nil =>
      cases he
      simpa using hl
    | cons q a =>
      obtain ⟨hq, he⟩ := List.cons.inj he
      rw [h.placed a p b he, List.flatMap_cons, ← hq, Part.text]
      simp only [List.append_assoc]

/-- What lies in a text and the end of the text are the parts of the text. -/
theorem Laid.parted {before cs : List Char} {ls : List Lexeme}
    (h : Laid (Position.start.after before) cs ls) :
    ∃ parts, parts.map Part.lexeme =
        ls ++ [⟨.endOfText, "", (Position.start.after before).after cs⟩] ∧ Parted before cs parts := by
  generalize hp : Position.start.after before = p at h
  induction h generalizing before with
  | @done p blanks hb =>
    subst hp
    have hend := Parted.cons hb (l := ⟨.endOfText, "", (Position.start.after before).after blanks⟩)
      (by rw [← Position.after_append, Position.after_start]) (.nil _)
    rw [String.toList_empty, List.nil_append, List.append_nil] at hend
    exact ⟨_, rfl, hend⟩
  | @token p blanks text rest t ls hb ht hr h ih =>
    subst hp
    obtain ⟨parts, hparts, hrest⟩ := @ih (before ++ (blanks ++ text))
      (by simp only [Position.after_append])
    have hl : (Position.start.after before).after blanks = lineColumn (before ++ blanks) := by
      rw [← Position.after_append, Position.after_start]
    have hcons := Parted.cons hb (l := ⟨t, String.ofList text, (Position.start.after before).after blanks⟩)
      hl (by rwa [String.toList_ofList])
    rw [String.toList_ofList] at hcons
    refine ⟨_, ?_, hcons⟩
    rw [List.map_cons, hparts, Position.after_append, Position.after_append]
    rfl

/-- The text of a token that lies in a text has, alone, this token. -/
theorem Laid.alone {p : Position} {cs : List Char} {ls : List Lexeme} (h : Laid p cs ls) :
    ∀ l ∈ ls, l.token ≠ .endOfText ∧ l.text ≠ "" ∧
      Laid .start l.text.toList [⟨l.token, l.text, .start⟩] := by
  induction h with
  | done => exact nofun
  | @token p blanks text rest t ls hb ht hr h ih =>
    refine List.forall_mem_cons.mpr ⟨⟨ht, ?_, ?_⟩, ih⟩
    · have hne := readToken_ne_nil (congrArg Reading.outcome hr) ht
      rw [hr] at hne
      exact fun he => hne (String.ofList_eq_empty_iff.mp he)
    · rw [String.toList_ofList]
      exact .single ht (readToken_alone hr ht) .start

/-- **The tokens of a text account for all of it.**  The last and only the last is the end of the text;
blanks and texts of tokens in turn are the text; every token stands at its line and column; and the text
of a token has this token alone. -/
theorem tokenize_lossless {text : String} {ts : List Lexeme} (h : tokenize text = .ok ts) :
    (∃ ls e, ts = ls ++ [e] ∧ e.token = .endOfText ∧ e.text = "" ∧
      ∀ l ∈ ls, l.token ≠ .endOfText ∧ l.text ≠ "" ∧
        tokenize l.text = .ok [⟨l.token, l.text, .start⟩,
          ⟨.endOfText, "", lineColumn l.text.toList⟩]) ∧
      ts.length ≤ text.length + 1 ∧
        ∃ parts, parts.map Part.lexeme = ts ∧ Parted [] text.toList parts := by
  obtain ⟨ls, hlaid, rfl⟩ := tokenize_eq_ok_iff.mp h
  have hfirst : Laid (Position.start.after []) text.toList ls := hlaid
  refine ⟨⟨ls, _, rfl, rfl, rfl, fun l hl => ?_⟩, ?_, hfirst.parted⟩
  · obtain ⟨ht, hne, halone⟩ := hlaid.alone l hl
    refine ⟨ht, hne, tokenize_eq_ok_iff.mpr ⟨_, halone, ?_⟩⟩
    rw [Position.after_start]
    rfl
  · have hle := hlaid.length_le
    rw [String.length_toList] at hle
    rw [List.length_append, List.length_singleton]
    omega

/-- Tokens go on over line feeds, between the words of an operator and inside a string. -/
theorem tokenize_lossless_lines :
    let text := "name is\n  NOT null and\n x<='it\\'s\n' "
    let first : Lexeme := ⟨.path "name", "name", ⟨1, 1⟩⟩
    let test : Lexeme := ⟨.operator (.test .isNotNull), "is\n  NOT null", ⟨1, 6⟩⟩
    let both : Lexeme := ⟨.connective .and, "and", ⟨2, 12⟩⟩
    let second : Lexeme := ⟨.path "x", "x", ⟨3, 2⟩⟩
    let most : Lexeme := ⟨.operator (.compare .lessOrEqual), "<=", ⟨3, 3⟩⟩
    let value : Lexeme := ⟨.string "it's\n", "'it\\'s\n'", ⟨3, 5⟩⟩
    let last : Lexeme := ⟨.endOfText, "", ⟨4, 3⟩⟩
    let ts := [first, test, both, second, most, value, last]
    tokenize text = .ok ts ∧
      tokenize test.text = .ok [⟨test.token, test.text, .start⟩, ⟨.endOfText, "", ⟨2, 11⟩⟩] ∧
        ∃ parts, parts.map Part.lexeme = ts ∧ Parted [] text.toList parts := by
  intro text first test both second most value last ts
  have h : tokenize text = .ok ts := by decide +kernel
  obtain ⟨⟨ls, e, he, -, -, halone⟩, -, hparts⟩ := tokenize_lossless h
  have hsplit : [first, test, both, second, most, value] ++ [last] = ls ++ [e] := he
  obtain ⟨hls, -⟩ := List.append_inj' hsplit rfl
  have htest : test ∈ ls := hls ▸ List.mem_cons_of_mem first List.mem_cons_self
  have hend : lineColumn test.text.toList = ⟨2, 11⟩ := by decide
  refine ⟨h, ?_, hparts⟩
  rw [← hend]
  exact (halone test htest).2.2

end RecordFilter

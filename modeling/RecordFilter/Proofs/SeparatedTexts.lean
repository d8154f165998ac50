import RecordFilter.Proofs.TokenStream

/-!
# Texts with blanks between them

A text that has tokens, blanks, and any other text make up a text that has the tokens of the one and then
those of the other, which stand where the first text and the blanks have moved them.  If the second text has a
fault then the whole has it, moved in the same way (`tokenize_append_blanks`).

A token that has been read whole does not look behind the blanks, also where it is made of several words
(`readToken_of_goesOnLike`), so the tokens of the first text are read in front of anything that begins with a
blank (`Laid.feed_append`).  A call for a token tells nothing from the position of the cursor, so what is read
behind the blanks is what is read of the second text alone, and every position in it is counted from there
(`Cursor.next_behind` for one call, `Cursor.toTokens_behind` for all).
-/

namespace RecordFilter

open RecordFilter.Text

/-! ### Tokens in front -/

theorem Feed.toTokens_pushAll (ls : List Lexeme) (f : Feed) :
    (f.pushAll ls).toTokens = f.toTokens.map (ls ++ ·) := by
  obtain ⟨tokens, stop⟩ := f
  cases stop with
  | endOfText l => exact congrArg Except.ok (List.append_assoc ls tokens [l])
  | fault e c => rfl

theorem Feed.toTokens_push (l : Lexeme) (f : Feed) : (f.push l).toTokens = f.toTokens.map (l :: ·) :=
  f.toTokens_pushAll [l]

/-! ### Texts in another place -/

/-- The fault in a text that begins at `base`. -/
def SyntaxError.behind (base : Position) (e : SyntaxError) : SyntaxError :=
  { e with position := base.behind e.position }

/-- What is read in a text that begins at `base`, or the fault in it. -/
def placedBehind {α : Type} (base : Position) (place : α → α) (outcome : Except SyntaxError α) :
    Except SyntaxError α :=
  (outcome.map place).mapError (SyntaxError.behind base)

namespace Cursor

/-- The cursor in a text that begins at `base`. -/
def behind (base : Position) (c : Cursor) : Cursor := { c with position := base.behind c.position }

variable {c : Cursor}

theorem skip_behind (h : c.position.Reached) (base : Position) :
    (c.behind base).skip = c.skip.behind base :=
  congrArg (Cursor.mk _) (h.behind_after base _).symm

theorem reached_next (h : c.position.Reached) : c.next.2.position.Reached :=
  (h.after _).after _

/-- **One call in another place** gives the same there. -/
theorem next_behind (h : c.position.Reached) (base : Position) :
    (c.behind base).next = (placedBehind base (Lexeme.behind base) c.next.1, c.next.2.behind base) := by
  have hskip : c.skip.position.Reached := h.after _
  unfold next
  dsimp only
  rw [skip_behind h base]
  refine Prod.ext ?_ (congrArg (Cursor.mk _) (hskip.behind_after base _).symm)
  dsimp only [behind]
  cases (readToken c.skip.rest).outcome with
  | ok t => rfl
  | error f =>
    dsimp only
    rw [← hskip.behind_after base]
    rfl

/-- **The tokens in another place** are the same there. -/
theorem toTokens_behind {c : Cursor} (h : c.position.Reached) (base : Position) :
    (c.behind base).feed.toTokens = placedBehind base (List.map (Lexeme.behind base)) c.feed.toTokens := by
  have hnext := next_behind h base
  cases hn : c.next.1 with
  | error e =>
    rw [hn] at hnext
    rw [feed_error hn, feed_error (congrArg Prod.fst hnext)]
    rfl
  | ok l =>
    rw [hn] at hnext
    by_cases hl : l.token = .endOfText
    · rw [feed_end hn hl, feed_end (congrArg Prod.fst hnext) hl]
      rfl
    · have hrest := toTokens_behind (reached_next h) base
      rw [feed_token hn hl, feed_token (congrArg Prod.fst hnext) hl, hnext, Feed.toTokens_push,
        Feed.toTokens_push, hrest]
      cases c.next.2.feed.toTokens with
      | ok ls => rfl
      | error e => rfl
termination_by c.rest.length
decreasing_by exact next_length_lt hn hl

end Cursor

/-! ### Tokens in front and behind -/

/-- **Blanks between two texts keep them apart.**  If the first text has tokens, then the whole has these, but
for the end of the text, and then the tokens of the second text, if it has any, with their texts, and at
their positions counted from the line and column behind the blanks; if the second text has a fault, then the
whole has the fault, at the position counted so. -/
theorem tokenize_append_blanks {a b w : String} {ts : List Lexeme} (ha : tokenize a = .ok ts) (hw : w ≠ "")
    (hblank : ∀ c ∈ w.toList, isBlank c = true) :
    let base := lineColumn (a ++ w).toList
    ∃ ls e, ts = ls ++ [e] ∧ e.token = .endOfText ∧ (∀ l ∈ ls, l.token ≠ .endOfText) ∧
      (∀ us, tokenize b = .ok us → tokenize (a ++ w ++ b) = .ok (ls ++ us.map (Lexeme.behind base))) ∧
        ∀ fault, tokenize b = .error fault → tokenize (a ++ w ++ b) = .error (fault.behind base) := by
  intro base
  obtain ⟨ls, hlaid, rfl⟩ := tokenize_eq_ok_iff.mp ha
  have hne : w.toList ≠ [] := mt String.toList_eq_nil_iff.mp hw
  have hcloses : Closes (w.toList ++ b.toList) := closes_of_blanks hne hblank _
  have hbehind : (⟨b.toList, (Position.start.after a.toList).after w.toList⟩ : Cursor) =
      (Cursor.ofText b).behind base := by
    rw [← Position.after_append, ← String.toList_append, Position.after_start]
    exact congrArg (Cursor.mk _) (Position.behind_start base).symm
  have hwhole : tokenize (a ++ w ++ b) =
      (placedBehind base (List.map (Lexeme.behind base)) (tokenize b)).map (ls ++ ·) := by
    have hstart : (Cursor.ofText b).position.Reached := ⟨[], rfl⟩
    rw [tokenize, Feed.ofText, Cursor.ofText, String.toList_append, String.toList_append, List.append_assoc,
      hlaid.feed_append hcloses, Feed.toTokens_pushAll, Cursor.feed_blanks hblank, hbehind,
      Cursor.toTokens_behind hstart]
    rfl
  refine ⟨ls, _, rfl, rfl, fun l hl => (hlaid.alone l hl).1, fun us hb => ?_, fun fault hb => ?_⟩
  · rw [hwhole, hb]
    rfl
  · rw [hwhole, hb]
    rfl

/-- The first line of the second text is moved in its columns too, its other lines are not. -/
theorem tokenize_append_blanks_lines :
    let a := "x is\n not null"
    let w := " \n\u2003"
    let b := "and y>=\n2"
    let first : Lexeme := ⟨.path "x", "x", ⟨1, 1⟩⟩
    let test : Lexeme := ⟨.operator (.test .isNotNull), "is\n not null", ⟨1, 3⟩⟩
    tokenize a = .ok [first, test, ⟨.endOfText, "", ⟨2, 10⟩⟩] ∧
      tokenize b = .ok [⟨.connective .and, "and", ⟨1, 1⟩⟩, ⟨.path "y", "y", ⟨1, 5⟩⟩,
        ⟨.operator (.compare .greaterOrEqual), ">=", ⟨1, 6⟩⟩, ⟨.number "2", "2", ⟨2, 1⟩⟩,
        ⟨.endOfText, "", ⟨2, 2⟩⟩] ∧
      tokenize (a ++ w ++ b) = .ok [first, test, ⟨.connective .and, "and", ⟨3, 2⟩⟩,
        ⟨.path "y", "y", ⟨3, 6⟩⟩, ⟨.operator (.compare .greaterOrEqual), ">=", ⟨3, 7⟩⟩,
        ⟨.number "2", "2", ⟨4, 1⟩⟩, ⟨.endOfText, "", ⟨4, 2⟩⟩] := by
  intro a w b first test
  have ha : tokenize a = .ok [first, test, ⟨.endOfText, "", ⟨2, 10⟩⟩] := by decide +kernel
  have hb : tokenize b = .ok [⟨.connective .and, "and", ⟨1, 1⟩⟩, ⟨.path "y", "y", ⟨1, 5⟩⟩,
      ⟨.operator (.compare .greaterOrEqual), ">=", ⟨1, 6⟩⟩, ⟨.number "2", "2", ⟨2, 1⟩⟩,
      ⟨.endOfText, "", ⟨2, 2⟩⟩] := by decide +kernel
  have hblank : w.toList.all isBlank = true := by decide
  have hbase : lineColumn (a ++ w).toList = ⟨3, 2⟩ := by decide
  obtain ⟨ls, e, hsplit, -, -, hwhole, -⟩ := tokenize_append_blanks (b := b) ha (by decide)
    (List.all_eq_true.mp hblank)
  have hsplit' : [first, test] ++ [⟨.endOfText, "", ⟨2, 10⟩⟩] = ls ++ [e] := hsplit
  obtain ⟨rfl, -⟩ := List.append_inj' hsplit' rfl
  rw [hbase] at hwhole
  exact ⟨ha, hb, hwhole _ hb⟩

end RecordFilter

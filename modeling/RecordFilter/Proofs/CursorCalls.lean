import Mathlib.Order.Monotone.Basic
import RecordFilter.Proofs.WrongWord

/-!
# Calls for the next token

A cursor may be asked for the next token any number of times, also behind a fault and behind the end of the
text (`Cursor.afterCalls`).  Whatever comes of a call, the cursor goes forward in the text, and the position
that it holds is the line and column of the character at which it stands.

A fault is reported inside the text that the call has taken (`faultInside_readToken`): each of the readers
that make up a token leaves the text behind the place of its fault or where it found the fault, and what is
read behind a first word goes on behind the text that was taken for it.  From this it follows what one call
does (`Cursor.StandsIn.call`), and from the single calls what all of them do (`calls_coherent`).
-/

namespace RecordFilter

open RecordFilter.Text

/-! ### Where faults are reported -/

/-- If the reading is a fault, then it is reported in the text that has been taken. -/
def Reading.FaultInside (r : Reading) : Prop := ∀ f, r.outcome = .error f → f.before <+: r.text

theorem faultInside_found {t : Token} {text rest : List Char} :
    (Reading.found t text rest).FaultInside :=
  nofun

theorem faultInside_failed {fault : SyntaxFault} {before text rest : List Char} (h : before <+: text) :
    (Reading.failed fault before text rest).FaultInside := by
  rintro f ⟨⟩
  exact h

/-- What is read behind a word may be reported in the text before it too. -/
theorem faultInside_readFollower (lead : Lead) (text rest : List Char)
    {go : String → List Char → List Char → Reading}
    (hgo : ∀ word more r, (go word (text ++ more) r).FaultInside) :
    (readFollower lead text rest go).FaultInside := by
  unfold readFollower
  dsimp only
  split
  · exact faultInside_failed List.prefix_rfl
  · split
    · rw [List.append_assoc]
      exact hgo _ _ _
    · exact faultInside_failed List.prefix_rfl

theorem faultInside_readIs (text rest : List Char) : (readIs text rest).FaultInside := by
  refine faultInside_readFollower .is text rest fun word more r => ?_
  split_ifs
  · exact faultInside_found
  · exact faultInside_found
  · exact faultInside_found
  · refine faultInside_readFollower .isNot (text ++ more) r fun word' more' r' => ?_
    split_ifs
    · exact faultInside_found
    · exact faultInside_failed (List.prefix_append _ _)
  · exact faultInside_failed (List.prefix_append _ _)

theorem faultInside_readNot (text rest : List Char) : (readNot text rest).FaultInside := by
  refine faultInside_readFollower .not text rest fun word more r => ?_
  split_ifs
  · exact faultInside_found
  · exact faultInside_found
  · exact faultInside_found
  · exact faultInside_failed (List.prefix_append _ _)

theorem faultInside_readWord (cs : List Char) : (readWord cs).FaultInside := by
  unfold readWord
  generalize splitPath cs = w
  obtain ⟨path, rest⟩ := w
  dsimp only
  split
  · exact faultInside_failed List.prefix_rfl
  · split_ifs
    · exact faultInside_found
    · exact faultInside_readIs _ _
    · exact faultInside_readNot _ _
    · split
      · exact faultInside_found
      · exact faultInside_found

theorem faultInside_readString (cs : List Char) : (readString cs).FaultInside := by
  unfold readString
  dsimp only
  split
  · exact faultInside_failed List.nil_prefix
  · split_ifs
    · exact faultInside_found
    · exact faultInside_failed List.nil_prefix
  · split_ifs
    · exact faultInside_found
    · exact faultInside_failed (List.prefix_append _ _)

theorem faultInside_readNumber (cs : List Char) : (readNumber cs).FaultInside := by
  unfold readNumber
  generalize splitWhole cs = w
  obtain ⟨whole, rest⟩ := w
  dsimp only
  split
  · split_ifs
    · exact faultInside_found
    · exact faultInside_failed List.prefix_rfl
  · exact faultInside_found

/-- **A fault is reported between the beginning of the token and the place where reading goes on.** -/
theorem faultInside_readToken (cs : List Char) : (readToken cs).FaultInside := by
  unfold readToken
  split
  · exact faultInside_found
  · cases cs with
    | nil => exact faultInside_found (t := .endOfText)
    | cons c cs =>
      dsimp only
      unfold readOther
      split_ifs
      · exact faultInside_failed List.nil_prefix
      · exact faultInside_readString cs
      · exact faultInside_readNumber (c :: cs)
      · exact faultInside_readWord (c :: cs)
      · exact faultInside_failed List.nil_prefix

/-! ### Calls -/

namespace Cursor

/-- The cursor behind so many calls for the next token. -/
def afterCalls (c : Cursor) : Nat → Cursor
  | 0 => c
  | n + 1 => c.next.2.afterCalls n

theorem afterCalls_succ (c : Cursor) (n : Nat) : c.afterCalls (n + 1) = (c.afterCalls n).next.2 := by
  induction n generalizing c with
  | zero => rfl
  | succ n ih => exact ih c.next.2

/-- The calls give what each of them gives at its cursor. -/
theorem steps_eq (c : Cursor) (n : Nat) :
    c.steps n = (List.range n).map fun i => (c.afterCalls i).next.1 := by
  induction n generalizing c with
  | zero => rfl
  | succ n ih =>
    rw [steps, ih, List.range_succ_eq_map, List.map_cons, List.map_map]
    rfl

/-- How much of the text is behind the cursor. -/
def offset (text : String) (c : Cursor) : Nat := text.toList.length - c.rest.length

/-- The line and column of the character at an offset. -/
def placeAt (text : String) (k : Nat) : Position := lineColumn (text.toList.take k)

variable {text : String} {c : Cursor}

/-! ### One call -/

/-- **The position that a cursor holds** is the line and column of the character at which it stands. -/
theorem StandsIn.coherent (h : c.StandsIn text) :
    c.offset text ≤ text.toList.length ∧ c.rest = text.toList.drop (c.offset text) ∧
      c.position = placeAt text (c.offset text) := by
  obtain ⟨before, htext, hposition⟩ := h
  have hoffset : c.offset text = before.length := by
    rw [offset, htext, List.length_append]
    omega
  rw [hoffset, placeAt, htext, List.drop_left, List.take_left, hposition, Position.after_start,
    List.length_append]
  exact ⟨Nat.le_add_right _ _, rfl, rfl⟩

/-- A cursor that has gone on in the text is so much further as it has left behind. -/
theorem StandsIn.offset_of_rest (h : c.StandsIn text) {front : List Char} {d : Cursor}
    (hrest : c.rest = front ++ d.rest) : d.offset text = c.offset text + front.length := by
  obtain ⟨before, htext, -⟩ := h
  have hlength := congrArg List.length htext
  rw [hrest, List.length_append, List.length_append] at hlength
  rw [offset, offset, hrest, List.length_append]
  omega

theorem StandsIn.offset_skip (h : c.StandsIn text) :
    c.skip.offset text = c.offset text + (c.rest.takeWhile isBlank).length := by
  refine h.offset_of_rest ?_
  rw [Cursor.skip, List.takeWhile_append_dropWhile]

theorem StandsIn.offset_next (h : c.StandsIn text) :
    c.next.2.offset text = c.skip.offset text + (readToken c.skip.rest).text.length := by
  refine h.skip.offset_of_rest ?_
  rw [next_rest, readToken_text]

/-- A position behind a part of what is ahead is that of an offset so much further. -/
theorem StandsIn.after_eq_placeAt (h : c.StandsIn text) {front : List Char} (hfront : front <+: c.rest) :
    c.position.after front = placeAt text (c.offset text + front.length) := by
  obtain ⟨rest, hrest⟩ := hfront
  have hbehind : (⟨rest, c.position.after front⟩ : Cursor).StandsIn text := by
    obtain ⟨before, htext, hposition⟩ := h
    refine ⟨before ++ front, ?_, ?_⟩
    · rw [htext, ← hrest, List.append_assoc]
    · rw [hposition, Position.after_append]
  have hoffset := h.offset_of_rest (d := ⟨rest, c.position.after front⟩) hrest.symm
  rw [← hoffset]
  exact hbehind.coherent.2.2

/-- The token that is read from an offset on begins behind the blanks there. -/
structure Begins (text : String) (offset start : Nat) : Prop where
  le : offset ≤ start
  blanks : ∀ c ∈ (text.toList.drop offset).take (start - offset), isBlank c = true
  stops : StopsAt isBlank (text.toList.drop start)

theorem StandsIn.begins (h : c.StandsIn text) : Begins text (c.offset text) (c.skip.offset text) := by
  obtain ⟨-, hrest, -⟩ := h.coherent
  obtain ⟨-, hskip, -⟩ := h.skip.coherent
  have hoffset := h.offset_skip
  refine ⟨by omega, ?_, ?_⟩
  · have hblanks : c.rest.take (c.skip.offset text - c.offset text) = c.rest.takeWhile isBlank := by
      have hsplit := List.takeWhile_append_dropWhile (p := isBlank) (l := c.rest)
      rw [hoffset, Nat.add_sub_cancel_left]
      nth_rewrite 2 [← hsplit]
      rw [List.take_left]
    rw [← hrest, hblanks]
    exact fun b => List.mem_takeWhile_imp
  · rw [← hskip]
    exact stopsAt_dropWhile isBlank c.rest

theorem position_of_next {l : Lexeme} (h : c.next.1 = .ok l) : l.position = c.skip.position := by
  unfold next at h
  dsimp only at h
  split at h
  · rw [← Except.ok.inj h]
  · cases h

/-- **What one call does.**  The token begins behind the blanks, and the cursor does not stop before it; a
token is placed at its beginning and is not empty unless it ends the text, and a fault is placed between the
beginning and the place where the cursor stops. -/
theorem StandsIn.call (h : c.StandsIn text) :
    ∃ start, Begins text (c.offset text) start ∧ start ≤ c.next.2.offset text ∧
      (∀ l, c.next.1 = .ok l → l.position = placeAt text start ∧
        (l.token ≠ .endOfText → start < c.next.2.offset text)) ∧
      ∀ e, c.next.1 = .error e →
        ∃ k, start ≤ k ∧ k ≤ c.next.2.offset text ∧ e.position = placeAt text k := by
  have hnext := h.offset_next
  obtain ⟨-, -, hplace⟩ := h.skip.coherent
  refine ⟨c.skip.offset text, h.begins, by omega, fun l hl => ⟨?_, fun ht => ?_⟩, fun e he => ?_⟩
  · rw [position_of_next hl, hplace]
  · have hne := readToken_ne_nil (outcome_of_next hl) ht
    have hpos := List.length_pos_iff.mpr hne
    omega
  · obtain ⟨f, hf, rfl⟩ := next_eq_error_iff.mp he
    have hinside := faultInside_readToken c.skip.rest f hf
    have hfront : f.before <+: c.skip.rest := by
      rw [← readToken_text c.skip.rest]
      exact hinside.trans (List.prefix_append _ _)
    have hlength := hinside.length_le
    exact ⟨_, Nat.le_add_right _ _, by omega, h.skip.after_eq_placeAt hfront⟩

/-- Where the end of the text is given, it is given again, and nothing is left to read. -/
theorem next_of_endOfText {l : Lexeme} (h : c.next.1 = .ok l) (hl : l.token = .endOfText) :
    c.next.2.next.1 = .ok l ∧ c.next.2.rest = [] := by
  obtain ⟨blanks, taken, rest, -, hrest, hread, hlexeme, hnext⟩ := next_shape h
  obtain ⟨rfl, rfl⟩ := List.append_eq_nil_iff.mp
    (eq_nil_of_readToken (congrArg Reading.outcome (hl ▸ hread)))
  rw [hnext, hlexeme, hl]
  exact ⟨rfl, rfl⟩

/-! ### All calls -/

theorem StandsIn.afterCalls (h : c.StandsIn text) (n : Nat) : (c.afterCalls n).StandsIn text := by
  induction n with
  | zero => exact h
  | succ n ih =>
    rw [afterCalls_succ]
    exact ih.next

/-- Behind the end of the text every call gives it, at the same position. -/
theorem afterCalls_of_endOfText {n : Nat} {l : Lexeme} (h : (c.afterCalls n).next.1 = .ok l)
    (hl : l.token = .endOfText) {m : Nat} (hm : n ≤ m) :
    (c.afterCalls m).next.1 = .ok l ∧ (c.afterCalls (m + 1)).rest = [] := by
  induction m, hm using Nat.le_induction with
  | base =>
    rw [afterCalls_succ]
    exact ⟨h, (next_of_endOfText h hl).2⟩
  | succ m _ ih =>
    obtain ⟨hnext, -⟩ := next_of_endOfText ih.1 hl
    rw [← afterCalls_succ] at hnext
    refine ⟨hnext, ?_⟩
    rw [afterCalls_succ]
    exact (next_of_endOfText hnext hl).2

/-- **The cursor stays coherent through faults.**  However often the next token of a text is asked for, and
whatever comes of it: the cursor never goes back nor beyond the text; it holds the line and column of the
character at which it stands; a token stands at the offset where the call began to read it, and a fault
between there and where the call left the cursor; a token other than the end of the text has taken the
cursor forward; and once the end of the text is given, it is given by every later call, at the same
position. -/
theorem calls_coherent (text : String) :
    let cursor := (ofText text).afterCalls
    let offset := fun n => (cursor n).offset text
    (∀ n, (ofText text).steps n = (List.range n).map fun i => (cursor i).next.1) ∧ Monotone offset ∧
      ∀ n, offset n ≤ text.toList.length ∧ (cursor n).rest = text.toList.drop (offset n) ∧
        (cursor n).position = placeAt text (offset n) ∧
        ∃ start, Begins text (offset n) start ∧ start ≤ offset (n + 1) ∧
          (∀ l, (cursor n).next.1 = .ok l → l.position = placeAt text start ∧
            (l.token ≠ .endOfText → start < offset (n + 1)) ∧
            (l.token = .endOfText → ∀ m, n ≤ m →
              (cursor m).next.1 = .ok l ∧ offset (m + 1) = text.toList.length)) ∧
          ∀ e, (cursor n).next.1 = .error e →
            ∃ k, start ≤ k ∧ k ≤ offset (n + 1) ∧ e.position = placeAt text k := by
  intro cursor offset
  have hstands : ∀ n, (cursor n).StandsIn text := (standsIn_ofText text).afterCalls
  have hsucc : ∀ n, offset (n + 1) = (cursor n).next.2.offset text := fun n =>
    congrArg (Cursor.offset text) (afterCalls_succ (ofText text) n)
  refine ⟨(ofText text).steps_eq, monotone_nat_of_le_succ fun n => ?_, fun n => ?_⟩
  · obtain ⟨start, hbegins, hstart, -⟩ := (hstands n).call
    rw [hsucc]
    exact hbegins.le.trans hstart
  · obtain ⟨hle, hrest, hposition⟩ := (hstands n).coherent
    obtain ⟨start, hbegins, hstart, hok, herror⟩ := (hstands n).call
    rw [hsucc]
    refine ⟨hle, hrest, hposition, start, hbegins, hstart, fun l hl => ?_, herror⟩
    obtain ⟨hplace, hforward⟩ := hok l hl
    refine ⟨hplace, hforward, fun hend m hm => ?_⟩
    obtain ⟨hnext, hrest⟩ := afterCalls_of_endOfText hl hend hm
    refine ⟨hnext, ?_⟩
    show text.toList.length - ((ofText text).afterCalls (m + 1)).rest.length = _
    rw [hrest]
    rfl

/-- Behind a fault in an operator the cursor stands before the character that does not belong to it, from
which it does not move any more. -/
example : (ofText "is ?").steps 3 = [.error ⟨⟨1, 4⟩, .wordAfter .is (some '?')⟩,
    .error ⟨⟨1, 4⟩, .strayCharacter '?'⟩, .error ⟨⟨1, 4⟩, .strayCharacter '?'⟩] := by
  decide +kernel

end Cursor

end RecordFilter

import RecordFilter.Filter.Spelling

/-!
# The tokens of a text

A `Cursor` is the text that is still to be read and the position of its first character.
`Cursor.next` reads one token and says where the cursor stands afterwards, also after a fault, so
that reading can go on.  `Cursor.feed` reads all tokens up to the end of the text or the first fault;
`tokenize` gives them as a list that ends with the end of the text.
-/

namespace RecordFilter

open RecordFilter.Text

structure Cursor where
  rest : List Char
  position : Position
deriving DecidableEq

namespace Cursor

def ofText (text : String) : Cursor := ⟨text.toList, .start⟩

/-- The cursor behind the blanks in front of it. -/
def skip (c : Cursor) : Cursor :=
  ⟨c.rest.dropWhile isBlank, c.position.after (c.rest.takeWhile isBlank)⟩

/-- Reads a token after the blanks in front of it. -/
def next (c : Cursor) : Except SyntaxError Lexeme × Cursor :=
  let s := c.skip
  let r := readToken s.rest
  let outcome := match r.outcome with
    | .ok token => .ok ⟨token, String.ofList r.text, s.position⟩
    | .error f => .error ⟨s.position.after f.before, f.fault⟩
  (outcome, ⟨r.rest, s.position.after r.text⟩)

/-- Reads so many tokens, one after the other. -/
def steps : Nat → Cursor → List (Except SyntaxError Lexeme)
  | 0, _ => []
  | n + 1, c => c.next.1 :: steps n c.next.2

theorem next_rest (c : Cursor) : c.next.2.rest = (readToken c.skip.rest).rest := rfl

theorem skip_length_le (c : Cursor) : c.skip.rest.length ≤ c.rest.length := by
  have h := congrArg List.length (List.takeWhile_append_dropWhile (p := isBlank) (l := c.rest))
  simp only [List.length_append] at h
  simp only [skip]
  omega

/-- Every token but the end of the text leaves less to read. -/
theorem next_length_lt {c : Cursor} {l : Lexeme} (h : c.next.1 = .ok l)
    (hl : l.token ≠ .endOfText) : c.next.2.rest.length < c.rest.length := by
  have hlen := congrArg List.length (readToken_text c.skip.rest)
  have hskip := c.skip_length_le
  have htext : (readToken c.skip.rest).text ≠ [] := by
    simp only [next] at h
    split at h
    · rename_i token hr
      cases h
      exact readToken_ne_nil hr hl
    · cases h
  have hpos := List.length_pos_iff.2 htext
  simp only [List.length_append] at hlen
  rw [next_rest]
  omega

end Cursor

/-! ### The tokens ahead -/

/-- Why there are no more tokens: the text ends, or there is a fault, behind which the cursor
stands. -/
inductive FeedEnd
  | endOfText (lexeme : Lexeme)
  | fault (error : SyntaxError) (cursor : Cursor)
deriving DecidableEq

/-- The tokens up to the end of the text or the first fault. -/
structure Feed where
  tokens : List Lexeme
  stop : FeedEnd
deriving DecidableEq

namespace Feed

def push (l : Lexeme) (f : Feed) : Feed := ⟨l :: f.tokens, f.stop⟩

@[simp] theorem push_tokens (l : Lexeme) (f : Feed) : (f.push l).tokens = l :: f.tokens := rfl

@[simp] theorem push_stop (l : Lexeme) (f : Feed) : (f.push l).stop = f.stop := rfl

/-- All tokens with the end of the text, or the fault. -/
def toTokens (f : Feed) : Except SyntaxError (List Lexeme) :=
  match f.stop with
  | .endOfText l => .ok (f.tokens ++ [l])
  | .fault e _ => .error e

end Feed

/-- Reads the tokens up to the end of the text or the first fault. -/
def Cursor.feed (c : Cursor) : Feed :=
  match _ : c.next.1 with
  | .error e => ⟨[], .fault e c.next.2⟩
  | .ok l => if _ : l.token = .endOfText then ⟨[], .endOfText l⟩ else c.next.2.feed.push l
termination_by c.rest.length
decreasing_by exact Cursor.next_length_lt ‹_› ‹_›

theorem Cursor.feed_error {c : Cursor} {e : SyntaxError} (h : c.next.1 = .error e) :
    c.feed = ⟨[], .fault e c.next.2⟩ := by
  rw [feed]
  split <;> rename_i h' <;> rw [h] at h' <;> cases h'
  rfl

theorem Cursor.feed_end {c : Cursor} {l : Lexeme} (h : c.next.1 = .ok l)
    (hl : l.token = .endOfText) : c.feed = ⟨[], .endOfText l⟩ := by
  rw [feed]
  split <;> rename_i h' <;> rw [h] at h' <;> cases h'
  rw [dif_pos hl]

theorem Cursor.feed_token {c : Cursor} {l : Lexeme} (h : c.next.1 = .ok l)
    (hl : l.token ≠ .endOfText) : c.feed = c.next.2.feed.push l := by
  rw [feed]
  split <;> rename_i h' <;> rw [h] at h' <;> cases h'
  rw [dif_neg hl]

def Feed.ofText (text : String) : Feed := (Cursor.ofText text).feed

/-- The tokens of a text, of which the last is the end of the text. -/
def tokenize (text : String) : Except SyntaxError (List Lexeme) := (Feed.ofText text).toTokens

end RecordFilter

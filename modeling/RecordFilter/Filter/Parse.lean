import RecordFilter.Filter.Cursor
import RecordFilter.Filter.Machine

/-!
# Reading a filter

`parse` reads the group that a text writes, or says what is wrong at the first place where no filter
goes on like the text.  A token is refused before the token behind it is read, so a refused token is
reported even if there is a character further on that starts no token.

`Feed.parse` reads from tokens and says where the reading stands afterwards, also after a fault: at the
refused token, or at the last token before a fault in the text.
-/

namespace RecordFilter

/-- The tokens of the text behind a fault, behind the last of these tokens. -/
def Feed.resume (tokens : List Lexeme) (c : Cursor) : Feed :=
  match tokens.getLast? with
  | some l => c.feed.push l
  | none => c.feed

/-- Reads a group that goes on to the end of the text. -/
def Feed.parse (f : Feed) : Except SyntaxError Group × Feed :=
  match Machine.start.run f.tokens, f.stop with
  | (m, l :: ls), stop => (.error ⟨l.position, m.refusal l.token⟩, ⟨l :: ls, stop⟩)
  | (m, []), .endOfText l => (m.finish l, ⟨[], .endOfText l⟩)
  | (_, []), .fault e c => (.error e, .resume f.tokens c)

/-- Reads so many times, each time from where the last reading stands. -/
def Feed.parseTimes : Nat → Feed → List (Except SyntaxError Group)
  | 0, _ => []
  | n + 1, f => f.parse.1 :: parseTimes n f.parse.2

/-- The tokens of a text, if there is no fault before the first of them. -/
def Feed.opened (text : String) : Except SyntaxError Feed :=
  match Feed.ofText text with
  | ⟨[], .fault e _⟩ => .error e
  | f => .ok f

/-- The group that a text writes. -/
def parse (text : String) : Except SyntaxError Group := (Feed.ofText text).parse.1

end RecordFilter

import RecordFilter.Text.Class
import RecordFilter.Filter.Fault

/-!
# Reading one token

`readToken` reads the token at the front of a text that does not begin with a blank.  The result
(`Reading`) always says which text was taken and which is left, also when it is a fault; the two are
the text that was given (`readToken_text`).  A fault carries the part of the taken text before the
place where it is reported, so that nothing here depends on positions.
-/

namespace RecordFilter

open RecordFilter.Text

/-- A fault and the text between the start of the token and the place it is reported. -/
structure TokenFault where
  fault : SyntaxFault
  before : List Char

/-- The token or the fault, the text that was taken for it, and the text that is left. -/
structure Reading where
  outcome : Except TokenFault Token
  text : List Char
  rest : List Char

namespace Reading

def found (token : Token) (text rest : List Char) : Reading := ⟨.ok token, text, rest⟩

def failed (fault : SyntaxFault) (before text rest : List Char) : Reading :=
  ⟨.error ⟨fault, before⟩, text, rest⟩

@[simp] theorem found_text (token : Token) (text rest : List Char) :
    (found token text rest).text = text := rfl

@[simp] theorem found_rest (token : Token) (text rest : List Char) :
    (found token text rest).rest = rest := rfl

@[simp] theorem failed_text (fault : SyntaxFault) (before text rest : List Char) :
    (failed fault before text rest).text = text := rfl

@[simp] theorem failed_rest (fault : SyntaxFault) (before text rest : List Char) :
    (failed fault before text rest).rest = rest := rfl

end Reading

/-! ### Symbols -/

/-- The symbols and their tokens; a symbol stands before its own beginnings. -/
def symbols : List (List Char × Token) :=
  [(['('], .openParen), ([')'], .closeParen), ([','], .comma),
    (['='], .operator (.compare .equal)),
    (['!', '='], .operator (.compare .notEqual)),
    (['<', '='], .operator (.compare .lessOrEqual)),
    (['<', '>'], .operator (.compare .notEqual)),
    (['<'], .operator (.compare .less)),
    (['>', '='], .operator (.compare .greaterOrEqual)),
    (['>'], .operator (.compare .greater)),
    (['&', '&'], .connective .and),
    (['|', '|'], .connective .or)]

/-- The first symbol of the table with which the text begins. -/
def symbol? (cs : List Char) : Option (List Char × Token) :=
  symbols.find? fun s => s.1.isPrefixOf cs

/-! ### Strings -/

/-- The inside of a string: what it reads as, its text, and the text from where it stops. -/
structure Quoted where
  content : List Char
  text : List Char
  rest : List Char

/-- Reads up to the closing quote, an escape that does not exist, or the end of the text. -/
def readQuoted : List Char → Quoted
  | [] => ⟨[], [], []⟩
  | [c] => if c = '\'' ∨ c = '\\' then ⟨[], [], [c]⟩ else ⟨[c], [c], []⟩
  | c :: d :: cs =>
    if c = '\'' then ⟨[], [], c :: d :: cs⟩
    else if c = '\\' then
      if d = '\'' ∨ d = '\\' then
        let q := readQuoted cs
        ⟨d :: q.content, c :: d :: q.text, q.rest⟩
      else ⟨[], [], c :: d :: cs⟩
    else
      let q := readQuoted (d :: cs)
      ⟨c :: q.content, c :: q.text, q.rest⟩

/-- Reads a string from its opening quote on; `cs` is what follows the quote. -/
def readString (cs : List Char) : Reading :=
  let q := readQuoted cs
  match q.rest with
  | [] => .failed .openString [] ('\'' :: q.text) []
  | [c] =>
    if c = '\'' then .found (.string (String.ofList q.content)) ('\'' :: q.text ++ [c]) []
    else .failed .openString [] ('\'' :: q.text ++ [c]) []
  | c :: d :: rest =>
    if c = '\'' then .found (.string (String.ofList q.content)) ('\'' :: q.text ++ [c]) (d :: rest)
    else .failed (.badEscape d) ('\'' :: q.text) ('\'' :: q.text ++ [c]) (d :: rest)

/-! ### Numbers -/

def isSign (c : Char) : Bool := c == '+' || c == '-'

/-- A sign and digits, and what follows them. -/
def splitWhole : List Char → List Char × List Char
  | [] => ([], [])
  | c :: cs =>
    if isSign c then (c :: cs.takeWhile Char.isDigit, cs.dropWhile Char.isDigit)
    else ((c :: cs).takeWhile Char.isDigit, (c :: cs).dropWhile Char.isDigit)

/-- Reads a number: an optional sign, digits, and a point only with digits after it. -/
def readNumber (cs : List Char) : Reading :=
  let (whole, rest) := splitWhole cs
  match rest with
  | '.' :: rest =>
    if rest.head?.any Char.isDigit then
      let text := whole ++ '.' :: rest.takeWhile Char.isDigit
      .found (.number (String.ofList text)) text (rest.dropWhile Char.isDigit)
    else .failed (.digitAfterPoint (String.ofList whole)) (whole ++ ['.']) (whole ++ ['.']) rest
  | rest => .found (.number (String.ofList whole)) whole rest

/-! ### Words and paths -/

/-- The word characters at the front of a text, with every point that has a word behind it, and what
follows them. -/
def splitPath : List Char → List Char × List Char
  | [] => ([], [])
  | c :: cs =>
    if isWordChar c || (c == '.' && cs.head?.any isWordStart) then
      let (path, rest) := splitPath cs
      (c :: path, rest)
    else ([], c :: cs)

/-- A word in small letters. -/
def lowered (cs : List Char) : String := String.ofList (cs.map Char.toLower)

/-- Reads the next word of an operator of several words, of which `text` has been taken, and goes on
with it. -/
def readFollower (lead : Lead) (text rest : List Char)
    (go : String → List Char → List Char → Reading) : Reading :=
  let blanks := rest.takeWhile isBlank
  let next := rest.dropWhile isBlank
  match next.head? with
  | none => .failed (.wordAfter lead none) (text ++ blanks) (text ++ blanks) next
  | some c =>
    if isWordStart c then
      let word := next.takeWhile isWordChar
      go (lowered word) (text ++ blanks ++ word) (next.dropWhile isWordChar)
    else .failed (.wordAfter lead (some c)) (text ++ blanks) (text ++ blanks) next

/-- Reads what follows `is`.  A word that does not belong there is reported right behind the word
before it. -/
def readIs (text rest : List Char) : Reading :=
  readFollower .is text rest fun word text₁ rest₁ =>
    if word = "true" then .found (.operator (.test .isTrue)) text₁ rest₁
    else if word = "false" then .found (.operator (.test .isFalse)) text₁ rest₁
    else if word = "null" then .found (.operator (.test .isNull)) text₁ rest₁
    else if word = "not" then
      readFollower .isNot text₁ rest₁ fun word text₂ rest₂ =>
        if word = "null" then .found (.operator (.test .isNotNull)) text₂ rest₂
        else .failed (.wrongWord .isNot word) text₁ text₂ rest₂
    else .failed (.wrongWord .is word) text text₁ rest₁

/-- Reads what follows `not`. -/
def readNot (text rest : List Char) : Reading :=
  readFollower .not text rest fun word text₁ rest₁ =>
    if word = "contains" then .found (.operator (.like .anywhere true)) text₁ rest₁
    else if word = "starts" then .found (.operator (.like .atStart true)) text₁ rest₁
    else if word = "in" then .found (.operator (.member true)) text₁ rest₁
    else .failed (.wrongWord .not word) text text₁ rest₁

/-- The tokens of the words that stand alone. -/
def keyword? (word : String) : Option Token :=
  if word = "and" then some (.connective .and)
  else if word = "or" then some (.connective .or)
  else if word = "contains" then some (.operator (.like .anywhere false))
  else if word = "starts" then some (.operator (.like .atStart false))
  else if word = "in" then some (.operator (.member false))
  else if word = "between" then some (.operator .between)
  else none

/-- Reads a word or a path.  A path with a point in it is never a keyword. -/
def readWord (cs : List Char) : Reading :=
  let (path, rest) := splitPath cs
  match rest with
  | '.' :: rest =>
    .failed (.attributeAfterPoint (String.ofList path) rest.head?) (path ++ ['.']) (path ++ ['.'])
      rest
  | rest =>
    if path.contains '.' then .found (.path (String.ofList path)) path rest
    else
      let word := lowered path
      if word = "is" then readIs path rest
      else if word = "not" then readNot path rest
      else match keyword? word with
        | some token => .found token path rest
        | none => .found (.path (String.ofList path)) path rest

/-! ### Tokens -/

/-- Reads what begins with a character that begins no symbol. -/
def readOther (c : Char) (cs : List Char) : Reading :=
  if c = '!' ∨ c = '&' ∨ c = '|' then .failed (.lone c) [] [] (c :: cs)
  else if c = '\'' then readString cs
  else if c.isDigit || (isSign c && cs.head?.any Char.isDigit) then readNumber (c :: cs)
  else if isWordStart c then readWord (c :: cs)
  else .failed (.strayCharacter c) [] [] (c :: cs)

/-- Reads the token at the front of a text. -/
def readToken (cs : List Char) : Reading :=
  match symbol? cs with
  | some (text, token) => .found token text (cs.drop text.length)
  | none =>
    match cs with
    | [] => .found .endOfText [] []
    | c :: cs => readOther c cs

/-! ### Nothing is lost -/

theorem readQuoted_text (cs : List Char) : (readQuoted cs).text ++ (readQuoted cs).rest = cs := by
  fun_induction readQuoted cs with
  | case1 => rfl
  | case2 c h => rfl
  | case3 c h => rfl
  | case4 => rfl
  | case5 d cs h q _ ih => exact congrArg (fun t => '\\' :: d :: t) ih
  | case6 => rfl
  | case7 c d cs h h' q ih => exact congrArg (c :: ·) ih

theorem readString_text (cs : List Char) :
    (readString cs).text ++ (readString cs).rest = '\'' :: cs := by
  have h := readQuoted_text cs
  unfold readString
  generalize readQuoted cs = q at h
  obtain ⟨content, text, rest⟩ := q
  dsimp only at h ⊢
  split
  · simpa using h
  · split <;> simpa using h
  · split <;> simpa using h

theorem splitWhole_append (cs : List Char) : (splitWhole cs).1 ++ (splitWhole cs).2 = cs := by
  cases cs with
  | nil => rfl
  | cons c cs => by_cases h : isSign c = true <;> simp [splitWhole, h]

theorem readNumber_text (cs : List Char) : (readNumber cs).text ++ (readNumber cs).rest = cs := by
  have h := splitWhole_append cs
  unfold readNumber
  generalize splitWhole cs = w at h
  obtain ⟨whole, rest⟩ := w
  dsimp only at h ⊢
  split
  · split <;> simpa using h
  · simpa using h

theorem splitPath_append (cs : List Char) : (splitPath cs).1 ++ (splitPath cs).2 = cs := by
  induction cs with
  | nil => rfl
  | cons c cs ih =>
    by_cases h : (isWordChar c || (c == '.' && cs.head?.any isWordStart)) = true
    · simp only [splitPath, h, if_true, List.cons_append, ih]
    · simp [splitPath, h]

theorem readFollower_text {lead : Lead} {text rest : List Char}
    {go : String → List Char → List Char → Reading}
    (hgo : ∀ w t r, (go w t r).text ++ (go w t r).rest = t ++ r) :
    (readFollower lead text rest go).text ++ (readFollower lead text rest go).rest = text ++ rest := by
  unfold readFollower
  dsimp only
  split
  · simp
  · split
    · rw [hgo]
      simp
    · simp

theorem readIs_text (text rest : List Char) :
    (readIs text rest).text ++ (readIs text rest).rest = text ++ rest := by
  refine readFollower_text fun w t r => ?_
  repeat' split
  all_goals first | rfl | skip
  refine readFollower_text fun w t r => ?_
  split <;> rfl

theorem readNot_text (text rest : List Char) :
    (readNot text rest).text ++ (readNot text rest).rest = text ++ rest := by
  refine readFollower_text fun w t r => ?_
  repeat' split
  all_goals rfl

theorem readWord_text (cs : List Char) : (readWord cs).text ++ (readWord cs).rest = cs := by
  have h := splitPath_append cs
  unfold readWord
  generalize splitPath cs = w at h
  obtain ⟨path, rest⟩ := w
  dsimp only at h ⊢
  split
  · simpa using h
  · split
    · exact h
    · split
      · rw [readIs_text, h]
      · split
        · rw [readNot_text, h]
        · split <;> exact h

theorem readOther_text (c : Char) (cs : List Char) :
    (readOther c cs).text ++ (readOther c cs).rest = c :: cs := by
  unfold readOther
  split
  · rfl
  · split
    · rename_i h
      rw [h, readString_text]
    · split
      · exact readNumber_text _
      · split
        · exact readWord_text _
        · rfl

theorem readToken_text (cs : List Char) : (readToken cs).text ++ (readToken cs).rest = cs := by
  unfold readToken
  split
  · rename_i text token h
    have hp := List.find?_some h
    obtain ⟨rest, rfl⟩ := List.isPrefixOf_iff_prefix.1 hp
    simp
  · cases cs with
    | nil => rfl
    | cons c cs => exact readOther_text c cs

/-! ### Every token but the last has a text -/

theorem readFollower_ne_nil {lead : Lead} {text rest : List Char}
    {go : String → List Char → List Char → Reading} (h : text ≠ [])
    (hgo : ∀ w t r, t ≠ [] → (go w t r).text ≠ []) : (readFollower lead text rest go).text ≠ [] := by
  unfold readFollower
  dsimp only
  split
  · simp [h]
  · split
    · exact hgo _ _ _ (by simp [h])
    · simp [h]

theorem readIs_ne_nil {text : List Char} (rest : List Char) (h : text ≠ []) :
    (readIs text rest).text ≠ [] := by
  refine readFollower_ne_nil h fun w t r ht => ?_
  repeat' split
  all_goals first | exact ht | skip
  refine readFollower_ne_nil ht fun w t r ht => ?_
  split <;> exact ht

theorem readNot_ne_nil {text : List Char} (rest : List Char) (h : text ≠ []) :
    (readNot text rest).text ≠ [] := by
  refine readFollower_ne_nil h fun w t r ht => ?_
  repeat' split
  all_goals exact ht

theorem readWord_ne_nil {c : Char} (cs : List Char) (h : isWordStart c = true) :
    (readWord (c :: cs)).text ≠ [] := by
  have hp : (splitPath (c :: cs)).1 ≠ [] := by
    simp [splitPath, isWordChar_of_isWordStart h]
  unfold readWord
  generalize splitPath (c :: cs) = w at hp
  obtain ⟨path, rest⟩ := w
  dsimp only at hp ⊢
  split
  · simp
  · split
    · exact hp
    · split
      · exact readIs_ne_nil _ hp
      · split
        · exact readNot_ne_nil _ hp
        · split <;> exact hp

theorem readNumber_ne_nil {c : Char} (cs : List Char) (h : c.isDigit = true ∨ isSign c = true) :
    (readNumber (c :: cs)).text ≠ [] := by
  have hp : (splitWhole (c :: cs)).1 ≠ [] := by
    by_cases hs : isSign c = true
    · simp [splitWhole, hs]
    · simp [splitWhole, hs, h.resolve_right hs]
  unfold readNumber
  generalize splitWhole (c :: cs) = w at hp
  obtain ⟨whole, rest⟩ := w
  dsimp only at hp ⊢
  split
  · split <;> simp
  · exact hp

theorem readString_ne_nil (cs : List Char) : (readString cs).text ≠ [] := by
  unfold readString
  dsimp only
  split
  · simp
  · split <;> simp
  · split <;> simp

theorem readOther_ne_nil {c : Char} {cs : List Char} {t : Token}
    (h : (readOther c cs).outcome = .ok t) : (readOther c cs).text ≠ [] := by
  unfold readOther at h ⊢
  by_cases h₁ : c = '!' ∨ c = '&' ∨ c = '|'
  · rw [if_pos h₁] at h
    cases h
  rw [if_neg h₁] at h ⊢
  by_cases h₂ : c = '\''
  · rw [if_pos h₂]
    exact readString_ne_nil _
  rw [if_neg h₂] at h ⊢
  by_cases h₃ : (c.isDigit || (isSign c && cs.head?.any Char.isDigit)) = true
  · rw [if_pos h₃]
    simp only [Bool.or_eq_true, Bool.and_eq_true] at h₃
    exact readNumber_ne_nil _ (h₃.imp_right And.left)
  rw [if_neg h₃] at h ⊢
  by_cases h₄ : isWordStart c = true
  · rw [if_pos h₄]
    exact readWord_ne_nil _ h₄
  rw [if_neg h₄] at h
  cases h

theorem symbols_ne_nil {s : List Char × Token} (h : s ∈ symbols) : s.1 ≠ [] := by
  revert s
  decide

/-- A token that does not end the text takes at least one character. -/
theorem readToken_ne_nil {cs : List Char} {t : Token} (h : (readToken cs).outcome = .ok t)
    (ht : t ≠ .endOfText) : (readToken cs).text ≠ [] := by
  unfold readToken at h ⊢
  split at h
  · rename_i text token hs
    exact symbols_ne_nil (List.mem_of_find?_eq_some hs)
  · cases cs with
    | nil => exact absurd (Except.ok.inj h).symm ht
    | cons c cs => exact readOther_ne_nil h

end RecordFilter

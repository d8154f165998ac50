import Mathlib.Data.List.TakeWhile
import Mathlib.Tactic.SplitIfs
import RecordFilter.Filter.Cursor
import RecordFilter.Text.Split

/-!
# What the tokens are made of

A token is read in the same way wherever its text stands, as long as the text behind it does not go on
with it.  Behind a word or a number it is enough that a blank, a comma or a closing bracket follows, or
nothing at all (`EndsToken`); so paths and numbers are read up to their ends (`PathText.read`,
`NumberText.read`).

Conversely a path and a number that have been read have the shape of a path and a number
(`shaped_of_readToken`), so that they are read again as they were (`pathText_iff`, `numberText_iff`).
-/

namespace RecordFilter

open RecordFilter.Text

/-! ### Where a token ends -/

/-- The blank, and the marks that may stand behind a value. -/
def isBreak (c : Char) : Bool := c == ' ' || c == ',' || c == ')'

/-- A text in front of which every token ends. -/
def EndsToken (r : List Char) : Prop := ∀ c ∈ r.head?, isBreak c = true

theorem endsToken_nil : EndsToken [] := nofun

theorem endsToken_cons {c : Char} (h : isBreak c = true) (r : List Char) : EndsToken (c :: r) := by
  intro d hd
  cases hd
  exact h

theorem isBreak_cases {c : Char} (h : isBreak c = true) : c = ' ' ∨ c = ',' ∨ c = ')' := by
  simpa [isBreak, or_assoc] using h

theorem isWordChar_of_isBreak {c : Char} (h : isBreak c = true) : isWordChar c = false := by
  rcases isBreak_cases h with rfl | rfl | rfl <;> rfl

theorem isDigit_of_isBreak {c : Char} (h : isBreak c = true) : c.isDigit = false := by
  rcases isBreak_cases h with rfl | rfl | rfl <;> rfl

theorem ne_of_isBreak {c d : Char} (h : isBreak c = true) (hd : isBreak d = false) : c ≠ d := by
  rintro rfl
  rw [h] at hd
  cases hd

/-- The text does not go on with a character of this class. -/
def StopsAt (p : Char → Bool) (r : List Char) : Prop := ∀ c ∈ r.head?, p c = false

theorem EndsToken.stopsAt {p : Char → Bool} {r : List Char} (h : EndsToken r)
    (hp : ∀ c, isBreak c = true → p c = false) : StopsAt p r :=
  fun c hc => hp c (h c hc)

theorem stopsAt_dropWhile (p : Char → Bool) (cs : List Char) : StopsAt p (cs.dropWhile p) := by
  intro c hc
  have h := List.head?_dropWhile_not p cs
  rw [Option.mem_def.mp hc] at h
  exact h

/-- What is taken of a class is taken up to where the class stops. -/
theorem takeWhile_of_stopsAt {p : Char → Bool} {w r : List Char} (hw : ∀ c ∈ w, p c = true)
    (hr : StopsAt p r) : (w ++ r).takeWhile p = w ∧ (w ++ r).dropWhile p = r := by
  rw [List.takeWhile_append_of_pos hw, List.dropWhile_append_of_pos hw]
  cases r with
  | nil => simp
  | cons c r =>
    have hc := hr c rfl
    simp [hc]

/-! ### Symbols -/

/-- What begins with none of these characters begins with no symbol. -/
def symbolHeads : List Char := ['(', ')', ',', '=', '!', '<', '>', '&', '|']

theorem symbol?_eq_none {c : Char} (h : c ∉ symbolHeads) (cs : List Char) :
    symbol? (c :: cs) = none := by
  have hs : ∀ s ∈ symbols, s.1.head?.any symbolHeads.contains = true := by decide
  rw [symbol?, List.find?_eq_none]
  rintro ⟨s, t⟩ hm hp
  have hd := hs _ hm
  cases s with
  | nil => cases hd
  | cons d s =>
    have hd : d ∈ symbolHeads := List.contains_iff_mem.mp hd
    rw [List.isPrefixOf_cons_cons, Bool.and_eq_true, beq_iff_eq] at hp
    exact h (hp.1 ▸ hd)

theorem not_mem_symbolHeads_of_isWordStart {c : Char} (h : isWordStart c = true) :
    c ∉ symbolHeads := by
  intro hc
  simp only [symbolHeads, List.mem_cons, List.not_mem_nil, or_false] at hc
  rcases hc with rfl | rfl | rfl | rfl | rfl | rfl | rfl | rfl | rfl <;> cases h

theorem not_mem_symbolHeads_of_isDigit {c : Char} (h : c.isDigit = true) : c ∉ symbolHeads := by
  intro hc
  simp only [symbolHeads, List.mem_cons, List.not_mem_nil, or_false] at hc
  rcases hc with rfl | rfl | rfl | rfl | rfl | rfl | rfl | rfl | rfl <;> cases h

/-! ### Words and paths -/

theorem isDigit_of_isWordStart {c : Char} (h : isWordStart c = true) : c.isDigit = false := by
  rw [isWordStart, Bool.or_eq_true, beq_iff_eq] at h
  rcases h with h | rfl
  · rw [Bool.eq_false_iff]
    intro hd
    -- the digits end before the capitals begin, and those before the small letters
    have hdigit : c.val ≤ '9'.val := of_decide_eq_true (Bool.and_eq_true_iff.mp hd).2
    have hletter : 'A'.val ≤ c.val ∨ 'a'.val ≤ c.val := by
      rcases Bool.or_eq_true_iff.mp h with hup | hlow
      · exact .inl ((of_decide_eq_true hup).1)
      · exact .inr (of_decide_eq_true (Bool.and_eq_true_iff.mp hlow).1)
    rw [UInt32.le_iff_toNat_le] at hdigit
    rw [UInt32.le_iff_toNat_le, UInt32.le_iff_toNat_le] at hletter
    have h₉ : '9'.val.toNat < 'A'.val.toNat := by decide
    have hA : 'A'.val.toNat < 'a'.val.toNat := by decide
    omega
  · rfl

theorem isSign_of_isWordStart {c : Char} (h : isWordStart c = true) : isSign c = false := by
  rw [Bool.eq_false_iff]
  intro hs
  rw [isSign, Bool.or_eq_true, beq_iff_eq, beq_iff_eq] at hs
  rcases hs with rfl | rfl <;> cases h

theorem readToken_of_isWordStart {c : Char} (h : isWordStart c = true) (cs : List Char) :
    readToken (c :: cs) = readWord (c :: cs) := by
  have hne : ∀ d : Char, isWordStart d = false → c ≠ d := by
    rintro d hd rfl
    rw [h] at hd
    cases hd
  rw [readToken, symbol?_eq_none (not_mem_symbolHeads_of_isWordStart h)]
  dsimp only
  rw [readOther, if_neg (by simp [hne '!' rfl, hne '&' rfl, hne '|' rfl]), if_neg (hne '\'' rfl),
    if_neg (by simp [isDigit_of_isWordStart h, isSign_of_isWordStart h]), if_pos h]

theorem splitPath_of_cons {c : Char} {w : List Char} (h : splitPath (c :: w) = (c :: w, [])) :
    (isWordChar c || (c == '.' && w.head?.any isWordStart)) = true ∧ splitPath w = (w, []) := by
  rw [splitPath] at h
  split at h
  · rename_i hc
    obtain ⟨h₁, h₂⟩ := Prod.mk.inj h
    exact ⟨hc, Prod.ext (List.cons.inj h₁).2 h₂⟩
  · cases h

/-- A word or a path goes on with this character. -/
def isPathChar (c : Char) : Bool := isWordChar c || c == '.'

theorem isPathChar_of_isBreak {c : Char} (h : isBreak c = true) : isPathChar c = false := by
  rcases isBreak_cases h with rfl | rfl | rfl <;> rfl

theorem splitPath_of_stopsAt {w r : List Char} (h : splitPath w = (w, []))
    (hr : StopsAt isPathChar r) : splitPath (w ++ r) = (w, r) := by
  induction w with
  | nil =>
    cases r with
    | nil => rfl
    | cons c r =>
      have hc := hr c rfl
      rw [isPathChar, Bool.or_eq_false_iff] at hc
      simp [splitPath, hc.1, hc.2]
  | cons c w ih =>
    obtain ⟨hc, hw⟩ := splitPath_of_cons h
    have hc' : (isWordChar c || (c == '.' && (w ++ r).head?.any isWordStart)) = true := by
      cases w with
      | nil =>
        rw [Bool.or_eq_true]
        left
        simpa using hc
      | cons d w => exact hc
    rw [List.cons_append, splitPath, if_pos hc', ih hw]

/-- What has been split off is split off whole. -/
theorem splitPath_splitPath (cs : List Char) :
    splitPath (splitPath cs).1 = ((splitPath cs).1, []) := by
  induction cs with
  | nil => rfl
  | cons c cs ih =>
    by_cases hc : (isWordChar c || (c == '.' && cs.head?.any isWordStart)) = true
    · have hc' : (isWordChar c || (c == '.' && (splitPath cs).1.head?.any isWordStart)) = true := by
        cases cs with
        | nil => exact hc
        | cons d cs =>
          rw [Bool.or_eq_true, Bool.and_eq_true] at hc ⊢
          refine hc.imp_right fun h => ⟨h.1, ?_⟩
          have hd : isWordStart d = true := h.2
          simp [splitPath, isWordChar_of_isWordStart hd, hd]
      simp only [splitPath, hc, if_true]
      simp only [hc', if_true, ih]
    · simp only [splitPath, if_neg hc]

theorem splitPath_of_word {w : List Char} (h : ∀ c ∈ w, isWordChar c = true) :
    splitPath w = (w, []) := by
  induction w with
  | nil => rfl
  | cons c w ih =>
    have ih := ih fun d hd => h d (List.mem_cons_of_mem c hd)
    simp [splitPath, h c List.mem_cons_self, ih]

/-- The word alone is no token but a path. -/
def FreeWord (w : List Char) : Prop :=
  lowered w ≠ "is" ∧ lowered w ≠ "not" ∧ keyword? (lowered w) = none

instance (w : List Char) : Decidable (FreeWord w) :=
  inferInstanceAs (Decidable (lowered w ≠ "is" ∧ lowered w ≠ "not" ∧ keyword? (lowered w) = none))

/-- The characters of a path: words with a point between neighbours, and with no point no keyword. -/
structure PathText (p : String) : Prop where
  start : p.toList.head?.any isWordStart = true
  whole : splitPath p.toList = (p.toList, [])
  free : '.' ∈ p.toList ∨ FreeWord p.toList

/-- What is read of a word and of the text behind it. -/
def readBehind (w r : List Char) : Reading :=
  if w.contains '.' then .found (.path (String.ofList w)) w r
  else if lowered w = "is" then readIs w r
  else if lowered w = "not" then readNot w r
  else match keyword? (lowered w) with
    | some token => .found token w r
    | none => .found (.path (String.ofList w)) w r

theorem readWord_of_stopsAt {w r : List Char} (h : splitPath w = (w, [])) (hr : StopsAt isPathChar r) :
    readWord (w ++ r) = readBehind w r := by
  unfold readWord
  rw [splitPath_of_stopsAt h hr]
  dsimp only
  split
  · cases hr '.' rfl
  · rfl

/-- A path is read up to its end. -/
theorem PathText.read {p : String} (h : PathText p) {r : List Char} (hr : EndsToken r) :
    readToken (p.toList ++ r) = .found (.path p) p.toList r := by
  obtain ⟨hs, hw, hf⟩ := h
  have hword : readWord (p.toList ++ r) = .found (.path p) p.toList r := by
    rw [readWord_of_stopsAt hw (hr.stopsAt fun _ => isPathChar_of_isBreak), readBehind,
      String.ofList_toList]
    rcases hf with hf | ⟨h₁, h₂, h₃⟩
    · rw [if_pos (List.contains_iff_mem.mpr hf)]
    · rw [if_neg h₁, if_neg h₂, h₃, ite_self]
  cases hp : p.toList with
  | nil =>
    rw [hp] at hs
    cases hs
  | cons c cs =>
    rw [hp] at hs hword
    rw [List.cons_append, readToken_of_isWordStart hs]
    exact hword

/-! ### Numbers -/

/-- The characters of a number: a sign or none, digits, and a point only with digits behind it. -/
def NumberText (n : String) : Prop :=
  ∃ sign whole fraction : List Char, n.toList = sign ++ whole ++ fraction ∧
    (sign = [] ∨ ∃ c, isSign c = true ∧ sign = [c]) ∧
    (whole ≠ [] ∧ ∀ c ∈ whole, c.isDigit = true) ∧
    (fraction = [] ∨ ∃ ds, ds ≠ [] ∧ (∀ c ∈ ds, c.isDigit = true) ∧ fraction = '.' :: ds)

theorem isSign_of_isDigit {c : Char} (h : c.isDigit = true) : isSign c = false := by
  rw [Bool.eq_false_iff]
  intro hs
  rw [isSign, Bool.or_eq_true, beq_iff_eq, beq_iff_eq] at hs
  rcases hs with rfl | rfl <;> cases h

/-- A sign and digits are split off in front of what is no digit. -/
theorem splitWhole_append_of {sign whole r : List Char}
    (hs : sign = [] ∨ ∃ c, isSign c = true ∧ sign = [c])
    (hw : whole ≠ [] ∧ ∀ c ∈ whole, c.isDigit = true) (hr : ∀ c ∈ r.head?, c.isDigit = false) :
    splitWhole (sign ++ whole ++ r) = (sign ++ whole, r) := by
  have ht : (whole ++ r).takeWhile Char.isDigit = whole := by
    rw [List.takeWhile_append_of_pos hw.2]
    cases r with
    | nil => simp
    | cons c r => simp [hr c rfl]
  have hd : (whole ++ r).dropWhile Char.isDigit = r := by
    rw [List.dropWhile_append_of_pos hw.2]
    cases r with
    | nil => rfl
    | cons c r => simp [hr c rfl]
  rcases hs with rfl | ⟨c, hc, rfl⟩
  · rw [List.nil_append]
    cases whole with
    | nil => exact absurd rfl hw.1
    | cons c whole =>
      have hc := isSign_of_isDigit (hw.2 c List.mem_cons_self)
      rw [List.cons_append] at ht hd ⊢
      simp only [splitWhole, hc, ht, hd]
      rfl
  · rw [List.singleton_append, List.cons_append]
    simp only [splitWhole, hc, if_true, ht, hd]

theorem readNumber_of_whole {cs w r : List Char} (h : splitWhole cs = (w, r))
    (hr : '.' ∉ r.head?) : readNumber cs = .found (.number (String.ofList w)) w r := by
  unfold readNumber
  rw [h]
  dsimp only
  split
  · exact absurd rfl hr
  · rfl

theorem readNumber_of_fraction {cs w r : List Char} (h : splitWhole cs = (w, '.' :: r))
    (hr : r.head?.any Char.isDigit = true) :
    readNumber cs = .found (.number (String.ofList (w ++ '.' :: r.takeWhile Char.isDigit)))
      (w ++ '.' :: r.takeWhile Char.isDigit) (r.dropWhile Char.isDigit) := by
  unfold readNumber
  rw [h]
  exact if_pos hr

/-- What begins like a number is read as a number. -/
theorem readToken_of_number {c : Char} {cs : List Char}
    (h : c.isDigit = true ∨ isSign c = true ∧ cs.head?.any Char.isDigit = true) :
    readToken (c :: cs) = readNumber (c :: cs) := by
  have hc : c ∉ symbolHeads ∧ c ≠ '\'' := by
    rcases h with h | ⟨h, -⟩
    · refine ⟨not_mem_symbolHeads_of_isDigit h, ?_⟩
      rintro rfl
      cases h
    · rw [isSign, Bool.or_eq_true, beq_iff_eq, beq_iff_eq] at h
      rcases h with rfl | rfl <;> decide
  have hlone : ¬ (c = '!' ∨ c = '&' ∨ c = '|') := by
    rintro (rfl | rfl | rfl) <;> exact hc.1 (by decide)
  rw [readToken, symbol?_eq_none hc.1]
  dsimp only
  rw [readOther, if_neg hlone, if_neg hc.2, if_pos (by simpa using h)]

/-- A sign and digits are the beginning of a number. -/
theorem readToken_of_whole {sign whole : List Char}
    (hs : sign = [] ∨ ∃ c, isSign c = true ∧ sign = [c])
    (hw : whole ≠ [] ∧ ∀ c ∈ whole, c.isDigit = true) (r : List Char) :
    readToken (sign ++ whole ++ r) = readNumber (sign ++ whole ++ r) := by
  obtain ⟨d, whole, rfl⟩ := List.exists_cons_of_ne_nil hw.1
  have hd := hw.2 d List.mem_cons_self
  rcases hs with rfl | ⟨c, hc, rfl⟩
  · exact readToken_of_number (Or.inl hd)
  · exact readToken_of_number (Or.inr ⟨hc, hd⟩)

/-- A number with no point is read in front of what is no digit and no point. -/
theorem readToken_whole {sign whole r : List Char}
    (hs : sign = [] ∨ ∃ c, isSign c = true ∧ sign = [c])
    (hw : whole ≠ [] ∧ ∀ c ∈ whole, c.isDigit = true) (hr : StopsAt Char.isDigit r)
    (hpoint : StopsAt (· == '.') r) :
    readToken (sign ++ whole ++ r) =
      .found (.number (String.ofList (sign ++ whole))) (sign ++ whole) r := by
  rw [readToken_of_whole hs hw]
  exact readNumber_of_whole (splitWhole_append_of hs hw hr) fun h => nomatch hpoint '.' h

/-- A number with a point is read in front of what is no digit. -/
theorem readToken_fraction {sign whole ds r : List Char}
    (hs : sign = [] ∨ ∃ c, isSign c = true ∧ sign = [c])
    (hw : whole ≠ [] ∧ ∀ c ∈ whole, c.isDigit = true)
    (hds : ds ≠ [] ∧ ∀ c ∈ ds, c.isDigit = true) (hr : StopsAt Char.isDigit r) :
    readToken (sign ++ whole ++ '.' :: ds ++ r) =
      .found (.number (String.ofList (sign ++ whole ++ '.' :: ds))) (sign ++ whole ++ '.' :: ds) r := by
  have hsplit := splitWhole_append_of (r := '.' :: (ds ++ r)) hs hw (by rintro c ⟨⟩; rfl)
  obtain ⟨htake, hdrop⟩ := takeWhile_of_stopsAt hds.2 hr
  have hhead : (ds ++ r).head?.any Char.isDigit = true := by
    obtain ⟨d, ds, rfl⟩ := List.exists_cons_of_ne_nil hds.1
    exact hds.2 d List.mem_cons_self
  rw [List.append_assoc, List.cons_append, readToken_of_whole hs hw,
    readNumber_of_fraction hsplit hhead, htake, hdrop]

/-- A number is read up to its end. -/
theorem NumberText.read {n : String} (h : NumberText n) {r : List Char} (hr : EndsToken r) :
    readToken (n.toList ++ r) = .found (.number n) n.toList r := by
  obtain ⟨sign, whole, fraction, hn, hs, hw, hf⟩ := h
  have hdigit : StopsAt Char.isDigit r := hr.stopsAt fun _ => isDigit_of_isBreak
  rcases hf with rfl | ⟨ds, hne, hds, rfl⟩
  · rw [List.append_nil] at hn
    have hpoint : StopsAt (· == '.') r :=
      hr.stopsAt fun _ hc => beq_false_of_ne (ne_of_isBreak hc rfl)
    rw [hn, readToken_whole hs hw hdigit hpoint, ← hn, String.ofList_toList]
  · rw [hn, readToken_fraction hs hw ⟨hne, hds⟩ hdigit, ← hn, String.ofList_toList]

/-! ### The shape of what has been read -/

/-- A path and a number have a shape; the other tokens have none. -/
def Token.Shaped : Token → Prop
  | path p => PathText p
  | number n => NumberText n
  | _ => True

/-- A token with its shape, other than the end of the text. -/
def Token.Proper (t : Token) : Prop := t.Shaped ∧ t ≠ .endOfText

theorem digits_of_takeWhile {cs : List Char} (h : cs.head?.any Char.isDigit = true) :
    cs.takeWhile Char.isDigit ≠ [] ∧ ∀ c ∈ cs.takeWhile Char.isDigit, c.isDigit = true := by
  refine ⟨?_, fun c hc => List.mem_takeWhile_imp hc⟩
  cases cs with
  | nil => cases h
  | cons c cs =>
    have hc : c.isDigit = true := h
    simp [hc]

theorem splitWhole_shape {c : Char} {cs : List Char}
    (h : c.isDigit = true ∨ isSign c = true ∧ cs.head?.any Char.isDigit = true) :
    ∃ sign whole : List Char, (splitWhole (c :: cs)).1 = sign ++ whole ∧
      (sign = [] ∨ ∃ c, isSign c = true ∧ sign = [c]) ∧
      (whole ≠ [] ∧ ∀ c ∈ whole, c.isDigit = true) := by
  rcases h with h | ⟨hs, h⟩
  · refine ⟨[], (c :: cs).takeWhile Char.isDigit, ?_, Or.inl rfl, digits_of_takeWhile h⟩
    simp [splitWhole, isSign_of_isDigit h]
  · refine ⟨[c], cs.takeWhile Char.isDigit, ?_, Or.inr ⟨c, hs, rfl⟩, digits_of_takeWhile h⟩
    simp [splitWhole, hs]

theorem proper_of_readNumber {c : Char} {cs : List Char} {t : Token}
    (h : c.isDigit = true ∨ isSign c = true ∧ cs.head?.any Char.isDigit = true)
    (ht : (readNumber (c :: cs)).outcome = .ok t) : t.Proper := by
  obtain ⟨sign, whole, hw, hs, hd⟩ := splitWhole_shape h
  unfold readNumber at ht
  generalize splitWhole (c :: cs) = w at hw ht
  obtain ⟨w, rest⟩ := w
  dsimp only at hw ht
  subst hw
  split at ht
  · rename_i rest r
    split at ht
    · rename_i hhead
      cases ht
      refine ⟨⟨sign, whole, '.' :: r.takeWhile Char.isDigit, ?_, hs, hd, Or.inr ?_⟩, nofun⟩
      · rw [String.toList_ofList]
      · exact ⟨_, (digits_of_takeWhile hhead).1, (digits_of_takeWhile hhead).2, rfl⟩
    · cases ht
  · cases ht
    refine ⟨⟨sign, whole, [], ?_, hs, hd, Or.inl rfl⟩, nofun⟩
    rw [String.toList_ofList, List.append_nil]

theorem readFollower_ok {lead : Lead} {text rest : List Char}
    {go : String → List Char → List Char → Reading} {t : Token}
    (h : (readFollower lead text rest go).outcome = .ok t) :
    ∃ (word : String) (text' rest' : List Char), (go word text' rest').outcome = .ok t := by
  unfold readFollower at h
  dsimp only at h
  split at h
  · cases h
  · split at h
    · exact ⟨_, _, _, h⟩
    · cases h

theorem proper_of_readIs {text rest : List Char} {t : Token}
    (h : (readIs text rest).outcome = .ok t) : t.Proper := by
  obtain ⟨word, text', rest', h⟩ := readFollower_ok h
  split_ifs at h
  · cases h
    exact ⟨trivial, nofun⟩
  · cases h
    exact ⟨trivial, nofun⟩
  · cases h
    exact ⟨trivial, nofun⟩
  · obtain ⟨word, text', rest', h⟩ := readFollower_ok h
    split_ifs at h
    · cases h
      exact ⟨trivial, nofun⟩
    · cases h
  · cases h

theorem proper_of_readNot {text rest : List Char} {t : Token}
    (h : (readNot text rest).outcome = .ok t) : t.Proper := by
  obtain ⟨word, text', rest', h⟩ := readFollower_ok h
  split_ifs at h <;> cases h <;> exact ⟨trivial, nofun⟩

theorem proper_of_keyword? {word : String} {t : Token} (h : keyword? word = some t) : t.Proper := by
  unfold keyword? at h
  split_ifs at h <;> cases h <;> exact ⟨trivial, nofun⟩

theorem proper_of_readWord {c : Char} {cs : List Char} {t : Token} (h : isWordStart c = true)
    (ht : (readWord (c :: cs)).outcome = .ok t) : t.Proper := by
  have hstart : (splitPath (c :: cs)).1.head?.any isWordStart = true := by
    simp [splitPath, isWordChar_of_isWordStart h, h]
  have hwhole := splitPath_splitPath (c :: cs)
  unfold readWord at ht
  generalize splitPath (c :: cs) = w at hstart hwhole ht
  obtain ⟨path, rest⟩ := w
  have hpath (hfree : '.' ∈ path ∨ FreeWord path) : PathText (String.ofList path) := by
    constructor <;> rw [String.toList_ofList]
    exacts [hstart, hwhole, hfree]
  dsimp only at ht
  split at ht
  · cases ht
  · split_ifs at ht with hdot his hnot
    · cases ht
      exact ⟨hpath (Or.inl (List.contains_iff_mem.mp hdot)), by simp⟩
    · exact proper_of_readIs ht
    · exact proper_of_readNot ht
    · split at ht
      · rename_i token hk
        cases ht
        exact proper_of_keyword? hk
      · rename_i hk
        cases ht
        exact ⟨hpath (Or.inr ⟨his, hnot, hk⟩), by simp⟩

theorem proper_of_readString {cs : List Char} {t : Token} (ht : (readString cs).outcome = .ok t) :
    t.Proper := by
  unfold readString at ht
  dsimp only at ht
  split at ht
  · cases ht
  · split at ht <;> cases ht
    exact ⟨trivial, nofun⟩
  · split at ht <;> cases ht
    exact ⟨trivial, nofun⟩

theorem proper_of_symbol? {cs text : List Char} {t : Token} (h : symbol? cs = some (text, t)) :
    t.Proper := by
  have hm := List.mem_of_find?_eq_some h
  simp only [symbols, List.mem_cons, List.not_mem_nil, or_false, Prod.mk.injEq] at hm
  rcases hm with h | h | h | h | h | h | h | h | h | h | h | h <;> rw [h.2] <;>
    exact ⟨trivial, nofun⟩

/-- **What has been read has its shape**, and it ends the text only where nothing is left to read. -/
theorem proper_of_readToken {cs : List Char} {t : Token} (ht : (readToken cs).outcome = .ok t) :
    t.Proper ∨ cs = [] ∧ t = .endOfText := by
  unfold readToken at ht
  split at ht
  · rename_i text token hs
    cases ht
    exact Or.inl (proper_of_symbol? hs)
  · cases cs with
    | nil => exact Or.inr ⟨rfl, (Except.ok.inj ht).symm⟩
    | cons c cs =>
      left
      dsimp only at ht
      unfold readOther at ht
      split_ifs at ht with h₁ h₂ h₃ h₄
      · cases ht
      · exact proper_of_readString ht
      · exact proper_of_readNumber (by simpa using h₃) ht
      · exact proper_of_readWord h₄ ht
      · cases ht

theorem shaped_of_readToken {cs : List Char} {t : Token} (ht : (readToken cs).outcome = .ok t) :
    t.Shaped := by
  rcases proper_of_readToken ht with h | ⟨-, rfl⟩
  · exact h.1
  · trivial

theorem eq_nil_of_readToken {cs : List Char} (h : (readToken cs).outcome = .ok .endOfText) :
    cs = [] := by
  rcases proper_of_readToken h with h | h
  · exact absurd rfl h.2
  · exact h.1

/-- The texts of paths are the texts that are read as a path, whole. -/
theorem pathText_iff {p : String} :
    PathText p ↔ readToken p.toList = .found (.path p) p.toList [] := by
  constructor
  · intro h
    have hr := h.read endsToken_nil
    rwa [List.append_nil] at hr
  · intro h
    exact shaped_of_readToken (t := .path p) (congrArg Reading.outcome h)

theorem numberText_iff {n : String} :
    NumberText n ↔ readToken n.toList = .found (.number n) n.toList [] := by
  constructor
  · intro h
    have hr := h.read endsToken_nil
    rwa [List.append_nil] at hr
  · intro h
    exact shaped_of_readToken (t := .number n) (congrArg Reading.outcome h)

/-! ### The segments of a path -/

/-- A character that is no separator is put in front of the first piece. -/
theorem splitAt_cons_of_ne {sep c : Char} (hc : c ≠ sep) (w : List Char) :
    ∃ q qs, splitAt sep w = q :: qs ∧ splitAt sep (c :: w) = (c :: q) :: qs := by
  obtain ⟨q, qs, hq⟩ := List.exists_cons_of_ne_nil (splitAt_ne_nil sep w)
  refine ⟨q, qs, hq, ?_⟩
  rw [splitAt, if_neg hc, hq, pushFirst]

/-- Every piece behind a point begins with a letter. -/
theorem ne_nil_of_mem_tail_splitAt {w : List Char} (h : splitPath w = (w, [])) :
    ∀ q ∈ (splitAt '.' w).tail, q ≠ [] := by
  induction w with
  | nil => simp [splitAt]
  | cons c w ih =>
    obtain ⟨hc, hw⟩ := splitPath_of_cons h
    have ih := ih hw
    by_cases hp : c = '.'
    · subst hp
      rw [splitAt, if_pos rfl, List.tail_cons]
      cases w with
      | nil => cases hc
      | cons d w =>
        have hd : d ≠ '.' := by
          rintro rfl
          cases hc
        obtain ⟨q, qs, -, hqs⟩ := splitAt_cons_of_ne hd w
        rw [hqs] at ih ⊢
        exact List.forall_mem_cons.mpr ⟨List.cons_ne_nil d q, ih⟩
    · obtain ⟨q, qs, hq, hqs⟩ := splitAt_cons_of_ne hp w
      rw [hq] at ih
      rw [hqs]
      exact ih

/-- **No segment of a path is empty.** -/
theorem PathText.named {p : String} (h : PathText p) : "" ∉ pieces '.' p := by
  have hne : ∀ q ∈ splitAt '.' p.toList, q ≠ [] := by
    have hs := h.start
    have htail := ne_nil_of_mem_tail_splitAt h.whole
    cases hp : p.toList with
    | nil =>
      rw [hp] at hs
      cases hs
    | cons c w =>
      rw [hp] at hs htail
      have hc : c ≠ '.' := by
        rintro rfl
        cases hs
      obtain ⟨q, qs, -, hqs⟩ := splitAt_cons_of_ne hc w
      rw [hqs] at htail ⊢
      exact List.forall_mem_cons.mpr ⟨List.cons_ne_nil c q, htail⟩
  intro hm
  obtain ⟨q, hq, hqe⟩ := List.mem_map.mp hm
  exact hne q hq (by simpa using congrArg String.toList hqe)

/-! ### All tokens of a text -/

theorem Cursor.outcome_of_next {c : Cursor} {l : Lexeme} (h : c.next.1 = .ok l) :
    (readToken c.skip.rest).outcome = .ok l.token := by
  unfold next at h
  dsimp only at h
  split at h
  · rename_i hr
    rw [hr, ← Except.ok.inj h]
  · cases h

/-- The tokens ahead have their shapes and do not end the text; only the last lexeme does. -/
theorem Cursor.shaped_feed (c : Cursor) :
    (∀ l ∈ c.feed.tokens, l.token.Shaped ∧ l.token ≠ .endOfText) ∧
      ∀ e, c.feed.stop = .endOfText e → e.token = .endOfText := by
  cases h : c.next.1 with
  | error e =>
    rw [feed_error h]
    exact ⟨nofun, nofun⟩
  | ok l =>
    by_cases hl : l.token = .endOfText
    · rw [feed_end h hl]
      refine ⟨nofun, fun e he => ?_⟩
      cases he
      exact hl
    · rw [feed_token h hl]
      have ih := c.next.2.shaped_feed
      refine ⟨fun k hk => ?_, ih.2⟩
      rcases List.mem_cons.mp hk with rfl | hk
      · exact ⟨shaped_of_readToken (outcome_of_next h), hl⟩
      · exact ih.1 k hk
termination_by c.rest.length
decreasing_by exact next_length_lt h hl

end RecordFilter

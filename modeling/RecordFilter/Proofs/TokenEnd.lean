import RecordFilter.Proofs.Spelled

/-!
# Where a token ends

A token is told from its own text and from at most one character behind it.  So the token is the same
in front of any text that begins like the one it was read in front of, and in front of any text behind
which no token goes on: nothing, a blank, a comma or a closing bracket (`Closes`).  The two together are
`GoesOnLike`, and `readToken_of_goesOnLike` says that a token and its text stay as they are if what
follows is put in the place of what followed.  In particular the text of a token alone is read as that
token (`readToken_alone`).

Operators of several words are read word by word; what is taken behind a word stays so as well (`Settled`).
-/

namespace RecordFilter

open RecordFilter.Text

/-! ### What may follow -/

/-- A text in front of which every token ends, also one that is no value. -/
def Closes (r : List Char) : Prop := ∀ c ∈ r.head?, (isBlank c || isBreak c) = true

theorem closes_nil : Closes [] := nofun

theorem closes_cons {c : Char} (h : (isBlank c || isBreak c) = true) (r : List Char) :
    Closes (c :: r) := by
  intro d hd
  cases hd
  exact h

theorem closes_of_blanks {blanks : List Char} (hne : blanks ≠ [])
    (hb : ∀ c ∈ blanks, isBlank c = true) (r : List Char) : Closes (blanks ++ r) := by
  obtain ⟨c, blanks, rfl⟩ := List.exists_cons_of_ne_nil hne
  exact closes_cons (by rw [hb c List.mem_cons_self, Bool.true_or]) _

/-- What can stand in the place of `r` behind a token. -/
def GoesOnLike (r r' : List Char) : Prop := r'.head? = r.head? ∨ Closes r'

theorem goesOnLike_nil (r : List Char) : GoesOnLike r [] := Or.inr closes_nil

/-- What follows may be made longer; behind nothing at all the token has to end. -/
theorem goesOnLike_append {r x : List Char} (h : Closes x) : GoesOnLike r (r ++ x) := by
  cases r with
  | nil => exact Or.inr h
  | cons c r => exact Or.inl rfl

theorem StopsAt.of_goesOnLike {p : Char → Bool} {r r' : List Char} (h : StopsAt p r)
    (hp : ∀ c, (isBlank c || isBreak c) = true → p c = false) (hr : GoesOnLike r r') :
    StopsAt p r' := by
  rcases hr with hr | hr
  · intro c hc
    exact h c (hr ▸ hc)
  · exact fun c hc => hp c (hr c hc)

theorem isWordChar_of_closes {c : Char} (h : (isBlank c || isBreak c) = true) :
    isWordChar c = false := by
  rcases Bool.or_eq_true_iff.mp h with h | h
  · exact isWordChar_eq_false_of_isBlank h
  · exact isWordChar_of_isBreak h

theorem isDigit_of_closes {c : Char} (h : (isBlank c || isBreak c) = true) : c.isDigit = false := by
  have hw := isWordChar_of_closes h
  simp only [isWordChar, Char.isAlphanum, Bool.or_eq_false_iff] at hw
  exact hw.1.2

theorem ne_of_closes {c d : Char} (h : (isBlank c || isBreak c) = true)
    (hd : (isBlank d || isBreak d) = false) : c ≠ d := by
  rintro rfl
  rw [h] at hd
  cases hd

/-! ### Symbols -/

/-- Two symbols are the beginning of longer ones. -/
theorem symbol?_less {r : List Char} :
    symbol? ('<' :: r) = some (['<'], .operator (.compare .less)) ↔
      StopsAt (fun d => d == '=' || d == '>') r := by
  cases r with
  | nil => exact iff_of_true rfl nofun
  | cons d r =>
    by_cases he : d = '='
    · subst he
      exact iff_of_false nofun fun h => nomatch h '=' rfl
    by_cases hg : d = '>'
    · subst hg
      exact iff_of_false nofun fun h => nomatch h '>' rfl
    refine iff_of_true ?_ fun c hc => ?_
    · simp [symbol?, symbols, List.isPrefixOf, Ne.symm he, Ne.symm hg]
    · cases hc
      simp [he, hg]

theorem symbol?_greater {r : List Char} :
    symbol? ('>' :: r) = some (['>'], .operator (.compare .greater)) ↔ StopsAt (· == '=') r := by
  cases r with
  | nil => exact iff_of_true rfl nofun
  | cons d r =>
    by_cases he : d = '='
    · subst he
      exact iff_of_false nofun fun h => nomatch h '=' rfl
    refine iff_of_true ?_ fun c hc => ?_
    · simp [symbol?, symbols, List.isPrefixOf, Ne.symm he]
    · cases hc
      simp [he]

/-- No symbol is made longer by what ends a token. -/
theorem symbol?_of_goesOnLike {text r r' : List Char} {t : Token}
    (h : symbol? (text ++ r) = some (text, t)) (hr : GoesOnLike r r') :
    symbol? (text ++ r') = some (text, t) := by
  have hm := List.mem_of_find?_eq_some h
  simp only [symbols, List.mem_cons, List.not_mem_nil, or_false, Prod.mk.injEq] at hm
  rcases hm with hm | hm | hm | hm | hm | hm | hm | hm | hm | hm | hm | hm <;>
    obtain ⟨rfl, rfl⟩ := hm
  case inr.inr.inr.inr.inr.inr.inr.inl =>
    refine symbol?_less.mpr ((symbol?_less.mp h).of_goesOnLike (fun c hc => ?_) hr)
    simp [ne_of_closes hc (d := '=') (by decide), ne_of_closes hc (d := '>') (by decide)]
  case inr.inr.inr.inr.inr.inr.inr.inr.inr.inl =>
    refine symbol?_greater.mpr ((symbol?_greater.mp h).of_goesOnLike (fun c hc => ?_) hr)
    simp [ne_of_closes hc (d := '=') (by decide)]
  all_goals rfl

/-! ### Strings -/

/-- A string that ends at its closing quote is read alike whatever stands behind the quote. -/
theorem readQuoted_of_rest {cs r : List Char} (h : (readQuoted cs).rest = '\'' :: r)
    (r' : List Char) :
    readQuoted ((readQuoted cs).text ++ '\'' :: r') =
      ⟨(readQuoted cs).content, (readQuoted cs).text, '\'' :: r'⟩ := by
  have hquote : readQuoted ('\'' :: r') = ⟨[], [], '\'' :: r'⟩ := by cases r' <;> rfl
  fun_induction readQuoted cs with
  | case1 => cases h
  | case2 c hc => exact hquote
  | case3 c hc => cases h
  | case4 d cs => exact hquote
  | case5 d cs hd q hne ih =>
    have ih := ih h
    dsimp only [List.cons_append]
    rw [readQuoted, if_neg hne, if_pos rfl, if_pos hd, ih]
  | case6 d cs hd hne => cases h
  | case7 c d cs hc hc' q ih =>
    have ih := ih h
    obtain ⟨e, w, he⟩ : ∃ e w, q.text ++ '\'' :: r' = e :: w :=
      List.exists_cons_of_ne_nil (by simp)
    dsimp only [List.cons_append]
    rw [he, readQuoted, if_neg hc, if_neg hc', ← he, ih]

/-- The text of a string ends at the closing quote. -/
theorem readString_of_found {cs text r : List Char} {t : Token} (h : readString cs = .found t text r)
    (r' : List Char) : ∃ w, text = '\'' :: w ∧ readString (w ++ r') = .found t text r' := by
  have hq : ∀ r, (readQuoted cs).rest = '\'' :: r → ∀ r', readQuoted ((readQuoted cs).text ++ '\'' :: r') =
      ⟨(readQuoted cs).content, (readQuoted cs).text, '\'' :: r'⟩ :=
    fun r h => readQuoted_of_rest h
  unfold readString at h
  generalize readQuoted cs = q at h hq
  obtain ⟨content, inside, rest⟩ := q
  dsimp only at h hq
  have hread : rest.head? = some '\'' → t = .string (String.ofList content) →
      text = '\'' :: inside ++ ['\''] →
        ∃ w, text = '\'' :: w ∧ readString (w ++ r') = .found t text r' := by
    rintro hrest rfl rfl
    refine ⟨inside ++ ['\''], rfl, ?_⟩
    obtain ⟨tail, rfl⟩ := List.head?_eq_some_iff.mp hrest
    unfold readString
    rw [List.append_assoc, List.singleton_append, hq _ rfl r']
    cases r' <;> rfl
  split at h
  · cases h
  · split at h
    · rename_i c hc
      cases h
      exact hread (hc ▸ rfl) rfl (hc ▸ rfl)
    · cases h
  · split at h
    · rename_i c d rest hc
      cases h
      exact hread (hc ▸ rfl) rfl (hc ▸ rfl)
    · cases h

/-! ### Numbers -/

theorem stopsAt_splitWhole (cs : List Char) : StopsAt Char.isDigit (splitWhole cs).2 := by
  cases cs with
  | nil => exact nofun
  | cons c cs =>
    rw [splitWhole]
    split
    · exact stopsAt_dropWhile _ cs
    · exact stopsAt_dropWhile _ (c :: cs)

theorem readNumber_of_found {cs text r r' : List Char} {t : Token} {c : Char}
    (hc : c.isDigit = true ∨ isSign c = true ∧ cs.head?.any Char.isDigit = true)
    (h : readNumber (c :: cs) = .found t text r) (hr : GoesOnLike r r') :
    readToken (text ++ r') = .found t text r' := by
  obtain ⟨sign, whole, hw, hs, hd⟩ := splitWhole_shape hc
  have hrest := stopsAt_splitWhole (c :: cs)
  unfold readNumber at h
  generalize splitWhole (c :: cs) = w at hw hrest h
  obtain ⟨w, rest⟩ := w
  dsimp only at hw hrest h
  subst hw
  split at h
  · rename_i rest
    split at h
    · rename_i hhead
      cases h
      have hstop := (stopsAt_dropWhile Char.isDigit rest).of_goesOnLike
        (fun c => isDigit_of_closes) hr
      exact readToken_fraction hs hd (digits_of_takeWhile hhead) hstop
    · cases h
  · rename_i hpoint
    cases h
    have hstop := hrest.of_goesOnLike (fun c => isDigit_of_closes) hr
    have hpoint' : StopsAt (· == '.') r' := by
      refine StopsAt.of_goesOnLike (fun d hd => ?_) (fun d hd => ?_) hr
      · obtain ⟨tail, rfl⟩ := List.head?_eq_some_iff.mp hd
        exact beq_false_of_ne fun he => hpoint tail (he ▸ rfl)
      · exact beq_false_of_ne (ne_of_closes hd (by decide))
    exact readToken_whole hs hd hstop hpoint'

/-! ### Words -/

theorem isPathChar_of_closes {c : Char} (h : (isBlank c || isBreak c) = true) :
    isPathChar c = false := by
  simp [isPathChar, isWordChar_of_closes h, ne_of_closes h (d := '.') (by decide)]

theorem stopsAt_splitPath (cs : List Char) : StopsAt isWordChar (splitPath cs).2 := by
  induction cs with
  | nil => exact nofun
  | cons c cs ih =>
    rw [splitPath]
    split
    · exact ih
    · rename_i hc
      rintro d ⟨⟩
      rw [Bool.not_eq_true, Bool.or_eq_false_iff] at hc
      exact hc.1

theorem GoesOnLike.append_left {r r' : List Char} (h : GoesOnLike r r') (a : List Char) :
    GoesOnLike (a ++ r) (a ++ r') := by
  cases a with
  | nil => exact h
  | cons c a => exact Or.inl rfl

/-- What `read` takes behind `text` it takes also if what it leaves is changed. -/
def Settled (text : List Char) (read : List Char → Reading) : Prop :=
  ∀ ⦃rest : List Char⦄ ⦃t : Token⦄ ⦃text' r r' : List Char⦄, read rest = .found t text' r →
    GoesOnLike r r' →
      ∃ more, rest = more ++ r ∧ text' = text ++ more ∧ read (more ++ r') = .found t text' r'

theorem settled_found (t : Token) (text : List Char) : Settled text (.found t text) := by
  rintro rest t text r r' ⟨⟩ -
  exact ⟨[], rfl, (List.append_nil text).symm, rfl⟩

theorem settled_failed (fault : SyntaxFault) (before text text' : List Char) :
    Settled text (.failed fault before text') :=
  nofun

theorem Settled.ite {p : Prop} [Decidable p] {text : List Char} {f g : List Char → Reading}
    (hf : Settled text f) (hg : Settled text g) :
    Settled text fun rest => if p then f rest else g rest := by
  by_cases hp : p
  · simpa only [if_pos hp] using hf
  · simpa only [if_neg hp] using hg

theorem Settled.follower {lead : Lead} {text : List Char}
    {go : String → List Char → List Char → Reading}
    (hgo : ∀ word text, Settled text (go word text)) :
    Settled text fun rest => readFollower lead text rest go := by
  intro rest t text' r r' h hr
  unfold readFollower at h
  dsimp only at h
  split at h
  · cases h
  rename_i c hc
  split at h
  · rename_i hstart
    obtain ⟨more, hmore, rfl, hread⟩ := hgo _ _ h hr
    have hrest : rest.takeWhile isBlank ++ ((rest.dropWhile isBlank).takeWhile isWordChar ++
        (rest.dropWhile isBlank).dropWhile isWordChar) = rest := by
      rw [List.takeWhile_append_dropWhile, List.takeWhile_append_dropWhile]
    have hstop := stopsAt_dropWhile isWordChar (rest.dropWhile isBlank)
    rw [hmore] at hrest hstop
    have hword : ((rest.dropWhile isBlank).takeWhile isWordChar).head?.any isWordStart = true := by
      obtain ⟨w, hw⟩ := List.head?_eq_some_iff.mp hc
      simp [hw, isWordChar_of_isWordStart hstart, hstart]
    refine ⟨rest.takeWhile isBlank ++ ((rest.dropWhile isBlank).takeWhile isWordChar ++ more), ?_, ?_, ?_⟩
    · rw [List.append_assoc, List.append_assoc, hrest]
    · rw [List.append_assoc, List.append_assoc]
    · rw [List.append_assoc, List.append_assoc, ← hread]
      exact readFollower_append (fun c hc => List.mem_takeWhile_imp hc) hword
        (fun c hc => List.mem_takeWhile_imp hc)
        (hstop.of_goesOnLike (fun c => isWordChar_of_closes) (hr.append_left more)) lead text go
  · cases h

theorem settled_readIs (text : List Char) : Settled text (readIs text) := by
  refine Settled.follower fun word text => ?_
  refine (settled_found _ text).ite <| (settled_found _ text).ite <| (settled_found _ text).ite <|
    Settled.ite (Settled.follower fun word text => ?_) (settled_failed ..)
  exact (settled_found _ text).ite (settled_failed ..)

theorem settled_readNot (text : List Char) : Settled text (readNot text) :=
  Settled.follower fun _ text => (settled_found _ text).ite <| (settled_found _ text).ite <|
    (settled_found _ text).ite (settled_failed ..)

theorem settled_readBehind (w : List Char) : Settled w (readBehind w) := by
  refine (settled_found _ w).ite <| (settled_readIs w).ite <| (settled_readNot w).ite ?_
  split
  · exact settled_found _ w
  · exact settled_found _ w

theorem readWord_of_found {cs text r r' : List Char} {t : Token}
    (h : readWord cs = .found t text r) (hr : GoesOnLike r r') :
    readWord (text ++ r') = .found t text r' := by
  have hwhole := splitPath_splitPath cs
  have hstop := stopsAt_splitPath cs
  unfold readWord at h
  generalize splitPath cs = s at hwhole hstop h
  obtain ⟨w, rest⟩ := s
  dsimp only at hwhole hstop h
  split at h
  · cases h
  rename_i hpoint
  obtain ⟨more, rfl, rfl, hread⟩ := settled_readBehind w h hr
  have hpath : StopsAt isPathChar (more ++ r) := by
    intro d hd
    obtain ⟨tail, htail⟩ := List.head?_eq_some_iff.mp hd
    rw [isPathChar, hstop d hd, Bool.false_or]
    exact beq_false_of_ne fun he => hpoint tail (he ▸ htail)
  have hpath' := hpath.of_goesOnLike (fun c => isPathChar_of_closes) (hr.append_left more)
  rw [List.append_assoc, readWord_of_stopsAt hwhole hpath', hread]

/-! ### Tokens -/

/-- **A token is read up to its end, whatever follows, if what follows goes on like what followed.** -/
theorem readToken_of_goesOnLike {text r r' : List Char} {t : Token}
    (h : readToken (text ++ r) = .found t text r) (ht : t ≠ .endOfText) (hr : GoesOnLike r r') :
    readToken (text ++ r') = .found t text r' := by
  obtain ⟨c, w, rfl⟩ : ∃ c w, text = c :: w := by
    have hne := readToken_ne_nil (congrArg Reading.outcome h) ht
    rw [h] at hne
    exact List.exists_cons_of_ne_nil hne
  unfold readToken at h
  split at h
  case h_1 text t' hs =>
    cases Except.ok.inj (congrArg Reading.outcome h)
    cases (congrArg Reading.text h : text = c :: w)
    unfold readToken
    rw [symbol?_of_goesOnLike hs hr]
    simp
  case h_2 hs =>
    dsimp only [List.cons_append] at h
    unfold readOther at h
    split_ifs at h with hlone hquote hnumber hstart
    · cases h
    · subst hquote
      obtain ⟨_, hw, hread⟩ := readString_of_found h r'
      cases hw
      exact hread
    · exact readNumber_of_found (by simpa using hnumber) h hr
    · exact (readToken_of_isWordStart hstart _).trans (readWord_of_found h hr)
    · cases h

/-- The text of a token alone is read as the token. -/
theorem readToken_alone {text r : List Char} {t : Token}
    (h : readToken (text ++ r) = .found t text r) (ht : t ≠ .endOfText) :
    readToken text = .found t text [] := by
  have hr := readToken_of_goesOnLike h ht (goesOnLike_nil r)
  rwa [List.append_nil] at hr

end RecordFilter

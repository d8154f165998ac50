/-!
# Splitting at a character

`splitAt sep` cuts a text at every separator, so that `n` separators give `n + 1` pieces.  No piece has
a separator in it, and putting the separators back gives the text again.  A text begins with all the pieces of another just if the other is a beginning of
it that ends with the text or in front of a separator (`splitAt_eq_append_iff`).
-/

namespace RecordFilter.Text

/-- Puts a character in front of the first piece. -/
def pushFirst (c : Char) : List (List Char) → List (List Char)
  | [] => [[c]]
  | p :: ps => (c :: p) :: ps

/-- The pieces between the separators. -/
def splitAt (sep : Char) : List Char → List (List Char)
  | [] => [[]]
  | c :: cs => if c = sep then [] :: splitAt sep cs else pushFirst c (splitAt sep cs)

theorem splitAt_ne_nil (sep : Char) (cs : List Char) : splitAt sep cs ≠ [] := by
  cases cs with
  | nil => simp [splitAt]
  | cons c cs =>
    rw [splitAt]
    split
    · simp
    · cases splitAt sep cs <;> simp [pushFirst]

/-- The pieces with the separators between them are the text. -/
theorem intercalate_splitAt (sep : Char) (cs : List Char) :
    List.intercalate [sep] (splitAt sep cs) = cs := by
  induction cs with
  | nil => rfl
  | cons c cs ih =>
    cases h : splitAt sep cs with
    | nil => exact absurd h (splitAt_ne_nil sep cs)
    | cons p ps =>
      rw [h] at ih
      by_cases hc : c = sep
      · simp only [splitAt, h, if_pos hc, List.intercalate_cons_cons, List.nil_append]
        rw [ih, hc]
        rfl
      · simp only [splitAt, h, if_neg hc, pushFirst]
        cases ps with
        | nil => simpa [List.intercalate] using ih
        | cons q qs =>
          simp only [List.intercalate_cons_cons, List.cons_append] at ih ⊢
          rw [ih]

theorem splitAt_of_not_mem {sep : Char} {cs : List Char} (h : sep ∉ cs) : splitAt sep cs = [cs] := by
  induction cs with
  | nil => rfl
  | cons c cs ih =>
    rw [List.mem_cons, not_or] at h
    rw [splitAt, if_neg (Ne.symm h.1), ih h.2, pushFirst]

theorem pushFirst_append (c : Char) {ps : List (List Char)} (h : ps ≠ []) (qs : List (List Char)) :
    pushFirst c (ps ++ qs) = pushFirst c ps ++ qs := by
  obtain ⟨p, ps, rfl⟩ := List.exists_cons_of_ne_nil h
  rfl

/-- A separator divides the pieces into those before it and those behind it. -/
theorem splitAt_append_sep (sep : Char) (cs ds : List Char) :
    splitAt sep (cs ++ sep :: ds) = splitAt sep cs ++ splitAt sep ds := by
  induction cs with
  | nil => rw [List.nil_append, splitAt, splitAt, if_pos rfl, List.singleton_append]
  | cons c cs ih =>
    rw [List.cons_append, splitAt, splitAt, ih]
    split
    · rfl
    · exact pushFirst_append c (splitAt_ne_nil sep cs) _

/-- The first separator ends the first piece. -/
theorem splitAt_append_cons {sep : Char} {cs : List Char} (h : sep ∉ cs) (ds : List Char) :
    splitAt sep (cs ++ sep :: ds) = cs :: splitAt sep ds := by
  rw [splitAt_append_sep, splitAt_of_not_mem h, List.singleton_append]

/-- No piece has a separator in it. -/
theorem not_mem_of_mem_splitAt {sep : Char} {cs p : List Char} (h : p ∈ splitAt sep cs) :
    sep ∉ p := by
  induction cs generalizing p with
  | nil =>
    rw [splitAt, List.mem_singleton] at h
    simp [h]
  | cons c cs ih =>
    rw [splitAt] at h
    split at h
    · rcases List.mem_cons.1 h with rfl | h
      · simp
      · exact ih h
    · rename_i hc
      cases hs : splitAt sep cs with
      | nil => exact absurd hs (splitAt_ne_nil sep cs)
      | cons q qs =>
        rw [hs] at h ih
        rcases List.mem_cons.1 h with rfl | h
        · exact fun hm => (List.mem_cons.1 hm).elim (fun e => hc e.symm) (ih List.mem_cons_self)
        · exact ih (List.mem_cons_of_mem _ h)

theorem splitAt_intercalate {sep : Char} {ps : List (List Char)} (hne : ps ≠ [])
    (h : ∀ p ∈ ps, sep ∉ p) : splitAt sep (List.intercalate [sep] ps) = ps := by
  induction ps with
  | nil => exact absurd rfl hne
  | cons p ps ih =>
    have hp := h p List.mem_cons_self
    cases ps with
    | nil => rw [List.intercalate_singleton, splitAt_of_not_mem hp]
    | cons q qs =>
      rw [List.intercalate_cons_cons, List.append_assoc, List.singleton_append,
        splitAt_append_cons hp, ih (List.cons_ne_nil q qs) fun r hr => h r (List.mem_cons_of_mem p hr)]

theorem splitAt_inj {sep : Char} {cs ds : List Char} (h : splitAt sep cs = splitAt sep ds) :
    cs = ds := by
  rw [← intercalate_splitAt sep cs, h, intercalate_splitAt]

/-- All pieces of a text are the first ones of another just if the other is the text, or goes on from it
with a separator; then the further pieces are those behind the separator. -/
theorem splitAt_eq_append_iff {sep : Char} {cs ds : List Char} {ps : List (List Char)} :
    splitAt sep cs = splitAt sep ds ++ ps ↔
      (cs = ds ∧ ps = []) ∨ ∃ rest, cs = ds ++ sep :: rest ∧ ps = splitAt sep rest := by
  constructor
  · intro h
    by_cases hps : ps = []
    · subst hps
      rw [List.append_nil] at h
      exact Or.inl ⟨splitAt_inj h, rfl⟩
    · -- what is behind the separator is written from its pieces; the whole then has the pieces of `cs`
      have hbehind : splitAt sep (List.intercalate [sep] ps) = ps :=
        splitAt_intercalate hps fun p hp => not_mem_of_mem_splitAt (h ▸ List.mem_append_right _ hp)
      have hwhole : splitAt sep cs = splitAt sep (ds ++ sep :: List.intercalate [sep] ps) := by
        rw [splitAt_append_sep, hbehind, h]
      exact Or.inr ⟨_, splitAt_inj hwhole, hbehind.symm⟩
  · rintro (⟨rfl, rfl⟩ | ⟨rest, rfl, rfl⟩)
    · exact (List.append_nil _).symm
    · exact splitAt_append_sep sep ds rest

/-- The pieces between the separators, as strings. -/
def pieces (sep : Char) (s : String) : List String := (splitAt sep s.toList).map String.ofList

theorem map_toList_pieces (sep : Char) (s : String) :
    (pieces sep s).map String.toList = splitAt sep s.toList := by
  simp [pieces, Function.comp_def]

theorem pieces_eq_append_iff {sep : Char} {s t : String} {ps : List String} :
    pieces sep s = pieces sep t ++ ps ↔ (s = t ∧ ps = []) ∨
      ∃ rest, s = t ++ String.singleton sep ++ rest ∧ ps = pieces sep rest := by
  constructor
  · intro h
    have hsplit := congrArg (List.map String.toList) h
    rw [List.map_append, map_toList_pieces, map_toList_pieces, splitAt_eq_append_iff] at hsplit
    rcases hsplit with ⟨hst, hps⟩ | ⟨rest, hst, hps⟩
    · exact Or.inl ⟨String.toList_inj.mp hst, List.map_eq_nil_iff.mp hps⟩
    · refine Or.inr ⟨String.ofList rest, ?_, ?_⟩
      · rw [← String.toList_inj, hst]
        simp
      · rw [pieces, String.toList_ofList, ← hps]
        simp [Function.comp_def]
  · rintro (⟨rfl, rfl⟩ | ⟨rest, rfl, rfl⟩)
    · exact (List.append_nil _).symm
    · simp [pieces, splitAt_append_sep]

end RecordFilter.Text

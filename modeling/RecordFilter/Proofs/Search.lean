import RecordFilter.Proofs.OnePredicate

/-!
# Searching texts

`contains` and `starts` put their literal, in capitals, into a pattern.  The percent signs and underscores
of the literal itself are then wildcards as well, so what is looked for is any text that the literal stands
for (`StandsFor`), and for a literal with neither it is the literal itself.

A pattern that begins or ends with a percent sign of its own is looked for anywhere or at the start of the
text (`standsFor_likePattern`).  No capital is a wildcard unless the character was one before
(`Text.isWildcard_of_mem_upper`).  So the searches decide as `search_answer` says.
-/

namespace RecordFilter

/-! ### Capitals -/

namespace Text

/-- A code point from `A` to `Z` or beyond ASCII is no wildcard. -/
theorem isWildcard_ofNat {n : Nat} (h : 128 ≤ n ∨ 65 ≤ n ∧ n ≤ 90) :
    isWildcard (Char.ofNat n) = false := by
  have hcode : (Char.ofNat n).toNat ≠ 37 ∧ (Char.ofNat n).toNat ≠ 95 := by
    by_cases hn : n.isValidChar
    · rw [show Char.ofNat n = Char.ofNatAux n hn from dif_pos hn]
      show n ≠ 37 ∧ n ≠ 95
      omega
    · -- a number that is no code point gives the null character, which is no wildcard either
      rw [show Char.ofNat n = '\x00' from dif_neg hn]
      decide
  have hne : Char.ofNat n ≠ '%' ∧ Char.ofNat n ≠ '_' :=
    ⟨fun he => hcode.1 (congrArg Char.toNat he), fun he => hcode.2 (congrArg Char.toNat he)⟩
  simp [isWildcard, hne]

/-- The rows of the table lead to capitals of ASCII or beyond it, from their first to their last. -/
theorem capitalRows_codes : ∀ row ∈ capitalRows, 128 ≤ row.1 + row.2.2.2 ∨
    65 ≤ row.1 + row.2.2.2 ∧ row.2.1 + row.2.2.2 ≤ 90 := by
  decide +kernel

theorem longCapitals_codes : ∀ row ∈ longCapitals, ∀ n ∈ row.2, 128 ≤ n ∨ 65 ≤ n ∧ n ≤ 90 := by
  decide +kernel

theorem caseOf?_capitalRows {code n : Nat} (h : caseOf? capitalRows code = some n) :
    128 ≤ n ∨ 65 ≤ n ∧ n ≤ 90 := by
  obtain ⟨⟨first, last, step, shift⟩, hfind, rfl⟩ := Option.map_eq_some_iff.mp h
  have hcodes := capitalRows_codes _ (List.mem_of_find?_eq_some hfind)
  have hin := List.find?_some hfind
  dsimp only at hcodes hin ⊢
  simp only [Bool.and_eq_true, decide_eq_true_eq] at hin
  omega

theorem isWildcard_toUpper :
    ∀ n < 128, isWildcard (Char.ofNat n).toUpper = isWildcard (Char.ofNat n) := by
  decide

theorem isWildcard_of_mem_upperChar {c d : Char} (h : d ∈ upperChar c) (hc : isWildcard c = false) :
    isWildcard d = false := by
  unfold upperChar at h
  split at h
  · rename_i hascii
    have heq := isWildcard_toUpper c.toNat hascii
    rw [Char.ofNat_toNat, hc] at heq
    rwa [List.mem_singleton.mp h]
  · split at h
    · rename_i codes hcodes
      obtain ⟨n, hn, rfl⟩ := List.mem_map.mp h
      obtain ⟨before, after, hsplit, -⟩ := List.lookup_eq_some_iff.mp hcodes
      have hrow : (c.toNat, codes) ∈ longCapitals := by simp [hsplit]
      exact isWildcard_ofNat (longCapitals_codes _ hrow n hn)
    · rename_i code _ hcode
      rw [List.mem_singleton.mp h]
      exact isWildcard_ofNat (caseOf?_capitalRows hcode)
    · rwa [List.mem_singleton.mp h]

/-- A text without wildcards has none in capitals either. -/
theorem isWildcard_of_mem_upper {s : String} (h : ∀ c ∈ s.toList, isWildcard c = false) :
    ∀ d ∈ (upper s).toList, isWildcard d = false := by
  intro d hd
  rw [toList_upper] at hd
  obtain ⟨c, hc, hd⟩ := List.mem_flatMap.mp hd
  exact isWildcard_of_mem_upperChar hd (h c hc)

end Text

/-! ### Placements -/

/-- Where a part of a text has to be. -/
def Placement.Holds (placement : Placement) (part text : List Char) : Prop :=
  match placement with
  | .anywhere => part <:+: text
  | .atStart => part <+: text

/-- **The pattern of a literal** stands for the texts that have, at the place, a part that the literal
stands for. -/
theorem standsFor_likePattern (placement : Placement) (literal : String) (text : List Char) :
    StandsFor (Compiler.likePattern placement literal).toList text ↔
      ∃ part, placement.Holds part text ∧ StandsFor literal.toList part := by
  cases placement with
  | anywhere =>
    have hp : (Compiler.likePattern .anywhere literal).toList = ['%'] ++ (literal.toList ++ ['%']) := by
      simp [Compiler.likePattern]
    rw [hp, standsFor_append]
    constructor
    · rintro ⟨l, r, rfl, -, hr⟩
      obtain ⟨part, r, rfl, hpart, -⟩ := standsFor_append.mp hr
      exact ⟨part, ⟨l, r, by simp⟩, hpart⟩
    · rintro ⟨part, ⟨l, r, rfl⟩, hpart⟩
      have hr : StandsFor (literal.toList ++ ['%']) (part ++ r) :=
        standsFor_append.mpr ⟨part, r, rfl, hpart, standsFor_percent r⟩
      exact ⟨l, part ++ r, by simp, standsFor_percent l, hr⟩
  | atStart =>
    have hp : (Compiler.likePattern .atStart literal).toList = literal.toList ++ ['%'] := by
      simp [Compiler.likePattern]
    rw [hp, standsFor_append]
    constructor
    · rintro ⟨part, r, rfl, hpart, -⟩
      exact ⟨part, ⟨r, rfl⟩, hpart⟩
    · rintro ⟨part, ⟨r, rfl⟩, hpart⟩
      exact ⟨part, r, rfl, hpart, standsFor_percent r⟩

/-- A search without wildcards is one for the literal. -/
theorem exists_standsFor_iff {placement : Placement} {literal text : List Char}
    (h : ∀ c ∈ literal, isWildcard c = false) :
    (∃ part, placement.Holds part text ∧ StandsFor literal part) ↔ placement.Holds literal text := by
  constructor
  · rintro ⟨part, hpart, hstands⟩
    cases (standsFor_iff_eq h).mp hstands
    exact hpart
  · exact fun hpart => ⟨literal, hpart, (standsFor_iff_eq h).mpr rfl⟩

/-- How a usable pattern decides on a single text. -/
theorem likePasses_string {pattern : String} (hp : (LikePattern.ofText? pattern).isSome) (negated : Bool)
    (t : String) :
    likePasses (LikePattern.ofText? pattern) negated [.string t] = !negated ↔
      StandsFor pattern.toList (Text.upper t).toList := by
  obtain ⟨p, hp⟩ := Option.isSome_iff_exists.mp hp
  have hpass : likePasses (some p) negated [.string t] =
      (RegexLibrary.isMatch p (Text.upper t) != negated) := Bool.or_false _
  rw [hp, hpass, ← LikePattern.isMatch_iff_standsFor RegexProgram.documented hp]
  cases RegexLibrary.isMatch p (Text.upper t) <;> cases negated <;> decide

/-! ### Filters that search -/

/-- The text is a single search for the literal in the field at the end of the path. -/
def IsSearch (text path : String) (placement : Placement) (negated : Bool) (literal : String) : Prop :=
  ∃ position, parse text = .ok (.one (.predicate ⟨path, .like placement negated, [.string literal],
    position⟩))

/-- Every literal can be searched for. -/
theorem isSearch_render {path : String} (hpath : PathText path) (placement : Placement) (negated : Bool)
    (literal : String) :
    IsSearch (Predicate.render ⟨path, .like placement negated, [.string literal], .start⟩) path placement
      negated literal := by
  let p : Predicate := ⟨path, .like placement negated, [.string literal], .start⟩
  have hp : p.WellFormed := by
    refine ⟨hpath, ⟨literal, rfl⟩, fun x hx => ?_⟩
    cases List.mem_singleton.mp hx
    trivial
  exact writes_render hp

/-- A search in a field that exists compiles to a test of what the path reaches. -/
theorem IsSearch.compile {c : Compiler} {s : Schema} {root text path literal : String}
    {placement : Placement} {negated : Bool} {type : FieldType} {cache : FieldCache}
    (h : IsSearch text path placement negated literal) (hc : cache.Coherent s)
    (hn : "" ∉ Text.pieces '.' (c.mapPath path))
    (htype : s.typeAlong? root (Text.pieces '.' (c.mapPath path)) = some type)
    (old : List JoinRecord) :
    ∃ f : FieldRef, f.path ++ [f.name] = Text.pieces '.' (c.mapPath path) ∧
      (c.compile (Condition.backend s root) old cache text).result =
        .ok (.like f (Compiler.likePattern placement (Text.upper literal)) negated) := by
  have hwrites : Writes text path (.like placement negated) [.string literal] := h
  obtain ⟨r, position, -, hfield, hresult⟩ := hwrites.exists_field hc hn htype old
  refine ⟨r.field, hfield, ?_⟩
  rw [hresult]
  rfl

/-- **Searches.**  A search in a field that exists can be compiled.  If the path reaches a single text in
a record and the pattern of the search is usable, then the record passes, or does not if the search is
negated, if and only if there is a part of the text at the right place that the literal stands for, both in
capitals; for a literal without wildcards this part is the literal itself. -/
theorem search_answer {c : Compiler} {s : Schema} {root text path literal : String}
    {placement : Placement} {negated : Bool} {type : FieldType} {cache : FieldCache}
    (h : IsSearch text path placement negated literal) (hc : cache.Coherent s)
    (hn : "" ∉ Text.pieces '.' (c.mapPath path))
    (htype : s.typeAlong? root (Text.pieces '.' (c.mapPath path)) = some type)
    (old : List JoinRecord) :
    ∃ cond, (c.compile (Condition.backend s root) old cache text).result = .ok cond ∧
      ∀ (record : Json) (t : String) (e : Evaluator), e.Faithful →
        valuesAt (Text.pieces '.' (c.mapPath path)) record = [.string t] →
        (LikePattern.ofText? (Compiler.likePattern placement (Text.upper literal))).isSome →
        let passed := ((Evaluator.holds record cond).run e).1
        (passed = !negated ↔ ∃ part, placement.Holds part (Text.upper t).toList ∧
            StandsFor (Text.upper literal).toList part) ∧
          ((∀ x ∈ literal.toList, isWildcard x = false) →
            (passed = !negated ↔
              placement.Holds (Text.upper literal).toList (Text.upper t).toList)) := by
  obtain ⟨f, hf, hcond⟩ := h.compile hc hn htype old
  refine ⟨_, hcond, fun record t e he hvalues hpattern => ?_⟩
  have hreach : f.reach record = [.string t] := (FieldRef.reach_of_pieces hf record).trans hvalues
  dsimp only
  rw [(Evaluator.holds_spec record _ he).1, Condition.holds, hreach, likePasses_string hpattern,
    standsFor_likePattern]
  exact ⟨Iff.rfl, fun hplain => exists_standsFor_iff (Text.isWildcard_of_mem_upper hplain)⟩

/-- The `ß` of a street is two letters in capitals, and so the name of the street contains the literal. -/
theorem search_answer_street :
    let text := "name not contains 'asse'"
    let record := Json.object [("name", .string "Straße")]
    (∀ x ∈ "asse".toList, isWildcard x = false) ∧
      (LikePattern.ofText? (Compiler.likePattern .anywhere (Text.upper "asse"))).isSome ∧
      ∃ cond, (Compiler.standard.compile (Condition.backend library "Author") [] .empty text).result =
          .ok cond ∧
        ((Evaluator.holds record cond).run .new).1 = false := by
  intro text record
  have hpath : PathText "name" := ⟨by decide, by decide, by decide⟩
  have hsearch := isSearch_render hpath .anywhere true "asse"
  have htext : Predicate.render ⟨"name", .like .anywhere true, [.string "asse"], .start⟩ = text := by
    decide +kernel
  rw [htext] at hsearch
  have hplain : ∀ x ∈ "asse".toList, isWildcard x = false := by simp [isWildcard]
  have hpattern : (LikePattern.ofText? (Compiler.likePattern .anywhere (Text.upper "asse"))).isSome := by
    decide
  have hpart : (Text.upper "asse").toList <:+: (Text.upper "Straße").toList :=
    ⟨['S', 'T', 'R'], [], by decide +kernel⟩
  have hnamed : "" ∉ Text.pieces '.' (Compiler.standard.mapPath "name") := by decide
  have htype : library.typeAlong? "Author" (Text.pieces '.' (Compiler.standard.mapPath "name")) =
      some .text := by
    decide
  obtain ⟨cond, hcond, hanswer⟩ := search_answer hsearch (FieldCache.empty_coherent library) hnamed
    htype []
  have hpassed := ((hanswer record "Straße" .new Evaluator.faithful_new rfl hpattern).2 hplain).mpr hpart
  exact ⟨hplain, hpattern, cond, hcond, hpassed⟩

/-- An underscore is not looked for as such: a name without one passes. -/
theorem search_underscore :
    let text := "name contains '_'"
    let record := Json.object [("name", .string "A")]
    IsSearch text "name" .anywhere false "_" ∧ valuesAt ["name"] record = [.string "A"] ∧
      (LikePattern.ofText? (Compiler.likePattern .anywhere (Text.upper "_"))).isSome ∧
      ¬ (Text.upper "_").toList <:+: (Text.upper "A").toList ∧
      ∃ cond, (Compiler.standard.compile (Condition.backend library "Author") [] .empty text).result =
          .ok cond ∧
        ((Evaluator.holds record cond).run .new).1 = true := by
  intro text record
  have hsearch : IsSearch text "name" .anywhere false "_" := ⟨⟨1, 1⟩, by decide +kernel⟩
  have hcond : (Compiler.standard.compile (Condition.backend library "Author") [] .empty text).result =
      .ok (.like ⟨[], "name", none⟩ "%_%" false) := by
    decide +kernel
  exact ⟨hsearch, rfl, by decide, by decide, _, hcond, by decide⟩

end RecordFilter

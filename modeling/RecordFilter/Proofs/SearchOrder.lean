import RecordFilter.Proofs.OperatorLaws
import RecordFilter.Proofs.Search

/-!
# Searches that imply others

Whoever looks for more finds less.  A record that passes a search for a literal passes the search for every
part of it, and the search at the start of a text for every beginning of it; a record that reaches a text
with the literal in it passes the search for the literal (`search_mono`).

The percent signs and underscores of the literals are wildcards, so a match of the longer literal has to be
cut: what a row of patterns stands for is a row of what they stand for (`exists_part_of_standsFor`), and this
is also what capitals do to a row of texts (`Placement.Holds.flatMap`).  For both places of a search the three
steps are the same, as a part is followed by anything and, unless it stands at the start, preceded by
anything (`Placement.holds_iff`).
-/

namespace RecordFilter

/-! ### Parts of texts -/

namespace Placement

/-- A part with what is before it, which is nothing at the start, and with what is behind it. -/
theorem holds_iff {placement : Placement} {part text : List Char} :
    placement.Holds part text ↔
      ∃ l r, text = l ++ (part ++ r) ∧ (placement = .atStart → l = []) := by
  cases placement with
  | anywhere =>
    constructor
    · rintro ⟨l, r, rfl⟩
      exact ⟨l, r, List.append_assoc l part r, nofun⟩
    · rintro ⟨l, r, rfl, -⟩
      exact ⟨l, r, List.append_assoc l part r⟩
  | atStart =>
    constructor
    · rintro ⟨r, rfl⟩
      exact ⟨[], r, rfl, fun _ => rfl⟩
    · rintro ⟨l, r, rfl, hl⟩
      rw [hl rfl]
      exact ⟨r, rfl⟩

/-- A part of a part is a part, at the start if both are. -/
theorem Holds.trans {p q : Placement} {a b c : List Char} (hab : q.Holds a b) (hbc : p.Holds b c)
    (hpq : q = .atStart → p = .atStart) : q.Holds a c := by
  obtain ⟨l, r, rfl, hl⟩ := holds_iff.mp hab
  obtain ⟨l', r', rfl, hl'⟩ := holds_iff.mp hbc
  refine holds_iff.mpr ⟨l' ++ l, r ++ r', by simp only [List.append_assoc], fun hq => ?_⟩
  rw [hl hq, hl' (hpq hq), List.append_nil]

/-- What is done character by character is done to parts. -/
theorem Holds.flatMap {placement : Placement} {part text : List Char} (h : placement.Holds part text)
    (f : Char → List Char) : placement.Holds (part.flatMap f) (text.flatMap f) := by
  obtain ⟨l, r, rfl, hl⟩ := holds_iff.mp h
  refine holds_iff.mpr ⟨l.flatMap f, r.flatMap f, ?_, fun hp => ?_⟩
  · rw [List.flatMap_append, List.flatMap_append]
  · rw [hl hp, List.flatMap_nil]

/-- Capitals keep parts. -/
theorem Holds.upper {placement : Placement} {part text : String}
    (h : placement.Holds part.toList text.toList) :
    placement.Holds (Text.upper part).toList (Text.upper text).toList := by
  rw [Text.toList_upper, Text.toList_upper]
  exact h.flatMap Text.upperChar

end Placement

/-! ### Parts of patterns -/

/-- **A part of a pattern** stands for a part of what the pattern stands for, at the same place. -/
theorem exists_part_of_standsFor {placement : Placement} {part pattern text : List Char}
    (h : placement.Holds part pattern) (hs : StandsFor pattern text) :
    ∃ piece, placement.Holds piece text ∧ StandsFor part piece := by
  obtain ⟨l, r, rfl, hl⟩ := Placement.holds_iff.mp h
  obtain ⟨before, rest, rfl, hbefore, hrest⟩ := standsFor_append.mp hs
  obtain ⟨piece, behind, rfl, hpiece, -⟩ := standsFor_append.mp hrest
  refine ⟨piece, Placement.holds_iff.mpr ⟨before, behind, rfl, fun hp => ?_⟩, hpiece⟩
  rw [hl hp] at hbefore
  cases hbefore
  rfl

/-- Every pattern stands for itself, its wildcards for a percent sign and an underscore. -/
theorem standsFor_self (p : List Char) : StandsFor p p := by
  induction p with
  | nil => exact .done
  | cons c p ih =>
    by_cases hrun : c = '%'
    · subst hrun
      exact .run ['%'] ih
    by_cases hone : c = '_'
    · subst hone
      exact .one '_' ih
    have hc : isWildcard c = false := by simp [isWildcard, hrun, hone]
    exact .same hc ih

/-! ### Searches -/

/-- The pattern of a search for the literal is usable. -/
def Searchable (placement : Placement) (literal : String) : Prop :=
  (LikePattern.ofText? (Compiler.likePattern placement (Text.upper literal))).isSome

/-- A search for the literal in the field at the end of the path. -/
def searches (path : String) (placement : Placement) (literal : String) : Clause :=
  onField path (.like placement false) [.string literal]

/-- The value has a text with, at the place and in capitals, a part that the literal stands for. -/
def Found (placement : Placement) (literal : String) (j : Json) : Prop :=
  ∃ text, j.likeText? = some text ∧ ∃ piece, placement.Holds piece (Text.upper text).toList ∧
    StandsFor (Text.upper literal).toList piece

/-- A part of what is found is found, at the start if it is the start of what is found there. -/
theorem Found.part {p q : Placement} {part whole : String} {j : Json} (h : Found p whole j)
    (hpart : q.Holds part.toList whole.toList) (hpq : q = .atStart → p = .atStart) : Found q part j := by
  obtain ⟨text, htext, piece, hpiece, hstands⟩ := h
  obtain ⟨smaller, hsmaller, hstands'⟩ := exists_part_of_standsFor hpart.upper hstands
  exact ⟨text, htext, smaller, hsmaller.trans hpiece hpq, hstands'⟩

/-- A literal that is a part of the text is found. -/
theorem found_of_holds {placement : Placement} {literal text : String} {j : Json}
    (htext : j.likeText? = some text) (h : placement.Holds literal.toList text.toList) :
    Found placement literal j :=
  ⟨text, htext, (Text.upper literal).toList, h.upper, standsFor_self _⟩

/-- **What a search says of the values that are reached**: one of them has the literal. -/
theorem likeVerdict_iff {placement : Placement} {literal : String} {reached : List Json} :
    likeVerdict (Compiler.likePattern placement (Text.upper literal)) false reached = true ↔
      Searchable placement literal ∧ ∃ j ∈ reached, Found placement literal j := by
  unfold likeVerdict Searchable Found
  simp only [← standsFor_likePattern, Bool.and_eq_true, List.any_eq_true]
  refine and_congr_right fun _ => exists_congr fun j => and_congr_right fun _ => ?_
  cases j.likeText? with
  | none => simp
  | some text => simp [fits_iff_standsFor]

section laws

variable {registry : Registry} {s : Schema} {root path : String} {record : Json}

theorem clauseVerdict?_searches (placement : Placement) (literal : String) :
    Group.clauseVerdict? registry s root record (searches path placement literal) =
      (s.typeAlong? root (Text.pieces '.' path)).map fun _ =>
        likeVerdict (Compiler.likePattern placement (Text.upper literal)) false
          (valuesAt (Text.pieces '.' path) record) := by
  show Predicate.verdict? registry s root record
    ⟨path, .like placement false, [.string literal], .start⟩ = _
  unfold Predicate.verdict?
  dsimp only
  cases s.typeAlong? root (Text.pieces '.' path) <;> rfl

/-- **One search implies another one** if it looks for a literal of which the other looks for a part, at the
start only if it does so itself. -/
theorem answersRelate_searches {p q : Placement} {part whole : String}
    (hpart : q.Holds part.toList whole.toList) (hpq : q = .atStart → p = .atStart)
    (hsearchable : Searchable q part) :
    AnswersRelate registry s root record (fun b b' => b = true → b' = true)
      (.one (searches path p whole)) (.one (searches path q part)) := by
  apply answersRelate_of_verdicts
  rw [Group.verdict?, Group.verdict?, clauseVerdict?_searches, clauseVerdict?_searches]
  cases s.typeAlong? root (Text.pieces '.' path) with
  | none => exact .none
  | some t =>
    refine .some fun h => ?_
    obtain ⟨-, j, hj, hfound⟩ := likeVerdict_iff.mp h
    exact likeVerdict_iff.mpr ⟨hsearchable, j, hj, hfound.part hpart hpq⟩

/-- A search for a literal that is in a text that is reached is passed. -/
theorem answer?_searches {placement : Placement} {literal text : String} {j : Json}
    (hfield : (s.typeAlong? root (Text.pieces '.' path)).isSome)
    (hsearchable : Searchable placement literal) (hj : j ∈ valuesAt (Text.pieces '.' path) record)
    (htext : j.likeText? = some text) (h : placement.Holds literal.toList text.toList) {a : String}
    (ha : Reads a (.one (searches path placement literal))) (k : Circumstances s) :
    answer? registry root k a record = some true := by
  obtain ⟨t, ht⟩ := Option.isSome_iff_exists.mp hfield
  have hverdict := likeVerdict_iff.mpr ⟨hsearchable, j, hj, found_of_holds htext h⟩
  rw [answer?_of_reads ha k, Group.verdict?, clauseVerdict?_searches, ht, Option.map_some, hverdict]

end laws

/-- **Searches are monotone in what they look for**, whatever wildcards the literals have.  If a literal is a
part of another one, then a record that passes the search for the whole, anywhere or at the start, passes the
search for the part anywhere; if it is a beginning of the other one, then a record that passes the search for
the whole at the start passes the search for the part at the start.  A record that reaches a text with the
literal in it, or at its start, passes the search for the literal.  In each case the pattern of the search
that is passed has to be usable. -/
theorem search_mono (registry : Registry) {s : Schema} (root path : String) (record : Json)
    (part : String) :
    (∀ whole : String, part.toList <:+: whole.toList → Searchable .anywhere part → ∀ p : Placement,
      AnswersRelate registry s root record (fun b b' => b = true → b' = true)
        (.one (searches path p whole)) (.one (searches path .anywhere part))) ∧
    (∀ whole : String, part.toList <+: whole.toList → Searchable .atStart part →
      AnswersRelate registry s root record (fun b b' => b = true → b' = true)
        (.one (searches path .atStart whole)) (.one (searches path .atStart part))) ∧
    ∀ placement : Placement, Searchable placement part →
      (s.typeAlong? root (Text.pieces '.' path)).isSome →
      ∀ j ∈ valuesAt (Text.pieces '.' path) record, ∀ text, j.likeText? = some text →
        placement.Holds part.toList text.toList → ∀ (a : String) (k : Circumstances s),
          Reads a (.one (searches path placement part)) → answer? registry root k a record = some true := by
  refine ⟨fun whole hpart hs p => ?_, fun whole hpart hs => ?_, ?_⟩
  · exact answersRelate_searches (q := .anywhere) hpart nofun hs
  · exact answersRelate_searches (q := .atStart) hpart (fun _ => rfl) hs
  · intro placement hs hfield j hj text htext h a k ha
    exact answer?_searches hfield hs hj htext h ha k

/-- Two of the literals have wildcards of their own, and the `ß` of another one is two capitals. -/
theorem search_mono_street :
    let record := Json.object [("name", .string "Hauptstraße 10")]
    let answer := fun text => answer? .builtIn "Author" (.fresh library) text record
    let implies := Option.Rel fun b b' : Bool => b = true → b' = true
    answer "name starts 'haupt%e_1'" = some true ∧
      implies (answer "name starts 'haupt%e_1'") (answer "name contains 't%e_'") ∧
      implies (answer "name starts 'haupt%e_1'") (answer "name starts 'haupt%'") ∧
      answer "name contains 'aße'" = some true := by
  intro record answer implies
  have searchable : Searchable .anywhere "t%e_" ∧ Searchable .atStart "haupt%" ∧
      Searchable .anywhere "aße" := by
    unfold Searchable
    decide
  obtain ⟨hinside, hstart, hname⟩ := searchable
  have hwhole : Reads "name starts 'haupt%e_1'" (.one (searches "name" .atStart "haupt%e_1")) := by decide +kernel
  have hpart : Reads "name contains 't%e_'" (.one (searches "name" .anywhere "t%e_")) := by decide +kernel
  have hbeginning : Reads "name starts 'haupt%'" (.one (searches "name" .atStart "haupt%")) := by decide +kernel
  have hreached : Reads "name contains 'aße'" (.one (searches "name" .anywhere "aße")) := by decide +kernel
  have hpassed : answer "name starts 'haupt%e_1'" = some true := by
    subst answer record
    decide +kernel
  obtain ⟨hparts, -, -⟩ := search_mono .builtIn (s := library) "Author" "name" record "t%e_"
  obtain ⟨-, hbeginnings, -⟩ := search_mono .builtIn (s := library) "Author" "name" record "haupt%"
  obtain ⟨-, -, hfound⟩ := search_mono .builtIn (s := library) "Author" "name" record "aße"
  have hpiece : Placement.anywhere.Holds "aße".toList "Hauptstraße 10".toList :=
    ⟨"Hauptstr".toList, " 10".toList, by decide⟩
  refine ⟨hpassed, ?_, ?_, ?_⟩
  · exact hparts "haupt%e_1" (by decide) hinside .atStart _ _ (.fresh _) (.fresh _) hwhole hpart
  · exact hbeginnings "haupt%e_1" (by decide) hstart _ _ (.fresh _) (.fresh _) hwhole hbeginning
  · exact hfound .anywhere hname (by decide) (.string "Hauptstraße 10") List.mem_cons_self _ rfl hpiece
      _ (.fresh _) hreached

end RecordFilter

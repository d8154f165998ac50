import Mathlib.Data.List.Infix
import RecordFilter.Condition.Evaluate
import RecordFilter.Proofs.Regex

/-!
# What patterns match

A pattern stands for the texts that can be cut into what its characters stand for (`StandsFor`).  It is
translated into a regular expression; a library that does what is documented matches by it just these texts
(`LikePattern.isMatch_iff_standsFor`).  The translation holds back a literal until a wildcard or the end comes,
so what is shown of it by induction is for every literal that is pending: the constructs which are still to
be written match that literal and behind it what the rest of the pattern stands for
(`LikeTranslation.exists_parts`).

An evaluator that remembers the right patterns decides the same as `Condition.holds` and remembers the
right patterns afterwards (`Evaluator.holds_spec`).
-/

namespace RecordFilter

/-! ### Wildcards -/

/-- The characters that stand for others in a pattern. -/
def isWildcard (c : Char) : Bool := c == '%' || c == '_'

/-- The text can be cut into what the characters of a pattern stand for. -/
inductive StandsFor : List Char → List Char → Prop
  | done : StandsFor [] []
  | run (part : List Char) {p text : List Char} (rest : StandsFor p text) :
      StandsFor ('%' :: p) (part ++ text)
  | one (c : Char) {p text : List Char} (rest : StandsFor p text) : StandsFor ('_' :: p) (c :: text)
  | same {c : Char} (plain : isWildcard c = false) {p text : List Char} (rest : StandsFor p text) :
      StandsFor (c :: p) (c :: text)

/-- The part of a text that a character of a pattern may take. -/
def Takes (c : Char) (part : List Char) : Prop :=
  if c = '%' then True
  else if c = '_' then ∃ d, part = [d]
  else part = [c]

theorem takes_percent (part : List Char) : Takes '%' part := by
  simp [Takes]

theorem takes_underscore {part : List Char} : Takes '_' part ↔ ∃ d, part = [d] := by
  simp [Takes]

theorem takes_plain {c : Char} (h : isWildcard c = false) {part : List Char} :
    Takes c part ↔ part = [c] := by
  have hc : c ≠ '%' ∧ c ≠ '_' := by simpa [isWildcard] using h
  simp [Takes, hc.1, hc.2]

/-- The first character of a pattern takes a part in front. -/
theorem standsFor_cons {c : Char} {p text : List Char} :
    StandsFor (c :: p) text ↔ ∃ part rest, text = part ++ rest ∧ Takes c part ∧ StandsFor p rest := by
  constructor
  · intro h
    cases h with
    | run part rest => exact ⟨part, _, rfl, takes_percent part, rest⟩
    | one d rest => exact ⟨[d], _, rfl, takes_underscore.mpr ⟨d, rfl⟩, rest⟩
    | same plain rest => exact ⟨[c], _, rfl, (takes_plain plain).mpr rfl, rest⟩
  · rintro ⟨part, rest, rfl, hpart, hrest⟩
    by_cases hrun : c = '%'
    · subst hrun
      exact .run part hrest
    by_cases hone : c = '_'
    · subst hone
      obtain ⟨d, rfl⟩ := takes_underscore.mp hpart
      exact .one d hrest
    have hplain : isWildcard c = false := by simp [isWildcard, hrun, hone]
    rw [takes_plain hplain] at hpart
    subst hpart
    exact .same hplain hrest

/-- A row of patterns stands for a row of texts. -/
theorem standsFor_append {p q text : List Char} :
    StandsFor (p ++ q) text ↔ ∃ l r, text = l ++ r ∧ StandsFor p l ∧ StandsFor q r := by
  constructor
  · intro h
    induction p generalizing text with
    | nil => exact ⟨[], text, rfl, .done, h⟩
    | cons c p ih =>
      cases h with
      | run part h =>
        obtain ⟨l, r, rfl, hl, hr⟩ := ih h
        exact ⟨part ++ l, r, (List.append_assoc part l r).symm, .run part hl, hr⟩
      | one d h =>
        obtain ⟨l, r, rfl, hl, hr⟩ := ih h
        exact ⟨d :: l, r, rfl, .one d hl, hr⟩
      | same hc h =>
        obtain ⟨l, r, rfl, hl, hr⟩ := ih h
        exact ⟨c :: l, r, rfl, .same hc hl, hr⟩
  · rintro ⟨l, r, rfl, hl, hr⟩
    induction hl with
    | done => exact hr
    | run part _ ih =>
      rw [List.append_assoc]
      exact .run part ih
    | one d _ ih => exact .one d ih
    | same hc _ ih => exact .same hc ih

theorem standsFor_percent (text : List Char) : StandsFor ['%'] text := by
  simpa using StandsFor.run text .done

/-- Without wildcards a pattern stands for itself. -/
theorem standsFor_iff_eq {p text : List Char} (h : ∀ c ∈ p, isWildcard c = false) :
    StandsFor p text ↔ text = p := by
  induction p generalizing text with
  | nil =>
    constructor
    · rintro ⟨⟩
      rfl
    · rintro rfl
      exact .done
  | cons c p ih =>
    have hc := h c List.mem_cons_self
    have hp : ∀ d ∈ p, isWildcard d = false := fun d hd => h d (List.mem_cons_of_mem c hd)
    constructor
    · intro hs
      cases hs with
      | run => cases hc
      | one => cases hc
      | same _ hs => rw [(ih hp).mp hs]
    · rintro rfl
      exact .same hc ((ih hp).mpr rfl)

/-- Whether the pattern stands for the text. -/
def fits : List Char → List Char → Bool
  | [], text => text.isEmpty
  | '%' :: p, text => text.tails.any (fits p)
  | _ :: _, [] => false
  | c :: p, d :: text => (c == '_' || c == d) && fits p text

theorem fits_iff_standsFor {p text : List Char} : fits p text = true ↔ StandsFor p text := by
  constructor
  · intro h
    induction p generalizing text with
    | nil =>
      cases List.isEmpty_iff.mp h
      exact .done
    | cons c p ih =>
      by_cases hrun : c = '%'
      · subst hrun
        obtain ⟨rest, htail, hrest⟩ := List.any_eq_true.mp h
        obtain ⟨part, rfl⟩ := (List.mem_tails _ _).mp htail
        exact .run part (ih hrest)
      cases text with
      | nil => simp [fits] at h
      | cons d text =>
        rw [fits] at h
        · obtain ⟨hc, hrest⟩ := Bool.and_eq_true_iff.mp h
          by_cases hone : c = '_'
          · subst hone
            exact .one d (ih hrest)
          have hplain : isWildcard c = false := by simp [isWildcard, hrun, hone]
          obtain rfl : c = d := by simpa [hone] using hc
          exact .same hplain (ih hrest)
        · exact hrun
  · intro h
    induction h with
    | done => rfl
    | run part _ ih => exact List.any_eq_true.mpr ⟨_, (List.mem_tails _ _).mpr ⟨part, rfl⟩, ih⟩
    | one c _ ih => exact ih
    | @same c hc _ _ _ ih =>
      rw [fits, ih, Bool.and_true, beq_self_eq_true, Bool.or_true]
      rintro rfl
      cases hc

/-! ### Translated patterns -/

section translation

open RegexLibrary

variable [RegexLibrary] {Matches : List RegexPart → List Char → List Char → List Char → Prop}

/-- The construct that a wildcard is translated to. -/
def RegexPart.ofWildcard (c : Char) : RegexPart := if c = '%' then anyRun else any

/-- **A wildcard** matches what it takes. -/
theorem RegexLibrary.Documented.matches_ofWildcard (doc : Documented Matches) {c : Char}
    (hc : c = '%' ∨ c = '_') {before part after : List Char} :
    Matches [.ofWildcard c] before part after ↔ Takes c part := by
  obtain rfl | rfl := hc
  · exact iff_of_true (doc.anyRun ..) (takes_percent part)
  · exact (doc.any ..).trans takes_underscore.symm

namespace LikeTranslation

/-- A wildcard ends the literal that is pending. -/
theorem push_wildcard {c : Char} (hc : c = '%' ∨ c = '_') (t : LikeTranslation) :
    t.push c = ⟨t.regex ++ (RegexPart.literal t.literal).write ++ (RegexPart.ofWildcard c).write, ""⟩ := by
  rw [push, if_pos hc]
  obtain rfl | rfl := hc <;> rfl

theorem push_plain {c : Char} (hc : ¬ (c = '%' ∨ c = '_')) (t : LikeTranslation) :
    t.push c = ⟨t.regex, t.literal.push c⟩ := if_neg hc

/-- **The rest of a translation**, whatever literal is pending: what is still written matches this literal
and behind it what the rest of the pattern stands for. -/
theorem exists_parts (doc : Documented Matches) (p : List Char) (t : LikeTranslation) :
    ∃ ps, (p.foldl push t).finish = t.regex ++ RegexPart.writeAll ps ++ "$" ∧
      ∀ before part after, Matches ps before part after ↔
        ∃ rest, part = t.literal.toList ++ rest ∧ StandsFor p rest := by
  induction p generalizing t with
  | nil =>
    refine ⟨[.literal t.literal], ?_, fun before part after => ?_⟩
    · rw [RegexPart.writeAll, RegexPart.writeAll, String.append_empty]
      rfl
    · rw [doc.literal]
      constructor
      · rintro rfl
        exact ⟨[], (List.append_nil _).symm, .done⟩
      · rintro ⟨_, rfl, ⟨⟩⟩
        exact List.append_nil _
  | cons c p ih =>
    by_cases hc : c = '%' ∨ c = '_'
    · obtain ⟨ps, hwritten, hps⟩ := ih (t.push c)
      rw [push_wildcard hc] at hwritten hps
      have hrest : ∀ before part after, Matches ps before part after ↔ StandsFor p part := by
        simpa using hps
      refine ⟨[.literal t.literal] ++ ([.ofWildcard c] ++ ps), ?_, fun before part after => ?_⟩
      · rw [List.foldl_cons, push_wildcard hc, hwritten]
        simp only [List.singleton_append, RegexPart.writeAll, String.append_assoc]
      · simp only [doc.sequence, doc.literal, doc.matches_ofWildcard hc, hrest, standsFor_cons]
        constructor
        · rintro ⟨_, rest, rfl, rfl, htaken⟩
          exact ⟨rest, rfl, htaken⟩
        · rintro ⟨rest, rfl, htaken⟩
          exact ⟨_, rest, rfl, rfl, htaken⟩
    · -- the character joins the literal that is pending
      have hplain : isWildcard c = false := by simpa [isWildcard] using hc
      obtain ⟨ps, hwritten, hps⟩ := ih (t.push c)
      rw [push_plain hc] at hwritten hps
      refine ⟨ps, ?_, fun before part after => ?_⟩
      · rw [List.foldl_cons, push_plain hc, hwritten]
      · simp only [hps, standsFor_cons, takes_plain hplain, String.toList_push, List.append_assoc]
        constructor
        · rintro ⟨rest, rfl, hrest⟩
          exact ⟨[c] ++ rest, rfl, [c], rest, rfl, rfl, hrest⟩
        · rintro ⟨_, rfl, _, rest, rfl, rfl, hrest⟩
          exact ⟨rest, rfl, hrest⟩

end LikeTranslation

/-- **Translated patterns match what patterns stand for**, with every library that does what is
documented. -/
theorem LikePattern.isMatch_iff_standsFor (doc : Documented Matches) {pattern : String} {p : LikePattern}
    (h : ofText? pattern = some p) (text : String) :
    isMatch p text = true ↔ StandsFor pattern.toList text.toList := by
  obtain ⟨ps, hwritten, hps⟩ := LikeTranslation.exists_parts doc pattern.toList .start
  have hregex : likeToRegex pattern =
      "(?s)" ++ RegexPart.writeAll ([.start] ++ (ps ++ [.finish])) := by
    rw [likeToRegex, hwritten, RegexPart.writeAll_append, RegexPart.writeAll_append]
    simp only [RegexPart.writeAll, RegexPart.write, String.append_empty, ← String.append_assoc]
    rfl
  rw [ofText?, hregex] at h
  rw [doc.search text h]
  simp only [doc.sequence, doc.start, doc.finish, hps]
  constructor
  · rintro ⟨_, _, _, htext, _, _, rfl, ⟨rfl, rfl⟩, _, _, rfl, ⟨rest, rfl, hrest⟩, rfl, rfl⟩
    rw [htext]
    simpa using hrest
  · intro hstands
    exact ⟨[], text.toList, [], by simp, [], text.toList, rfl, ⟨rfl, rfl⟩, text.toList, [], by simp,
      ⟨text.toList, rfl, hstands⟩, rfl, rfl⟩

end translation

/-- What stands between wildcards is one literal. -/
example : likeToRegex "%AB%" = "(?s)^.*AB.*$" ∧ likeToRegex "A.B_" = "(?s)^A\\.B.$" := by
  decide

/-! ### Evaluators -/

namespace Evaluator

variable [RegexLibrary]

/-- What is remembered is what the texts write. -/
def Faithful (e : Evaluator) : Prop :=
  ∀ text p, e.patterns.lookup text = some p → LikePattern.ofText? text = some p

theorem faithful_new : Faithful new := nofun

/-- The pattern of a text, remembered or not, is the one that the text writes. -/
theorem pattern?_spec {e : Evaluator} (h : e.Faithful) (text : String) :
    ((pattern? text).run e).1 = LikePattern.ofText? text ∧ ((pattern? text).run e).2.Faithful := by
  change (pattern? text e).1 = _ ∧ (pattern? text e).2.Faithful
  unfold pattern?
  cases hl : e.patterns.lookup text with
  | some p => exact ⟨(h text p hl).symm, h⟩
  | none =>
    cases hp : LikePattern.ofText? text with
    | none => exact ⟨rfl, h⟩
    | some p =>
      refine ⟨rfl, fun text' p' h' => ?_⟩
      rw [List.lookup_cons] at h'
      split at h'
      · rename_i heq
        rw [beq_iff_eq.mp heq, hp, h']
      · exact h text' p' h'

/-- **An evaluator decides which records satisfy a condition**, and stays faithful. -/
theorem holds_spec (record : Json) : ∀ (c : Condition) {e : Evaluator}, e.Faithful →
    ((holds record c).run e).1 = c.holds record ∧ ((holds record c).run e).2.Faithful
  | .compare .., _, h => ⟨rfl, h⟩
  | .test .., _, h => ⟨rfl, h⟩
  | .member .., _, h => ⟨rfl, h⟩
  | .between .., _, h => ⟨rfl, h⟩
  | .like f text negated, _, h => by
    obtain ⟨hp, hf⟩ := pattern?_spec h text
    refine ⟨?_, hf⟩
    rw [Condition.holds, ← hp]
    rfl
  | .not c, _, h => by
    obtain ⟨hc, hf⟩ := holds_spec record c h
    refine ⟨?_, hf⟩
    rw [Condition.holds, ← hc]
    rfl
  | .and l r, e, h => by
    obtain ⟨hl, hf⟩ := holds_spec record l h
    have hrun : (holds record (.and l r)).run e =
        (if ((holds record l).run e).1 then holds record r else pure false).run
          ((holds record l).run e).2 := rfl
    rw [hrun, hl, Condition.holds]
    cases l.holds record with
    | true => exact holds_spec record r hf
    | false => exact ⟨rfl, hf⟩
  | .or l r, e, h => by
    obtain ⟨hl, hf⟩ := holds_spec record l h
    have hrun : (holds record (.or l r)).run e =
        (if ((holds record l).run e).1 then pure true else holds record r).run
          ((holds record l).run e).2 := rfl
    rw [hrun, hl, Condition.holds]
    cases l.holds record with
    | true => exact ⟨rfl, hf⟩
    | false => exact holds_spec record r hf

end Evaluator

end RecordFilter

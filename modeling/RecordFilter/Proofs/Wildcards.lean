import RecordFilter.Proofs.Pattern

/-!
# What patterns take

A pattern is told here without any order of reading: a text goes with a pattern if it can be split into as
many parts as the pattern has characters, and each character takes its part (`SplitsBy`).  A percent sign
takes every part, an underscore a single character, and any other character only itself; in particular no
other character is special.

A value that is a text, a number or a truth value is accepted by a usable pattern just if the capitals of
its text can be split so, and by the negated pattern just if they cannot (`like_iff_splitsBy`).  Nothing is
assumed of the library that matches the translated pattern but what its documentation says.
-/

namespace RecordFilter

/-! ### Splitting a text -/

/-- The text is a row of parts, of which the characters of the pattern take one each. -/
def SplitsBy (pattern text : List Char) : Prop :=
  ∃ parts : List (List Char), text = parts.flatten ∧ List.Forall₂ Takes pattern parts

/-- The first character of a pattern takes the first part. -/
theorem splitsBy_cons {c : Char} {p text : List Char} :
    SplitsBy (c :: p) text ↔ ∃ part rest, text = part ++ rest ∧ Takes c part ∧ SplitsBy p rest := by
  constructor
  · rintro ⟨parts, htext, hparts⟩
    cases hparts with
    | @cons _ part _ parts hpart hrest =>
      refine ⟨part, parts.flatten, ?_, hpart, parts, rfl, hrest⟩
      simpa using htext
  · rintro ⟨part, _, rfl, hpart, parts, rfl, hparts⟩
    exact ⟨part :: parts, by simp, .cons hpart hparts⟩

/-- **Reading from the left is splitting**: what a pattern stands for is what it splits. -/
theorem standsFor_iff_splitsBy {p text : List Char} : StandsFor p text ↔ SplitsBy p text := by
  induction p generalizing text with
  | nil =>
    constructor
    · rintro ⟨⟩
      exact ⟨[], rfl, .nil⟩
    · rintro ⟨parts, rfl, hparts⟩
      cases hparts
      exact .done
  | cons c p ih => simp only [standsFor_cons, splitsBy_cons, ih]

/-! ### Values against patterns -/

/-- **The text of a value.**  A string is its own text, and numbers and truth values have the text by which
JSON writes them; nothing else has a text. -/
theorem Json.likeText?_eq (j : Json) :
    j.likeText? =
      match j with
      | .string s => some s
      | .bool _ | .integer _ | .double _ => some j.compact
      | .null | .array _ | .object _ => none := by
  cases j with
  | bool | integer | double => simp only [likeText?, numberText?, compact, scalarText]
  | null | string | array | object => rfl

theorem exists_likeText {j : Json} (hnull : j ≠ .null) (harray : ∀ items, j ≠ .array items)
    (hobject : ∀ members, j ≠ .object members) : ∃ text, j.likeText? = some text := by
  rw [j.likeText?_eq]
  cases j with
  | null => exact absurd rfl hnull
  | bool | integer | double | string => exact ⟨_, rfl⟩
  | array items => exact absurd rfl (harray items)
  | object members => exact absurd rfl (hobject members)

section library

variable [RegexLibrary] {Matches : List RegexPart → List Char → List Char → List Char → Prop}

/-- **One value** passes if it has a text of which the capitals can be split, and passes the negated test
if it has one of which they cannot. -/
theorem LikePattern.passes_iff (doc : RegexLibrary.Documented Matches) {pattern : String} {p : LikePattern}
    (hp : ofText? pattern = some p) (negated : Bool) (j : Json) :
    p.passes negated j = true ↔
      ∃ text, j.likeText? = some text ∧
        (SplitsBy pattern.toList (Text.upper text).toList ↔ negated = false) := by
  cases hj : j.likeText? with
  | none => simp [passes, hj]
  | some text =>
    have hpasses : p.passes negated j = (RegexLibrary.isMatch p (Text.upper text) != negated) := by
      simp [passes, hj]
    rw [hpasses]
    simp only [Option.some.injEq, exists_eq_left', ← standsFor_iff_splitsBy, ← isMatch_iff_standsFor doc hp]
    cases RegexLibrary.isMatch p (Text.upper text) <;> cases negated <;> simp

/-- The record passes a test with a usable pattern if one of the values that the field reaches does. -/
theorem holds_like (doc : RegexLibrary.Documented Matches) {pattern : String}
    (hp : (LikePattern.ofText? pattern).isSome) (f : FieldRef) (negated : Bool) (record : Json) :
    (Condition.like f pattern negated).holds record = true ↔
      ∃ j ∈ f.reach record, ∃ text, j.likeText? = some text ∧
        (SplitsBy pattern.toList (Text.upper text).toList ↔ negated = false) := by
  obtain ⟨p, hp⟩ := Option.isSome_iff_exists.mp hp
  rw [Condition.holds, hp, likePasses, List.any_eq_true]
  simp only [LikePattern.passes_iff doc hp]

/-- **Like tests**, with every library that does what is documented.  A test with a usable pattern passes
for a record if and only if some value that the field reaches has a text of which the capitals can be split
by the pattern; the negated test passes if and only if some value that is reached has a text of which they
cannot.  If a single value is reached, and it is a text, a number or a truth value, then one of the two
tests passes: the plain one if its text can be split, and the negated one if not. -/
theorem like_iff_splitsBy (doc : RegexLibrary.Documented Matches) {pattern : String}
    (hp : (LikePattern.ofText? pattern).isSome) (f : FieldRef) (record : Json) {e : Evaluator}
    (he : e.Faithful) :
    let passed (negated : Bool) := ((Evaluator.holds record (.like f pattern negated)).run e).1
    (passed false = true ↔ ∃ j ∈ f.reach record, ∃ text, j.likeText? = some text ∧
        SplitsBy pattern.toList (Text.upper text).toList) ∧
      (passed true = true ↔ ∃ j ∈ f.reach record, ∃ text, j.likeText? = some text ∧
        ¬ SplitsBy pattern.toList (Text.upper text).toList) ∧
      ∀ j, f.reach record = [j] → j ≠ .null → (∀ items, j ≠ .array items) →
        (∀ members, j ≠ .object members) → ∃ text, j.likeText? = some text ∧
          (passed false = true ↔ SplitsBy pattern.toList (Text.upper text).toList) ∧
          (passed true = true ↔ ¬ SplitsBy pattern.toList (Text.upper text).toList) := by
  intro passed
  have hholds : ∀ negated, passed negated = true ↔ ∃ j ∈ f.reach record, ∃ text,
      j.likeText? = some text ∧
        (SplitsBy pattern.toList (Text.upper text).toList ↔ negated = false) := by
    intro negated
    rw [← holds_like doc hp f negated record, ← (Evaluator.holds_spec record _ he).1]
  refine ⟨?_, ?_, fun j hj hnull harray hobject => ?_⟩
  · simpa using hholds false
  · simpa using hholds true
  · obtain ⟨text, htext⟩ := exists_likeText hnull harray hobject
    refine ⟨text, htext, ?_, ?_⟩
    · rw [hholds, hj]
      simp [htext]
    · rw [hholds, hj]
      simp [htext]

end library

/-- A percent sign takes a line break too, and a point takes nothing but a point. -/
theorem like_iff_splitsBy_lines :
    let f : FieldRef := ⟨[], "name", none⟩
    let record (text : String) := Json.object [("name", .string text)]
    (LikePattern.ofText? "%A.B_").isSome ∧
      ((Evaluator.holds (record "x\na.bé") (.like f "%A.B_" false)).run .new).1 = true ∧
      ((Evaluator.holds (record "xaxbc") (.like f "%A.B_" true)).run .new).1 = true := by
  intro f record
  have hp : (LikePattern.ofText? "%A.B_").isSome := by decide
  obtain ⟨hplain, -, -⟩ :=
    like_iff_splitsBy RegexProgram.documented hp f (record "x\na.bé") Evaluator.faithful_new
  obtain ⟨-, hnegated, -⟩ :=
    like_iff_splitsBy RegexProgram.documented hp f (record "xaxbc") Evaluator.faithful_new
  have hsplit : SplitsBy "%A.B_".toList (Text.upper "x\na.bé").toList := by
    refine ⟨[['X', '\n'], ['A'], ['.'], ['B'], ['É']], by decide +kernel, ?_⟩
    simp [Takes]
  have hnone : ¬ SplitsBy "%A.B_".toList (Text.upper "xaxbc").toList := by
    rw [← standsFor_iff_splitsBy, ← fits_iff_standsFor]
    decide
  have hreach : ∀ text, f.reach (record text) = [.string text] := fun _ => rfl
  refine ⟨hp, hplain.mpr ⟨.string "x\na.bé", ?_, _, rfl, hsplit⟩,
    hnegated.mpr ⟨.string "xaxbc", ?_, _, rfl, hnone⟩⟩
  · simp [hreach]
  · simp [hreach]

end RecordFilter

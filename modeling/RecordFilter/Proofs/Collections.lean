import RecordFilter.Proofs.Meaning

/-!
# Collections as joins

A path that meets an array goes on in each of its items, and so a record with collections stands for many
records without any: those in which each array that the path meets has been replaced by one of its items
(`choices`).  A record passes a test of a field if and only if one of these does (`holds_iff_choice`), and
in each of them the field reaches one value at most; the items of different arrays never decide a test
together.  An array without items leaves no choice, and so the record passes no test.

The test for null is not like this: it passes where nothing is reached.  And an array that is directly an
item of another one is not gone into.
-/

namespace RecordFilter

namespace Json

/-- What a relationship leads to by a value: the items of an array, and any other value itself. -/
def items : Json → List Json
  | array items => items
  | j => [j]

/-- The object with another value under a key that it has. -/
def withMember (j : Json) (key : String) (value : Json) : Json :=
  match j with
  | object members => object (members.map fun m => if m.1 = key then (key, value) else m)
  | j => j

end Json

/-- The records in which each array that is met along the relationships is replaced by one of its items. -/
def choices : List String → Json → List Json
  | [], j => [j]
  | x :: rest, j =>
    match j.get? x with
    | some v => (v.items.flatMap (choices rest)).map (j.withMember x)
    | none => [j]

/-- No array that is met along the relationships has an array among its items. -/
def Unnested : List String → Json → Prop
  | [], _ => True
  | x :: rest, j => ∀ v, j.get? x = some v → ∀ i ∈ v.items, i.asArray? = none ∧ Unnested rest i

/-- The condition is a test of the values of a field, and not the one for null. -/
inductive TestsValue (f : FieldRef) : Condition → Prop
  | compare (op : Comparison) (v : Value) : TestsValue f (.compare f op v)
  | member (vs : List Value) : TestsValue f (.member f vs)
  | between (low high : Value) : TestsValue f (.between f low high)
  | like (pattern : String) (negated : Bool) : TestsValue f (.like f pattern negated)
  | isTrue : TestsValue f (.test f .isTrue)
  | isFalse : TestsValue f (.test f .isFalse)
  | isNotNull : TestsValue f (.test f .isNotNull)

/-! ### Null passes no test -/

theorem Value.order?_null (v : Value) : v.order? .null = none := by
  cases v <;> simp [order?, orderText?, decimal?, instant?, Json.asString?, Json.asBool?, Json.decimal?,
    Json.instant?]

theorem Comparison.passes_null (op : Comparison) (v : Value) : op.passes v .null = false := by
  simp [passes, Value.order?_null]

/-! ### Nor do tests look into arrays and objects -/

/-- The value is an array or an object. -/
def Json.isNested : Json → Bool
  | array _ => true
  | object _ => true
  | _ => false

theorem Value.order?_nested (v : Value) {j : Json} (h : j.isNested = true) : v.order? j = none := by
  cases j with
  | array | object =>
    cases v <;> simp [order?, orderText?, decimal?, instant?, Json.asString?, Json.asBool?, Json.decimal?,
      Json.instant?]
  | _ => cases h

theorem Comparison.passes_nested (op : Comparison) (v : Value) {j : Json} (h : j.isNested = true) :
    op.passes v j = false := by
  simp [passes, Value.order?_nested v h]

theorem LikePattern.passes_nested (p : LikePattern) (negated : Bool) {j : Json} (h : j.isNested = true) :
    p.passes negated j = false := by
  cases j with
  | array | object => rfl
  | _ => cases h

theorem Json.asBool?_nested {j : Json} (h : j.isNested = true) : j.asBool? = none := by
  cases j with
  | array | object => rfl
  | _ => cases h

theorem Json.isNull_nested {j : Json} (h : j.isNested = true) : j.isNull = false := by
  cases j with
  | array | object => rfl
  | _ => cases h

/-- **A test of values** asks whether one of the values that are reached passes; null does not, and it does
not matter what an array or an object holds. -/
theorem TestsValue.exists_test {f : FieldRef} {c : Condition} (h : TestsValue f c) :
    ∃ passes : Json → Bool, passes .null = false ∧
      (∃ b, ∀ j : Json, j.isNested = true → passes j = b) ∧
      ∀ record, c.holds record = (f.reach record).any passes := by
  cases h with
  | compare op v =>
    exact ⟨op.passes v, op.passes_null v, ⟨false, fun _ => op.passes_nested v⟩, fun _ => rfl⟩
  | member vs =>
    refine ⟨memberPasses vs, by simp [memberPasses, Comparison.passes_null], ⟨false, fun j hj => ?_⟩,
      fun _ => rfl⟩
    simp [memberPasses, Comparison.passes_nested _ _ hj]
  | between low high =>
    refine ⟨betweenPasses low high, by simp [betweenPasses, Comparison.passes_null],
      ⟨false, fun j hj => ?_⟩, fun _ => rfl⟩
    simp [betweenPasses, Comparison.passes_nested _ _ hj]
  | like pattern negated =>
    refine ⟨fun j => (LikePattern.ofText? pattern).any fun p => p.passes negated j, ?_,
      ⟨false, fun j hj => ?_⟩, fun record => ?_⟩
    · cases LikePattern.ofText? pattern <;> rfl
    · cases LikePattern.ofText? pattern with
      | none => rfl
      | some p => exact p.passes_nested negated hj
    · rw [Condition.holds]
      cases LikePattern.ofText? pattern <;> simp [likePasses]
  | isTrue =>
    exact ⟨fun j => j.asBool? == some true, rfl,
      ⟨false, fun j hj => by simp [Json.asBool?_nested hj]⟩, fun _ => rfl⟩
  | isFalse =>
    exact ⟨fun j => j.asBool? == some false, rfl,
      ⟨false, fun j hj => by simp [Json.asBool?_nested hj]⟩, fun _ => rfl⟩
  | isNotNull =>
    exact ⟨fun j => !j.isNull, rfl, ⟨true, fun j hj => by simp [Json.isNull_nested hj]⟩, fun _ => rfl⟩

theorem TestsValue.exists_passes {f : FieldRef} {c : Condition} (h : TestsValue f c) :
    ∃ passes : Json → Bool, passes .null = false ∧
      ∀ record, c.holds record = (f.reach record).any passes := by
  obtain ⟨passes, hnull, -, hpasses⟩ := h.exists_test
  exact ⟨passes, hnull, hpasses⟩

/-! ### One relationship -/

theorem lookup_map_replaced {key : String} (value : Json) {members : List (String × Json)}
    (h : (members.lookup key).isSome) :
    (members.map fun m => if m.1 = key then (key, value) else m).lookup key = some value := by
  induction members with
  | nil => cases h
  | cons m members ih =>
    by_cases hm : m.1 = key
    · simp [hm]
    · have hne : (key == m.1) = false := by simpa using Ne.symm hm
      rw [List.lookup_cons, hne] at h
      rw [List.map_cons, if_neg hm, List.lookup_cons, hne]
      exact ih h

theorem Json.get?_withMember {key : String} {j v : Json} (h : j.get? key = some v) (value : Json) :
    (j.withMember key value).get? key = some value := by
  cases j with
  | object members =>
    have hsome : (members.lookup key).isSome := by
      rw [get?] at h
      simp [h]
    exact lookup_map_replaced value hsome
  | _ => cases h

theorem lookup_map_replaced_of_ne {key k : String} (hk : k ≠ key) (value : Json)
    (members : List (String × Json)) :
    (members.map fun m => if m.1 = key then (key, value) else m).lookup k = members.lookup k := by
  induction members with
  | nil => rfl
  | cons m members ih =>
    rw [List.map_cons, List.lookup_cons, List.lookup_cons, ih]
    by_cases hm : m.1 = key
    · have hne : (k == key) = false := beq_false_of_ne hk
      rw [if_pos hm, hm, hne]
    · rw [if_neg hm]

theorem Json.get?_withMember_of_ne {key k : String} (hk : k ≠ key) (j value : Json) :
    (j.withMember key value).get? k = j.get? k := by
  cases j with
  | object members => exact lookup_map_replaced_of_ne hk value members
  | _ => rfl

theorem Json.items_of_asArray? {j : Json} (h : j.asArray? = none) : j.items = [j] := by
  cases j with
  | array => cases h
  | _ => rfl

section relationship

variable {x : String} {j v : Json} (name : String) (rest : List String)

theorem valuesAt_of_get?_none (h : j.get? x = none) : valuesAt (x :: (rest ++ [name])) j = [] := by
  simp [valuesAt_cons, follow, h]

/-- A value that is no array leads to the values at the end of the rest of the path, unless it is null. -/
theorem valuesAt_of_asArray? (h : j.get? x = some v) (hv : v.asArray? = none) :
    valuesAt (x :: (rest ++ [name])) j = if v.isNull then [] else valuesAt (rest ++ [name]) v := by
  cases v with
  | array => cases hv
  | _ => simp [valuesAt_cons, follow, h, Json.isNull]

variable {passes : Json → Bool} (hnull : passes .null = false)

include hnull

theorem any_valuesAt_null : (valuesAt (rest ++ [name]) .null).any passes = false := by
  cases rest with
  | nil => simpa [valuesAt, Json.get?] using hnull
  | cons y rest => simp [valuesAt_of_get?_none name rest (x := y) (j := .null) rfl]

/-- **One relationship**: a value at the end of a path is one at the end of the rest of the path, from an
item that the first relationship leads to. -/
theorem any_valuesAt_cons (h : j.get? x = some v) :
    (valuesAt (x :: (rest ++ [name])) j).any passes =
      v.items.any fun i => (valuesAt (rest ++ [name]) i).any passes := by
  cases v with
  | array items => simp [valuesAt_cons, follow, h, Json.items]
  | null => simp [valuesAt_cons, follow, h, Json.items, any_valuesAt_null name rest hnull]
  | _ => simp [valuesAt_cons, follow, h, Json.items]

end relationship

/-! ### Whole paths -/

/-- What becomes of a record by choosing is no array if the record is none. -/
theorem asArray?_of_mem_choices {path : List String} {j k : Json} (hj : j.asArray? = none)
    (h : k ∈ choices path j) : k.asArray? = none := by
  cases path with
  | nil =>
    rw [choices, List.mem_singleton] at h
    rwa [h]
  | cons x rest =>
    rw [choices] at h
    split at h
    · obtain ⟨i, -, rfl⟩ := List.mem_map.mp h
      cases j with
      | array => cases hj
      | _ => rfl
    · rw [List.mem_singleton] at h
      rwa [h]

section choose

variable {x : String} {rest : List String} {j v : Json} (hv : j.get? x = some v)

include hv

/-- A choice of a record is a choice of one of the items that the first relationship leads to. -/
theorem mem_choices_cons {k : Json} :
    k ∈ choices (x :: rest) j ↔ ∃ i ∈ v.items, ∃ c ∈ choices rest i, j.withMember x c = k := by
  rw [choices, hv]
  simp only [List.mem_map, List.mem_flatMap]
  constructor
  · rintro ⟨c, ⟨i, hi, hc⟩, rfl⟩
    exact ⟨i, hi, c, hc, rfl⟩
  · rintro ⟨i, hi, c, hc, rfl⟩
    exact ⟨c, ⟨i, hi, hc⟩, rfl⟩

/-- Where a choice has been made the relationship leads to one value. -/
theorem asArray?_of_choice (hflat : Unnested (x :: rest) j) {i c : Json} (hi : i ∈ v.items)
    (hc : c ∈ choices rest i) : (j.withMember x c).get? x = some c ∧ c.asArray? = none :=
  ⟨Json.get?_withMember hv c, asArray?_of_mem_choices (hflat v hv i hi).1 hc⟩

end choose

/-- **A value passes that the path reaches if and only if it does so in one of the choices.** -/
theorem any_valuesAt_choices {passes : Json → Bool} (hnull : passes .null = false) (name : String) :
    ∀ (path : List String) {j : Json}, Unnested path j →
      ((valuesAt (path ++ [name]) j).any passes = true ↔
        ∃ k ∈ choices path j, (valuesAt (path ++ [name]) k).any passes = true)
  | [], j, _ => by simp [choices]
  | x :: rest, j, hflat => by
    rw [List.cons_append]
    cases hv : j.get? x with
    | none => simp [choices, hv]
    | some v =>
      have hitem : ∀ i ∈ v.items, ((valuesAt (rest ++ [name]) i).any passes = true ↔
          ∃ c ∈ choices rest i, (valuesAt (rest ++ [name]) c).any passes = true) :=
        fun i hi => any_valuesAt_choices hnull name rest (hflat v hv i hi).2
      have hchoice : ∀ i ∈ v.items, ∀ c ∈ choices rest i,
          (valuesAt (x :: (rest ++ [name])) (j.withMember x c)).any passes =
            (valuesAt (rest ++ [name]) c).any passes := by
        intro i hi c hc
        obtain ⟨hget, harray⟩ := asArray?_of_choice hv hflat hi hc
        simp [any_valuesAt_cons name rest hnull hget, Json.items_of_asArray? harray]
      rw [any_valuesAt_cons name rest hnull hv, List.any_eq_true]
      constructor
      · rintro ⟨i, hi, hpass⟩
        obtain ⟨c, hc, hpass⟩ := (hitem i hi).mp hpass
        refine ⟨j.withMember x c, (mem_choices_cons hv).mpr ⟨i, hi, c, hc, rfl⟩, ?_⟩
        rwa [hchoice i hi c hc]
      · rintro ⟨_, hk, hpass⟩
        obtain ⟨i, hi, c, hc, rfl⟩ := (mem_choices_cons hv).mp hk
        rw [hchoice i hi c hc] at hpass
        exact ⟨i, hi, (hitem i hi).mpr ⟨c, hc, hpass⟩⟩

/-- **A choice has one value at the end of the path, or none.** -/
theorem length_valuesAt_of_mem_choices (name : String) : ∀ (path : List String) {j k : Json},
    Unnested path j → k ∈ choices path j → (valuesAt (path ++ [name]) k).length ≤ 1
  | [], _, _, _, _ => le_refl 1
  | x :: rest, j, k, hflat, hk => by
    rw [List.cons_append]
    cases hv : j.get? x with
    | none =>
      have hkj : k = j := by simpa [choices, hv] using hk
      simp [hkj, valuesAt_of_get?_none name rest hv]
    | some v =>
      obtain ⟨i, hi, c, hc, rfl⟩ := (mem_choices_cons hv).mp hk
      have hrest := length_valuesAt_of_mem_choices name rest (hflat v hv i hi).2 hc
      obtain ⟨hget, harray⟩ := asArray?_of_choice hv hflat hi hc
      rw [valuesAt_of_asArray? name rest hget harray]
      split
      · simp
      · exact hrest

/-! ### Tests of values -/

/-- Of at most one value, that some value passes says that there is one and that it does. -/
theorem any_eq_true_of_length_le_one {α : Type} {as : List α} (h : as.length ≤ 1) (p : α → Bool) :
    as.any p = true ↔ ∃ a, as = [a] ∧ p a = true := by
  match as, h with
  | [], _ => simp
  | [a], _ => simp

/-- **Collections are joins.**  A record in which no array that the path meets has arrays for items passes
a test of the values of a field, other than the test for null, if and only if one of its choices does; if
an empty array leaves it none then it does not pass.  In each choice the path reaches one value at most; so
a range, too, needs a single item within both bounds. -/
theorem holds_iff_choice {f : FieldRef} {c : Condition} (hc : TestsValue f c) {record : Json}
    (hflat : Unnested f.path record) {e : Evaluator} (he : e.Faithful) :
    (((Evaluator.holds record c).run e).1 = true ↔
        ∃ k ∈ choices f.path record, ((Evaluator.holds k c).run e).1 = true) ∧
      (choices f.path record = [] → ((Evaluator.holds record c).run e).1 = false) ∧
      (∀ k ∈ choices f.path record, (f.reach k).length ≤ 1) ∧
      ∀ low high, c = .between f low high → (((Evaluator.holds record c).run e).1 = true ↔
        ∃ k ∈ choices f.path record, ∃ j, f.reach k = [j] ∧
          Comparison.greaterOrEqual.passes low j = true ∧ Comparison.lessOrEqual.passes high j = true) := by
  have hholds : ∀ r, ((Evaluator.holds r c).run e).1 = c.holds r := fun r => (Evaluator.holds_spec r c he).1
  have hjoin : c.holds record = true ↔ ∃ k ∈ choices f.path record, c.holds k = true := by
    obtain ⟨passes, hnull, hpasses⟩ := hc.exists_passes
    simp only [hpasses, FieldRef.reach_eq_valuesAt]
    exact any_valuesAt_choices hnull f.name f.path hflat
  have hone : ∀ k ∈ choices f.path record, (f.reach k).length ≤ 1 := by
    intro k hk
    rw [FieldRef.reach_eq_valuesAt]
    exact length_valuesAt_of_mem_choices f.name f.path hflat hk
  simp only [hholds]
  refine ⟨hjoin, fun hempty => ?_, hone, ?_⟩
  · rw [Bool.eq_false_iff, Ne, hjoin, hempty]
    simp
  · rintro low high rfl
    rw [hjoin]
    refine exists_congr fun k => and_congr_right fun hk => ?_
    rw [Condition.holds, any_eq_true_of_length_le_one (hone k hk)]
    simp only [betweenPasses, Bool.and_eq_true]

/-- No author of the two books is between six and eight, although one is above six and another below
eight; the book without authors does not count. -/
theorem holds_iff_choice_authors :
    let f : FieldRef := ⟨["books", "authors"], "age", none⟩
    let author (n : Int) := Json.object [("age", .integer n)]
    let book (authors : List Json) := Json.object [("authors", .array authors)]
    let shelf (ages : List Int) := Json.object [("books", .array [book [], book (ages.map author)])]
    let range := Condition.between f (.integer .w32 6) (.integer .w32 8)
    Unnested f.path (shelf [5, 9]) ∧ Unnested f.path (shelf [5, 7, 9]) ∧
      ((Evaluator.holds (shelf [5, 9]) range).run .new).1 = false ∧
      ((Evaluator.holds (shelf [5, 7, 9]) range).run .new).1 = true := by
  intro f author book shelf range
  have hflat : ∀ ages, Unnested f.path (shelf ages) := by
    intro ages
    simp [f, shelf, book, author, Unnested, Json.get?, Json.items, Json.asArray?]
  have hrange : TestsValue f range := .between _ _
  have hapart := holds_iff_choice hrange (hflat [5, 9]) Evaluator.faithful_new
  have hwithin := holds_iff_choice hrange (hflat [5, 7, 9]) Evaluator.faithful_new
  refine ⟨hflat _, hflat _, Bool.eq_false_iff.mpr (hapart.1.not.mpr ?_), hwithin.1.mpr ?_⟩
  · decide
  · decide

end RecordFilter

import RecordFilter.Proofs.Collections

/-!
# Null entries of arrays

A relationship that is null leads nowhere.  A null that is an entry of an array is followed by one
relationship more: it is a row like the other entries, from which no relationship leads on, but in which
every field is null.  `Json.withoutNulls` takes such entries out of the arrays along a path.

They never make a difference to a test of values, wherever they stand, nor to any test behind one more
relationship.  The test for null is different: a null entry alone lets it pass where all other rows have
a value (`FieldRef.NullByEntry`).  A record and what is left of it satisfy the same conditions as long as
no test for null is decided like this, and a test that is decided like this differs
(`answers_withoutNulls`).
-/

namespace RecordFilter

/-! ### Records without null entries -/

/-- The record in which the arrays that are met along the relationships have no null among their entries. -/
def Json.withoutNulls : List String → Json → Json
  | [], j => j
  | x :: rest, j =>
    match j.get? x with
    | none => j
    | some (.array items) =>
      j.withMember x (.array ((items.filter fun i => !i.isNull).map (withoutNulls rest)))
    | some v => j.withMember x (withoutNulls rest v)

namespace FieldRef

/-- The rows from which the values of the field are taken: what the relationships lead to. -/
def rows (f : FieldRef) (record : Json) : List Json := f.path.foldl follow [record]

/-- The value of the field in a row; a field that is absent is null. -/
def valueIn (f : FieldRef) (row : Json) : Json := (row.get? f.name).getD .null

theorem reach_eq (f : FieldRef) (record : Json) : f.reach record = (f.rows record).map f.valueIn := rfl

/-- **A null entry decides the test for null.**  The rows of the field are entries of an array along the
path, one of them is null and another one is not, and in all that are not the field has a value. -/
structure NullByEntry (f : FieldRef) (path : List String) (record : Json) : Prop where
  along : f.path ≠ [] ∧ f.path <+: path
  entry : ∃ row ∈ f.rows record, row.isNull = true
  other : ∃ row ∈ f.rows record, row.isNull = false
  values : ∀ row ∈ f.rows record, row.isNull = false → (f.valueIn row).isNull = false

end FieldRef

/-- The fields that are tested for null. -/
def Condition.nullTests : Condition → List FieldRef
  | test f .isNull => [f]
  | not c => c.nullTests
  | and l r => l.nullTests ++ r.nullTests
  | or l r => l.nullTests ++ r.nullTests
  | _ => []

/-! ### Values that no test tells apart -/

/-- The values are the same, or each is an array or an object. -/
def Json.Alike (j k : Json) : Prop := j = k ∨ j.isNested = true ∧ k.isNested = true

namespace Json

theorem Alike.isNull {j k : Json} (h : j.Alike k) : j.isNull = k.isNull := by
  obtain rfl | ⟨hj, hk⟩ := h
  · rfl
  · rw [isNull_nested hj, isNull_nested hk]

theorem exists_withoutNulls_object (path : List String) (ms : List (String × Json)) :
    ∃ ms', (object ms).withoutNulls path = object ms' := by
  cases path with
  | nil => exact ⟨ms, rfl⟩
  | cons x rest =>
    unfold withoutNulls
    split
    · exact ⟨ms, rfl⟩
    · exact ⟨_, rfl⟩
    · exact ⟨_, rfl⟩

/-- Only objects change, and they stay objects. -/
theorem withoutNulls_cases (path : List String) (j : Json) :
    j.withoutNulls path = j ∨ ∃ ms ms', j = object ms ∧ j.withoutNulls path = object ms' := by
  cases j with
  | object ms =>
    obtain ⟨ms', h⟩ := exists_withoutNulls_object path ms
    exact .inr ⟨ms, ms', rfl, h⟩
  | _ => cases path <;> exact .inl rfl

theorem alike_withoutNulls (path : List String) (j : Json) : (j.withoutNulls path).Alike j := by
  obtain h | ⟨ms, ms', rfl, h⟩ := withoutNulls_cases path j
  · exact .inl h
  · right
    rw [h]
    exact ⟨rfl, rfl⟩

section get

variable {x : String} {j v : Json}

theorem withoutNulls_of_get?_none (h : j.get? x = none) (rest : List String) :
    j.withoutNulls (x :: rest) = j := by
  rw [withoutNulls, h]

theorem get?_withoutNulls_array {items : List Json} (h : j.get? x = some (.array items))
    (rest : List String) :
    (j.withoutNulls (x :: rest)).get? x =
      some (.array ((items.filter fun i => !i.isNull).map (withoutNulls rest))) := by
  rw [withoutNulls, h]
  exact get?_withMember h _

theorem get?_withoutNulls_of_asArray? (h : j.get? x = some v) (hv : v.asArray? = none)
    (rest : List String) : (j.withoutNulls (x :: rest)).get? x = some (v.withoutNulls rest) := by
  rw [withoutNulls, h]
  cases v with
  | array => cases hv
  | _ => exact get?_withMember h _

theorem get?_withoutNulls_of_ne {y : String} (hxy : x ≠ y) (rest : List String) :
    (j.withoutNulls (y :: rest)).get? x = j.get? x := by
  rw [withoutNulls]
  split
  · rfl
  · exact get?_withMember_of_ne hxy j _
  · exact get?_withMember_of_ne hxy j _

/-- Every field of a row keeps its value, or has another array or object for one. -/
theorem alike_getD (path : List String) (name : String) (j : Json) :
    (((j.withoutNulls path).get? name).getD .null).Alike ((j.get? name).getD .null) := by
  cases path with
  | nil => exact .inl rfl
  | cons x rest =>
    by_cases hx : name = x
    · subst hx
      cases hv : j.get? name with
      | none =>
        rw [withoutNulls_of_get?_none hv, hv]
        exact .inl rfl
      | some v =>
        cases v with
        | array items =>
          rw [get?_withoutNulls_array hv]
          exact .inr ⟨rfl, rfl⟩
        | _ =>
          rw [get?_withoutNulls_of_asArray? hv rfl]
          exact alike_withoutNulls rest _
    · rw [get?_withoutNulls_of_ne hx]
      exact .inl rfl

end get

end Json

/-! ### Rows -/

/-- Nothing is reached from null. -/
theorem follow_filter (cs : List Json) (x : String) :
    follow (cs.filter fun c => !c.isNull) x = follow cs x := by
  induction cs with
  | nil => rfl
  | cons c cs ih =>
    have hsplit : ∀ cs', follow (c :: cs') x = follow [c] x ++ follow cs' x := by simp [follow]
    rw [List.filter_cons]
    split
    · rw [hsplit (cs.filter _), ih, ← hsplit]
    · rename_i hc
      have hnull : follow [c] x = [] := by
        cases c with
        | null => rfl
        | _ => exact absurd rfl hc
      rw [hsplit cs, hnull, List.nil_append, ih]

theorem foldl_follow_filter {q : List String} (hq : q ≠ []) (cs : List Json) :
    q.foldl follow (cs.filter fun c => !c.isNull) = q.foldl follow cs := by
  obtain ⟨x, q, rfl⟩ := List.exists_cons_of_ne_nil hq
  rw [List.foldl_cons, List.foldl_cons, follow_filter]

/-- **One relationship of the path:** it leads to the same rows but for the null ones. -/
theorem follow_withoutNulls (x : String) (rest : List String) (cs : List Json) :
    follow (cs.map (Json.withoutNulls (x :: rest))) x =
      ((follow cs x).filter fun c => !c.isNull).map (Json.withoutNulls rest) := by
  unfold follow
  rw [List.flatMap_map, List.filter_flatMap, List.map_flatMap]
  refine List.flatMap_congr fun c _ => ?_
  cases hv : c.get? x with
  | none =>
    rw [Json.withoutNulls_of_get?_none hv, hv]
    rfl
  | some v =>
    cases v with
    | array items => rw [Json.get?_withoutNulls_array hv]
    | object ms =>
      obtain ⟨ms', h⟩ := Json.exists_withoutNulls_object rest ms
      rw [Json.get?_withoutNulls_of_asArray? hv rfl, h]
      simp [Json.isNull, h]
    | _ =>
      rw [Json.get?_withoutNulls_of_asArray? hv rfl]
      cases rest <;> rfl

theorem follow_withoutNulls_of_ne {x y : String} (hxy : x ≠ y) (rest : List String) (cs : List Json) :
    follow (cs.map (Json.withoutNulls (y :: rest))) x = follow cs x := by
  unfold follow
  rw [List.flatMap_map]
  refine List.flatMap_congr fun c _ => ?_
  rw [Json.get?_withoutNulls_of_ne hxy]

/-- **A beginning of the path** leads to the same rows but for the null ones. -/
theorem foldl_follow_withoutNulls (rest : List String) : ∀ (q : List String), q ≠ [] →
    ∀ cs : List Json, q.foldl follow (cs.map (Json.withoutNulls (q ++ rest))) =
      ((q.foldl follow cs).filter fun c => !c.isNull).map (Json.withoutNulls rest)
  | [], hq, _ => absurd rfl hq
  | [x], _, cs => follow_withoutNulls x rest cs
  | x :: y :: q, _, cs => by
    have ih := foldl_follow_withoutNulls rest (y :: q) (List.cons_ne_nil y q)
      ((follow cs x).filter fun c => !c.isNull)
    rw [List.foldl_cons, List.cons_append, follow_withoutNulls, ih,
      foldl_follow_filter (List.cons_ne_nil y q), ← List.foldl_cons]

/-- **Any other path** leads to the same rows: it leaves the path or goes on behind it. -/
theorem foldl_follow_of_not_prefix : ∀ (q path : List String), ¬ q <+: path → ∀ cs : List Json,
    q.foldl follow (cs.map (Json.withoutNulls path)) = q.foldl follow cs
  | [], path, h, _ => absurd (List.nil_prefix) h
  | x :: q, [], _, cs => by
    have hid : Json.withoutNulls [] = id := rfl
    rw [hid, List.map_id]
  | x :: q, y :: path, h, cs => by
    rw [List.foldl_cons, List.foldl_cons]
    by_cases hxy : x = y
    · subst hxy
      have hq : ¬ q <+: path := fun hq => h (List.cons_prefix_cons.mpr ⟨rfl, hq⟩)
      have hne : q ≠ [] := by
        rintro rfl
        exact hq List.nil_prefix
      rw [follow_withoutNulls, foldl_follow_of_not_prefix q path hq, foldl_follow_filter hne]
    · rw [follow_withoutNulls_of_ne hxy]

/-! ### Fields -/

namespace FieldRef

variable {f : FieldRef} {path : List String}

theorem alike_map_valueIn (rest : List String) (cs : List Json) :
    List.Forall₂ Json.Alike ((cs.map (Json.withoutNulls rest)).map f.valueIn) (cs.map f.valueIn) := by
  rw [List.map_map, List.forall₂_map_left_iff, List.forall₂_map_right_iff, List.forall₂_same]
  exact fun c _ => Json.alike_getD rest f.name c

/-- **A field whose rows are entries of an array of the path** is reached in the rows that are not null. -/
theorem reach_withoutNulls (h : f.path ≠ [] ∧ f.path <+: path) (record : Json) :
    List.Forall₂ Json.Alike (f.reach (record.withoutNulls path))
      (((f.rows record).filter fun row => !row.isNull).map f.valueIn) := by
  obtain ⟨hne, rest, rfl⟩ := h
  have hrows : f.rows (record.withoutNulls (f.path ++ rest)) =
      ((f.rows record).filter fun row => !row.isNull).map (Json.withoutNulls rest) :=
    foldl_follow_withoutNulls rest f.path hne [record]
  rw [reach_eq, hrows]
  exact alike_map_valueIn rest _

/-- **Any other field** is reached as before. -/
theorem reach_withoutNulls_of_not (h : ¬ (f.path ≠ [] ∧ f.path <+: path)) (record : Json) :
    List.Forall₂ Json.Alike (f.reach (record.withoutNulls path)) (f.reach record) := by
  rw [reach_eq, reach_eq]
  by_cases hne : f.path = []
  · have hrows : ∀ r, f.rows r = [r] := by
      intro r
      rw [rows, hne, List.foldl_nil]
    rw [hrows, hrows]
    exact alike_map_valueIn path [record]
  · have hrows : f.rows (record.withoutNulls path) = f.rows record :=
      foldl_follow_of_not_prefix f.path path (fun hprefix => h ⟨hne, hprefix⟩) [record]
    rw [hrows, List.forall₂_same]
    exact fun _ _ => .inl rfl

end FieldRef

/-! ### Tests of values -/

theorem any_congr_of_alike {passes : Json → Bool} {b : Bool}
    (hpasses : ∀ j : Json, j.isNested = true → passes j = b) {js ks : List Json}
    (h : List.Forall₂ Json.Alike js ks) : js.any passes = ks.any passes := by
  induction h with
  | nil => rfl
  | cons hjk _ ih =>
    rw [List.any_cons, List.any_cons, ih]
    obtain rfl | ⟨hj, hk⟩ := hjk
    · rfl
    · rw [hpasses _ hj, hpasses _ hk]

theorem FieldRef.valueIn_of_isNull (f : FieldRef) {row : Json} (h : row.isNull = true) :
    f.valueIn row = .null := by
  cases row with
  | null => rfl
  | _ => cases h

/-- **A test of values** does not see null entries. -/
theorem TestsValue.holds_withoutNulls {f : FieldRef} {c : Condition} (h : TestsValue f c)
    (path : List String) (record : Json) : c.holds (record.withoutNulls path) = c.holds record := by
  obtain ⟨passes, hnull, ⟨b, hnested⟩, hholds⟩ := h.exists_test
  rw [hholds, hholds]
  by_cases hpath : f.path ≠ [] ∧ f.path <+: path
  · rw [any_congr_of_alike hnested (f.reach_withoutNulls hpath record), f.reach_eq, List.any_map,
      List.any_map, List.any_filter]
    refine congrArg (List.any _) (funext fun row => ?_)
    cases hrow : row.isNull with
    | true => simp [f.valueIn_of_isNull hrow, hnull]
    | false => simp
  · exact any_congr_of_alike hnested (f.reach_withoutNulls_of_not hpath record)

/-! ### The test for null -/

theorem isEmpty_congr {α β : Type} {R : α → β → Prop} {as : List α} {bs : List β}
    (h : List.Forall₂ R as bs) : as.isEmpty = bs.isEmpty := by
  cases h <;> rfl

/-- Alike values pass the test for null alike. -/
theorem passes_isNull_of_alike {js ks : List Json} (h : List.Forall₂ Json.Alike js ks) :
    Test.isNull.passes js = Test.isNull.passes ks := by
  rw [Test.passes, Test.passes, isEmpty_congr h]
  rw [any_congr_of_alike (fun j => Json.isNull_nested) h]

/-- The test for null passes if there is no row, or a row in which the field is null. -/
theorem passes_isNull_iff (f : FieldRef) (rows : List Json) :
    Test.isNull.passes (rows.map f.valueIn) = true ↔
      rows = [] ∨ ∃ row ∈ rows, (f.valueIn row).isNull = true := by
  simp [Test.passes]

section isNull

variable {f : FieldRef} {path : List String} (record : Json)

/-- Without null entries the test for null asks the rows that are not null. -/
theorem isNull_withoutNulls_iff (h : f.path ≠ [] ∧ f.path <+: path) :
    (Condition.test f .isNull).holds (record.withoutNulls path) = true ↔
      (∀ row ∈ f.rows record, row.isNull = true) ∨
        ∃ row ∈ f.rows record, row.isNull = false ∧ (f.valueIn row).isNull = true := by
  rw [Condition.holds, passes_isNull_of_alike (f.reach_withoutNulls h record), passes_isNull_iff,
    List.filter_eq_nil_iff]
  simp only [List.mem_filter, Bool.not_eq_true', Bool.not_eq_false, and_assoc]

/-- With them it asks every row. -/
theorem isNull_holds_iff :
    (Condition.test f .isNull).holds record = true ↔
      f.rows record = [] ∨ ∃ row ∈ f.rows record, (f.valueIn row).isNull = true :=
  passes_isNull_iff f (f.rows record)

theorem isNull_withoutNulls_of_not (h : ¬ (f.path ≠ [] ∧ f.path <+: path)) :
    (Condition.test f .isNull).holds (record.withoutNulls path) = (Condition.test f .isNull).holds record :=
  passes_isNull_of_alike (f.reach_withoutNulls_of_not h record)

variable {record}

/-- What passes without null entries passes with them: where they are the only rows, each of them does. -/
theorem isNull_of_withoutNulls (h : (Condition.test f .isNull).holds (record.withoutNulls path) = true) :
    (Condition.test f .isNull).holds record = true := by
  by_cases hpath : f.path ≠ [] ∧ f.path <+: path
  · rw [isNull_holds_iff]
    obtain hnulls | ⟨row, hmem, -, hnull⟩ := (isNull_withoutNulls_iff record hpath).mp h
    · cases hrows : f.rows record with
      | nil => exact .inl rfl
      | cons row rows =>
        have hrow : row.isNull = true := hnulls row (by simp [hrows])
        exact .inr ⟨row, List.mem_cons_self, by rw [f.valueIn_of_isNull hrow]; rfl⟩
    · exact .inr ⟨row, hmem, hnull⟩
  · rwa [isNull_withoutNulls_of_not record hpath] at h

/-- **An entry that decides** lets the test pass, which it does not do without the entry. -/
theorem FieldRef.NullByEntry.isNull (h : f.NullByEntry path record) :
    (Condition.test f .isNull).holds record = true ∧
      (Condition.test f .isNull).holds (record.withoutNulls path) = false := by
  constructor
  · obtain ⟨row, hmem, hrow⟩ := h.entry
    exact (isNull_holds_iff record).mpr (.inr ⟨row, hmem, by rw [f.valueIn_of_isNull hrow]; rfl⟩)
  · rw [Bool.eq_false_iff, Ne, isNull_withoutNulls_iff record h.along]
    rintro (hnulls | ⟨row, hmem, hfalse, hnull⟩)
    · obtain ⟨row, hmem, hrow⟩ := h.other
      rw [hnulls row hmem] at hrow
      cases hrow
    · rw [h.values row hmem hfalse] at hnull
      cases hnull

/-- **The only reason:** a test that passes with null entries and not without them is decided by one. -/
theorem nullByEntry_of_isNull (h : (Condition.test f .isNull).holds record = true)
    (hwithout : (Condition.test f .isNull).holds (record.withoutNulls path) = false) :
    f.NullByEntry path record := by
  have hpath : f.path ≠ [] ∧ f.path <+: path := by
    by_contra hpath
    rw [isNull_withoutNulls_of_not record hpath, h] at hwithout
    cases hwithout
  rw [Bool.eq_false_iff, Ne, isNull_withoutNulls_iff record hpath, not_or] at hwithout
  obtain ⟨hother, hvalues⟩ := hwithout
  simp only [not_forall, Bool.not_eq_true, exists_prop] at hother
  have hfull : ∀ row ∈ f.rows record, row.isNull = false → (f.valueIn row).isNull = false :=
    fun row hmem hfalse => Bool.eq_false_iff.mpr fun hnull => hvalues ⟨row, hmem, hfalse, hnull⟩
  obtain hnone | ⟨row, hmem, hnull⟩ := (isNull_holds_iff record).mp h
  · obtain ⟨row, hmem, -⟩ := hother
    simp [hnone] at hmem
  · -- every row that is not null has a value, so the row without one is a null entry
    refine ⟨hpath, ⟨row, hmem, ?_⟩, hother, hfull⟩
    by_contra hrow
    rw [hfull row hmem (Bool.eq_false_iff.mpr hrow)] at hnull
    cases hnull

end isNull

/-! ### Conditions -/

/-- Where no null entry decides a test for null, the record and what is left of it are not told apart. -/
theorem Condition.holds_withoutNulls {path : List String} {record : Json} : ∀ {c : Condition},
    (∀ f ∈ c.nullTests, ¬ f.NullByEntry path record) →
      c.holds (record.withoutNulls path) = c.holds record
  | .compare _ op v, _ => (TestsValue.compare op v).holds_withoutNulls path record
  | .member _ vs, _ => (TestsValue.member vs).holds_withoutNulls path record
  | .between _ low high, _ => (TestsValue.between low high).holds_withoutNulls path record
  | .like _ pattern negated, _ => (TestsValue.like pattern negated).holds_withoutNulls path record
  | .test _ .isTrue, _ => TestsValue.isTrue.holds_withoutNulls path record
  | .test _ .isFalse, _ => TestsValue.isFalse.holds_withoutNulls path record
  | .test _ .isNotNull, _ => TestsValue.isNotNull.holds_withoutNulls path record
  | .test f .isNull, h => by
    have hno : ¬ f.NullByEntry path record := h f (List.mem_singleton_self f)
    rw [Bool.eq_iff_iff]
    refine ⟨isNull_of_withoutNulls, fun hwith => ?_⟩
    by_contra hwithout
    exact hno (nullByEntry_of_isNull hwith (Bool.eq_false_iff.mpr hwithout))
  | .not c, h => congrArg Bool.not (holds_withoutNulls (c := c) h)
  | .and l r, h => by
    rw [nullTests, List.forall_mem_append] at h
    rw [holds, holds, holds_withoutNulls h.1, holds_withoutNulls h.2]
  | .or l r, h => by
    rw [nullTests, List.forall_mem_append] at h
    rw [holds, holds, holds_withoutNulls h.1, holds_withoutNulls h.2]

/-- **Null entries are seen by the test for null only.**  Without the null entries of the arrays along a
path a record satisfies the same conditions, as long as no such entry decides a test for null; in particular
a condition that tests no field for null does not see them.  A test for null that an entry decides passes
with the entry and not without, and any other test for null passes with the entries just if it passes
without. -/
theorem answers_withoutNulls (path : List String) (record : Json) {e : Evaluator} (he : e.Faithful) :
    (∀ c : Condition, (∀ f ∈ c.nullTests, ¬ f.NullByEntry path record) →
      ((Evaluator.holds (record.withoutNulls path) c).run e).1 = ((Evaluator.holds record c).run e).1) ∧
    ∀ f : FieldRef,
      (f.NullByEntry path record ↔ ((Evaluator.holds record (.test f .isNull)).run e).1 = true ∧
        ((Evaluator.holds (record.withoutNulls path) (.test f .isNull)).run e).1 = false) ∧
      (((Evaluator.holds (record.withoutNulls path) (.test f .isNull)).run e).1 = true →
        ((Evaluator.holds record (.test f .isNull)).run e).1 = true) := by
  have hholds : ∀ r c, ((Evaluator.holds r c).run e).1 = c.holds r :=
    fun r c => (Evaluator.holds_spec r c he).1
  simp only [hholds]
  refine ⟨fun c hc => Condition.holds_withoutNulls hc, fun f => ⟨?_, isNull_of_withoutNulls⟩⟩
  exact ⟨fun h => h.isNull, fun ⟨hwith, hwithout⟩ => nullByEntry_of_isNull hwith hwithout⟩

/-- Shelves with books, each with its title. -/
def shelfOf (books : List Json) : Json := .object [("books", .array books)]

def bookOf (title : Json) : Json := .object [("title", title)]

/-- The null entry of this shelf makes no difference: one of its books has no title anyway. -/
theorem answers_withoutNulls_titles :
    let f : FieldRef := ⟨["books"], "title", none⟩
    let c := Condition.and (.test f .isNull) (.compare f .equal (.text "A"))
    let record := shelfOf [.null, bookOf .null, bookOf (.string "A")]
    record.withoutNulls ["books"] = shelfOf [bookOf .null, bookOf (.string "A")] ∧
      (∀ g ∈ c.nullTests, ¬ g.NullByEntry ["books"] record) ∧
      ((Evaluator.holds (record.withoutNulls ["books"]) c).run .new).1 = true ∧
      ((Evaluator.holds record c).run .new).1 = true := by
  intro f c record
  have hno : ∀ g ∈ c.nullTests, ¬ g.NullByEntry ["books"] record := by
    intro g hg h
    cases List.mem_singleton.mp hg
    have hmem : bookOf .null ∈ f.rows record := List.mem_cons_of_mem _ List.mem_cons_self
    have hvalue := h.values _ hmem rfl
    cases hvalue
  have hwithout : ((Evaluator.holds (record.withoutNulls ["books"]) c).run .new).1 = true := by decide
  have hsame := (answers_withoutNulls ["books"] record Evaluator.faithful_new).1 c hno
  exact ⟨rfl, hno, hwithout, hsame.symm.trans hwithout⟩

/-- All books of this shelf have titles, and without the null entry no title is null. -/
theorem isNull_of_nullEntry :
    let titleIsNull := Condition.test ⟨["books"], "title", none⟩ .isNull
    let record := shelfOf [.null, bookOf (.string "A")]
    record.withoutNulls ["books"] = shelfOf [bookOf (.string "A")] ∧
      ((Evaluator.holds record titleIsNull).run .new).1 = true ∧
      ((Evaluator.holds (record.withoutNulls ["books"]) titleIsNull).run .new).1 = false :=
  ⟨rfl, by decide, by decide⟩

end RecordFilter

import Mathlib.Algebra.Order.Field.Rat
import Mathlib.Data.String.Basic
import Mathlib.Tactic.FieldSimp
import Mathlib.Tactic.NormNum
import Mathlib.Tactic.Positivity
import RecordFilter.Proofs.IntegerOrder
import RecordFilter.Proofs.Wildcards

/-!
# Fields with a single value

Where a record has a single value in a field, and the value is comparable with a literal, it is less, equal
or greater, and the other three comparisons are the opposites of these.  The value is less than all that the
literal is less than (`Value.AtMost`, the order of the values of one type), and so a bound can be raised or
lowered.  For this each order by which a value is compared has to be transitive; the numbers are ordered as
the rationals that their decimals stand for (`Decimal.compare_eq_compare_toRat`).

Of a test with a pattern and its negation one holds, and of the two tests for null (`single_value_laws`).
-/

namespace RecordFilter

open RecordFilter.Number RecordFilter.Calendar

/-! ### Orders -/

instance : Std.TransCmp Uuid.compare := inferInstanceAs (Std.TransCmp (compareOn Uuid.bits))

namespace Calendar

instance : Std.TransCmp Date.compare :=
  inferInstanceAs (Std.TransCmp (compareLex (compareOn Date.year)
    (compareLex (compareOn Date.month) (compareOn Date.day))))

instance : Std.TransCmp Time.compare :=
  inferInstanceAs (Std.TransCmp (compareLex (compareOn Time.hour) (compareLex (compareOn Time.minute)
    (compareLex (compareOn Time.second) (compareOn Time.nano)))))

instance : Std.TransCmp WallTime.compare :=
  letI : Ord Date := ⟨Date.compare⟩
  letI : Ord Time := ⟨Time.compare⟩
  haveI : Std.TransOrd Date := inferInstanceAs (Std.TransCmp Date.compare)
  haveI : Std.TransOrd Time := inferInstanceAs (Std.TransCmp Time.compare)
  inferInstanceAs (Std.TransCmp (compareLex (compareOn WallTime.date) (compareOn WallTime.time)))

instance : Std.TransCmp Instant.compare :=
  inferInstanceAs (Std.TransCmp (compareLex (compareOn Instant.seconds) (compareOn Instant.nano)))

end Calendar

namespace Number.Decimal

/-- The number that a decimal stands for. -/
def toRat (d : Decimal) : ℚ := d.scaled 0 / 10 ^ d.scale

theorem scaled_eq (d : Decimal) (places : Nat) : d.scaled places = d.scaled 0 * 10 ^ places := by
  unfold scaled
  simp only [power]
  split <;> simp

/-- **Decimals are ordered by the numbers that they stand for.** -/
theorem compare_eq_compare_toRat (a b : Decimal) : a.compare b = Ord.compare a.toRat b.toRat := by
  have hscaled : ∀ x y : Decimal, (x.scaled y.scale : ℚ) = x.toRat * (10 ^ x.scale * 10 ^ y.scale) := by
    intro x y
    rw [scaled_eq, toRat]
    push_cast
    field_simp
  have hpos : (0 : ℚ) < 10 ^ a.scale * 10 ^ b.scale := by positivity
  calc a.compare b
      = cmp (a.scaled b.scale) (b.scaled a.scale) := (cmp_eq_compare _ _).symm
    _ = cmp (a.scaled b.scale : ℚ) (b.scaled a.scale) := (Int.cast_strictMono.cmp_map_eq _ _).symm
    _ = cmp (a.toRat * (10 ^ a.scale * 10 ^ b.scale)) (b.toRat * (10 ^ a.scale * 10 ^ b.scale)) := by
      rw [hscaled a b, hscaled b a, mul_comm (10 ^ b.scale : ℚ)]
    _ = cmp a.toRat b.toRat := (strictMono_mul_right_of_pos hpos).cmp_map_eq _ _
    _ = Ord.compare a.toRat b.toRat := cmp_eq_compare _ _

instance : Std.TransCmp compare := by
  have h : compare = compareOn toRat := by
    funext a b
    exact compare_eq_compare_toRat a b
  rw [h]
  infer_instance

theorem toRat_of_ofInt? {n : Int} {d : Decimal} (h : ofInt? n = some d) : d.toRat = n := by
  obtain ⟨hscale, hscaled⟩ := scaled_of_ofInt? h
  rw [toRat, hscale, hscaled]
  simp

end Number.Decimal

/-- **The order of the values of one type**, if they are not binary numbers: of texts, of times, of numbers.
The value of an enumeration has the text of its variant, and not its place among the variants. -/
inductive Value.AtMost : Value → Value → Prop
  | text {s t : String} : s ≤ t → AtMost (.text s) (.text t)
  | bool {a b : Bool} : a ≤ b → AtMost (.bool a) (.bool b)
  | uuid {u v : Uuid} : u.bits ≤ v.bits → AtMost (.uuid u) (.uuid v)
  | date {d e : Date} : (d.compare e).isLE → AtMost (.date d) (.date e)
  | time {t u : Time} : (t.compare u).isLE → AtMost (.time t) (.time u)
  | dateTime {w x : WallTime} : (w.compare x).isLE → AtMost (.dateTime w) (.dateTime x)
  | zoned {y z : Zoned} : (y.instant.compare z.instant).isLE → AtMost (.zoned y) (.zoned z)
  | atOffset {y z : Zoned} : (y.instant.compare z.instant).isLE → AtMost (.atOffset y) (.atOffset z)
  | instant {t u : Instant} : (t.compare u).isLE → AtMost (.instant t) (.instant u)
  | timestamp {t u : Instant} : (t.compare u).isLE → AtMost (.timestamp t) (.timestamp u)
  | integer {width : IntWidth} {m n : Int} : m ≤ n → AtMost (.integer width m) (.integer width n)
  | bigInteger {m n : Int} : m ≤ n → AtMost (.bigInteger m) (.bigInteger n)
  | decimal {d e : Decimal} : d.toRat ≤ e.toRat → AtMost (.decimal d) (.decimal e)
  | enum {name s t : String} : s ≤ t → AtMost (.enum name s) (.enum name t)

section bounds

/-- What is less than a bound is less than a greater one, and what is greater than a bound is greater than a
lesser one. -/
theorem bound_mono {α : Type} (cmp : α → α → Ordering) [Std.TransCmp cmp] {a b : α}
    (hab : (cmp a b).isLE) {read : Option α} {p q : Ordering} (hp : read.map (cmp · a) = some p)
    (hq : read.map (cmp · b) = some q) : (p = .lt → q = .lt) ∧ (q = .gt → p = .gt) := by
  obtain ⟨c, hread, rfl⟩ := Option.map_eq_some_iff.mp hp
  obtain ⟨c', hread', rfl⟩ := Option.map_eq_some_iff.mp hq
  obtain rfl : c = c' := Option.some_inj.mp (hread.symm.trans hread')
  constructor
  · intro hless
    exact Std.TransCmp.lt_of_lt_of_isLE hless hab
  · intro hgreater
    have hba : (cmp b a).isGE := Std.OrientedCmp.isGE_iff_isLE.mpr hab
    exact Std.TransCmp.gt_of_gt_of_isGE hgreater hba

variable {j : Json} {p q : Ordering}

theorem Value.orderText?_eq_map {α ε : Type} (read : String → Except ε α) (cmp : α → α → Ordering)
    (a : α) (j : Json) :
    orderText? read cmp a j = (j.asString?.bind fun t => (read t).toOption).map (cmp · a) := by
  unfold orderText?
  cases j.asString? with
  | none => rfl
  | some t => cases hread : (read t).toOption <;> simp [hread]

theorem orderText?_mono {α ε : Type} {read : String → Except ε α} {cmp : α → α → Ordering}
    [Std.TransCmp cmp] {a b : α} (hab : (cmp a b).isLE) (hp : Value.orderText? read cmp a j = some p)
    (hq : Value.orderText? read cmp b j = some q) : (p = .lt → q = .lt) ∧ (q = .gt → p = .gt) := by
  rw [Value.orderText?_eq_map] at hp hq
  exact bound_mono cmp hab hp hq

/-- Numbers are compared by their decimals, if they have one. -/
theorem decimal_mono {x y : Option Decimal} (hxy : ∀ d ∈ x, ∀ e ∈ y, d.toRat ≤ e.toRat)
    (hp : (x.bind fun d => j.decimal?.bind fun c => some (c.compare d)) = some p)
    (hq : (y.bind fun e => j.decimal?.bind fun c => some (c.compare e)) = some q) :
    (p = .lt → q = .lt) ∧ (q = .gt → p = .gt) := by
  obtain ⟨d, hd, hp⟩ := Option.bind_eq_some_iff.mp hp
  obtain ⟨e, he, hq⟩ := Option.bind_eq_some_iff.mp hq
  have hde : (d.compare e).isLE := by
    rw [Decimal.compare_eq_compare_toRat]
    exact Std.LawfulBCmp.isLE_iff_le.mpr (hxy d hd e he)
  have hread : ∀ x : Decimal,
      (j.decimal?.bind fun c => some (c.compare x)) = j.decimal?.map (·.compare x) :=
    fun _ => Option.map_eq_bind.symm
  rw [hread] at hp hq
  exact bound_mono Decimal.compare hde hp hq

theorem toRat_le_of_integers {v w : Value} {m n : Int} (hv : v.integer? = some m) (hw : w.integer? = some n)
    (hmn : m ≤ n) : ∀ d ∈ v.decimal?, ∀ e ∈ w.decimal?, d.toRat ≤ e.toRat := by
  intro d hd e he
  rw [Value.decimal?_of_integer? hv] at hd
  rw [Value.decimal?_of_integer? hw] at he
  rw [Decimal.toRat_of_ofInt? hd, Decimal.toRat_of_ofInt? he]
  exact_mod_cast hmn

/-- **A bound can be raised, and lowered**, along the order of its type. -/
theorem Value.AtMost.order?_mono {v w : Value} (h : v.AtMost w) (hp : v.order? j = some p)
    (hq : w.order? j = some q) : (p = .lt → q = .lt) ∧ (q = .gt → p = .gt) := by
  cases h with
  | text h => exact bound_mono compare (Std.LawfulBCmp.isLE_iff_le.mpr h) hp hq
  | bool h => exact bound_mono compare (Std.LawfulBCmp.isLE_iff_le.mpr h) hp hq
  | enum h => exact bound_mono compare (Std.LawfulBCmp.isLE_iff_le.mpr h) hp hq
  | @uuid u v h =>
    have huv : (u.compare v).isLE := by
      rw [Uuid.compare]
      exact Std.LawfulBCmp.isLE_iff_le.mpr h
    exact orderText?_mono huv hp hq
  | date h => exact orderText?_mono h hp hq
  | time h => exact orderText?_mono h hp hq
  | dateTime h => exact orderText?_mono h hp hq
  | zoned h => exact bound_mono Instant.compare h hp hq
  | atOffset h => exact bound_mono Instant.compare h hp hq
  | instant h => exact bound_mono Instant.compare h hp hq
  | timestamp h => exact bound_mono Instant.compare h hp hq
  -- an integer beyond the capacity has no decimal, and is comparable with nothing
  | integer h => exact decimal_mono (toRat_le_of_integers rfl rfl h) hp hq
  | bigInteger h => exact decimal_mono (toRat_le_of_integers rfl rfl h) hp hq
  | @decimal d e h =>
    have hde : ∀ x ∈ some d, ∀ y ∈ some e, x.toRat ≤ y.toRat := by simpa using h
    exact decimal_mono hde hp hq

end bounds

/-! ### One value -/

/-- Of the three strict comparisons one asks for the order of the two. -/
theorem existsUnique_requires (o : Ordering) :
    ∃! op, op ∈ [Comparison.less, .equal, .greater] ∧ op.requires o = true := by
  cases o with
  | lt => exact ⟨.less, ⟨by simp, rfl⟩, by simp [Comparison.requires]⟩
  | eq => exact ⟨.equal, ⟨by simp, rfl⟩, by simp [Comparison.requires]⟩
  | gt => exact ⟨.greater, ⟨by simp, rfl⟩, by simp [Comparison.requires]⟩

/-- What an evaluator answers. -/
def Evaluator.answer (e : Evaluator) (record : Json) (c : Condition) : Bool := ((holds record c).run e).1

theorem Evaluator.answer_eq_holds {e : Evaluator} (he : e.Faithful) (record : Json) (c : Condition) :
    e.answer record c = c.holds record :=
  (Evaluator.holds_spec record c he).1

theorem holds_compare_single {f : FieldRef} {record j : Json} (hreach : f.reach record = [j]) {v : Value}
    {o : Ordering} (ho : v.order? j = some o) (op : Comparison) :
    (Condition.compare f op v).holds record = op.requires o := by
  rw [Condition.holds, hreach, List.any_cons, List.any_nil, Bool.or_false, Comparison.passes_eq, ordersAs, ho]

/-- **Fields with a single value.**  If a record has one value in a field: of "less", "equal" and "greater"
one passes for every literal that is comparable with it, and the other comparisons are opposites; a bound can
be moved to any other that is comparable, up for "less" and down for "greater"; of a test with a usable
pattern and its negation one passes, if the value has a text; and it is null or not. -/
theorem single_value_laws {f : FieldRef} {record j : Json} (hreach : f.reach record = [j]) {e : Evaluator}
    (he : e.Faithful) :
    (∀ v : Value, (v.order? j).isSome →
      (∃! op, op ∈ [Comparison.less, .equal, .greater] ∧ e.answer record (.compare f op v) = true) ∧
      e.answer record (.compare f .notEqual v) = !e.answer record (.compare f .equal v) ∧
      e.answer record (.compare f .greaterOrEqual v) = !e.answer record (.compare f .less v) ∧
      e.answer record (.compare f .lessOrEqual v) = !e.answer record (.compare f .greater v)) ∧
    (∀ v w : Value, v.AtMost w → (v.order? j).isSome → (w.order? j).isSome →
      (e.answer record (.compare f .less v) = true → e.answer record (.compare f .less w) = true) ∧
      (e.answer record (.compare f .greater w) = true →
        e.answer record (.compare f .greater v) = true)) ∧
    (j ≠ .null → (∀ items, j ≠ .array items) → (∀ members, j ≠ .object members) →
      ∀ placement text, let pattern := Compiler.likePattern placement (Text.upper text)
        (LikePattern.ofText? pattern).isSome →
          e.answer record (.like f pattern true) = !e.answer record (.like f pattern false)) ∧
    e.answer record (.test f .isNotNull) = !e.answer record (.test f .isNull) := by
  simp only [Evaluator.answer_eq_holds he]
  refine ⟨fun v hv => ?_, fun v w hvw hv hw => ?_, fun hnull harray hobject placement text hp => ?_, ?_⟩
  · obtain ⟨o, ho⟩ := Option.isSome_iff_exists.mp hv
    simp only [holds_compare_single hreach ho]
    refine ⟨existsUnique_requires o, ?_, ?_, ?_⟩ <;> cases o <;> rfl
  · obtain ⟨p, hp⟩ := Option.isSome_iff_exists.mp hv
    obtain ⟨q, hq⟩ := Option.isSome_iff_exists.mp hw
    obtain ⟨hless, hgreater⟩ := hvw.order?_mono hp hq
    simp only [holds_compare_single hreach hp, holds_compare_single hreach hq, Comparison.requires,
      Ordering.isLT_iff_eq_lt, Ordering.isGT_iff_eq_gt]
    exact ⟨hless, hgreater⟩
  · obtain ⟨p, hp⟩ := Option.isSome_iff_exists.mp hp
    obtain ⟨held, hheld⟩ := exists_likeText hnull harray hobject
    simp [Condition.holds, likePasses, hp, hreach, LikePattern.passes, hheld]
  · simp [Condition.holds, hreach, Test.passes]

/-- A price that is stored as text is less than two and a half, and so less than two and three quarters. -/
theorem single_value_laws_price :
    let f : FieldRef := ⟨[], "price", none⟩
    let record := Json.object [("price", .string "2.490")]
    let low := Value.decimal ⟨false, 25, 1⟩
    let high := Value.decimal ⟨false, 275, 2⟩
    let pattern := Compiler.likePattern .anywhere (Text.upper "49")
    (∃! op, op ∈ [Comparison.less, .equal, .greater] ∧
        Evaluator.new.answer record (.compare f op low) = true) ∧
      Evaluator.new.answer record (.compare f .less high) = true ∧
      Evaluator.new.answer record (.like f pattern true) = false ∧
      Evaluator.new.answer record (.test f .isNotNull) = true := by
  intro f record low high pattern
  have hreach : f.reach record = [.string "2.490"] := rfl
  obtain ⟨horder, hbound, hlike, hnull⟩ := single_value_laws hreach Evaluator.faithful_new
  have hlow : (low.order? (.string "2.490")).isSome := by decide
  have hhigh : (high.order? (.string "2.490")).isSome := by decide
  have hraised : low.AtMost high := by
    refine .decimal ?_
    norm_num [Decimal.toRat, Decimal.scaled, power]
  refine ⟨(horder low hlow).1, (hbound low high hraised hlow hhigh).1 ?_, ?_, ?_⟩
  · decide
  · rw [hlike (by simp) (by simp) (by simp) .anywhere "49" (by decide)]
    decide
  · rw [hnull]
    decide

end RecordFilter

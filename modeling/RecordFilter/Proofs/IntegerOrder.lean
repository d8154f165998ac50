import Mathlib.Algebra.Order.Ring.Int
import Mathlib.Data.List.Basic
import RecordFilter.Proofs.OnePredicate

/-!
# Integers compared

Integers of all widths are compared as decimals.  An integer has a decimal just if its magnitude is below
`Decimal.capacity`, and then it is the decimal of the integer itself, whether the integer is turned into
it or printed and read again (`read_toString`); the order of these decimals is that of the integers
(`ofInt?_compare`).

So a comparison of a field of integers with a literal is the comparison of integers for all literals
below the capacity, and for a literal beyond it nothing passes, not even `!=` (`integer_comparison`).
-/

namespace RecordFilter

open RecordFilter.Number RecordFilter.Text

/-! ### Decimals of integers -/

namespace Number.Decimal

/-- The decimal of an integer is the integer. -/
theorem scaled_of_ofInt? {n : Int} {d : Decimal} (h : ofInt? n = some d) :
    d.scale = 0 ∧ d.scaled 0 = n := by
  have hone : power 10 0 = 1 := rfl
  unfold ofInt? at h
  split at h
  · cases h
    refine ⟨rfl, ?_⟩
    simp only [scaled, hone, Nat.cast_one, mul_one]
    by_cases hn : n < 0
    · rw [if_pos (by simpa using hn)]
      omega
    · rw [if_neg (by simpa using hn)]
      omega
  · cases h

/-- **The order of the decimals of integers is that of the integers.** -/
theorem ofInt?_compare {m n : Int} {a b : Decimal} (ha : ofInt? m = some a) (hb : ofInt? n = some b) :
    a.compare b = Ord.compare m n := by
  obtain ⟨has, hav⟩ := scaled_of_ofInt? ha
  obtain ⟨hbs, hbv⟩ := scaled_of_ofInt? hb
  rw [compare, has, hbs, hav, hbv]

/-! ### Digits read as a decimal -/

/-- The value of digits behind a value. -/
def valueBehind (m : Nat) (ds : List Char) : Nat := Nat.ofDigitChars 10 ds m

theorem valueBehind_nil (m : Nat) : valueBehind m [] = m := Nat.ofDigitChars_nil

theorem valueBehind_cons (m : Nat) (d : Char) (ds : List Char) :
    valueBehind m (d :: ds) = valueBehind (10 * m + digitValue d) ds := Nat.ofDigitChars_cons

theorem le_valueBehind (m : Nat) (ds : List Char) : m ≤ valueBehind m ds := by
  induction ds generalizing m with
  | nil => rw [valueBehind_nil]
  | cons d ds ih =>
    have h := ih (10 * m + digitValue d)
    rw [valueBehind_cons]
    omega

theorem digitValue_lt {c : Char} (h : c.isDigit = true) : digitValue c < 10 := by
  have hc := Char.isDigit_iff_toNat.mp h
  have hnine : '9'.toNat = 57 := rfl
  unfold digitValue
  omega

/-- Digits are read up to the capacity. -/
theorem readWide_digits {ds : List Char} (hd : ∀ d ∈ ds, d.isDigit = true) {m : Nat}
    (hm : m < capacity) :
    (readWide false m 0 ds).toOption =
      if valueBehind m ds < capacity then some (valueBehind m ds, 0) else none := by
  induction ds generalizing m with
  | nil =>
    rw [valueBehind_nil, if_pos hm]
    rfl
  | cons d ds ih =>
    rw [List.forall_mem_cons] at hd
    have hvalue := le_valueBehind (10 * m + digitValue d) ds
    rw [readWide, if_pos hd.1, if_neg (by simp), valueBehind_cons]
    by_cases hn : 10 * m + digitValue d < capacity
    · rw [if_pos hn]
      exact ih hd.2 hn
    · rw [if_neg hn, if_neg (by omega)]
      rfl

theorem wideStart_lt : 10 * wideStart + 10 < capacity := by decide

/-- The same from the beginning on; a short text has not so many digits as to pass the capacity. -/
theorem readNarrow_digits {long seen : Bool} {ds : List Char} (hd : ∀ d ∈ ds, d.isDigit = true)
    {m : Nat} (hseen : seen = true ∨ ds ≠ []) (hlong : long = true → m < wideStart)
    (hshort : long = false → valueBehind m ds < capacity) :
    (readNarrow long false seen m 0 ds).toOption =
      if valueBehind m ds < capacity then some (valueBehind m ds, 0) else none := by
  have hstart := wideStart_lt
  induction ds generalizing m seen with
  | nil =>
    have hm : m < capacity := by
      cases long with
      | true =>
        have h := hlong rfl
        omega
      | false =>
        rw [valueBehind_nil] at hshort
        exact hshort rfl
    have hs : seen = true := hseen.resolve_right fun h => h rfl
    rw [valueBehind_nil, if_pos hm, readNarrow, if_pos hs]
    rfl
  | cons d ds ih =>
    rw [List.forall_mem_cons] at hd
    have hdigit := digitValue_lt hd.1
    rw [valueBehind_cons] at hshort ⊢
    rw [readNarrow, if_pos hd.1, if_neg (by simp)]
    dsimp only
    by_cases hwide : long = true ∧ 10 * m + digitValue d ≥ wideStart
    · -- a long text goes on with the wide reader, which looks at the capacity
      have hm := hlong hwide.1
      rw [if_pos (by simpa using hwide)]
      exact readWide_digits hd.2 (by omega)
    · rw [if_neg (by simpa using hwide)]
      refine ih hd.2 (Or.inl rfl) (fun hl => ?_) hshort
      by_contra hge
      exact hwide ⟨hl, by omega⟩

/-! ### Printed integers -/

theorem digits_repr (n : Nat) : ∀ d ∈ n.repr.toList, d.isDigit = true := by
  intro d hd
  rw [Nat.toList_repr] at hd
  exact Nat.isDigit_of_mem_toDigits (by decide) (by decide) hd

theorem repr_ne_nil (n : Nat) : n.repr.toList ≠ [] := by
  rw [Nat.toList_repr]
  exact Nat.toDigits_ne_nil

theorem valueBehind_repr (n : Nat) : valueBehind 0 n.repr.toList = n := by
  rw [Nat.toList_repr]
  exact Nat.ofDigitChars_ten_toDigits

theorem length_le_utf8ByteSize (cs : List Char) : cs.length ≤ (String.ofList cs).utf8ByteSize := by
  induction cs with
  | nil => exact Nat.zero_le _
  | cons c cs ih =>
    have h : String.ofList (c :: cs) = String.ofList [c] ++ String.ofList cs := by
      rw [← String.ofList_append]
      rfl
    have hc : (String.ofList [c]).utf8ByteSize = c.utf8Size := String.utf8ByteSize_singleton
    have hpos := c.utf8Size_pos
    rw [h, String.utf8ByteSize_append, hc, List.length_cons]
    omega

/-- The digits of a number are read as the number, in a text of at least their length. -/
theorem readNarrow_repr (n : Nat) {size : Nat} (hsize : n.repr.toList.length ≤ size) :
    (readNarrow (longText ≤ size) false false 0 0 n.repr.toList).toOption =
      if n < capacity then some (n, 0) else none := by
  have hstart : (0 : Nat) < wideStart := by decide
  rw [readNarrow_digits (digits_repr n) (Or.inr (repr_ne_nil n)) (fun _ => hstart) ?_, valueBehind_repr]
  intro hshort
  rw [valueBehind_repr]
  have hlength : (Nat.toDigits 10 n).length ≤ 17 := by
    rw [← Nat.toList_repr]
    have h : ¬ longText ≤ size := of_decide_eq_false hshort
    unfold longText at h
    omega
  have hn := (Nat.length_toDigits_le_iff (by decide) (by decide)).mp hlength
  have hcapacity : 10 ^ 17 < capacity := by decide
  omega

theorem ofInt?_natCast (n : Nat) :
    ofInt? n = (if n < capacity then some (n, 0) else none).map fun r => make false r.1 r.2 := by
  unfold ofInt?
  by_cases hn : n < capacity
  · simp [hn, make]
  · simp [hn]

theorem ofInt?_negSucc (n : Nat) :
    ofInt? (Int.negSucc n) =
      (if n + 1 < capacity then some (n + 1, 0) else none).map fun r => make true r.1 r.2 := by
  have hneg : Int.negSucc n < 0 := Int.negSucc_lt_zero n
  have habs : (Int.negSucc n).natAbs = n + 1 := rfl
  unfold ofInt?
  rw [habs]
  by_cases hn : n + 1 < capacity
  · simp [hn, make, hneg]
  · simp [hn]

theorem toOption_map {ε α β : Type} (x : Except ε α) (f : α → β) :
    (x.map f).toOption = x.toOption.map f := by
  cases x <;> rfl

/-- Digits without a sign. -/
theorem readPlain_of_digits {text : String} (hd : ∀ d ∈ text.toList, d.isDigit = true)
    (hne : text.toList ≠ []) :
    readPlain text =
      (readNarrow (longText ≤ text.utf8ByteSize) false false 0 0 text.toList).map fun r =>
        make false r.1 r.2 := by
  unfold readPlain
  cases htext : text.toList with
  | nil => exact absurd htext hne
  | cons d ds =>
    rw [htext] at hd
    have hdigit := hd d List.mem_cons_self
    dsimp only
    split
    · rename_i h
      cases h
    · rename_i h
      cases h
      cases hdigit
    · rename_i h
      cases h
      cases hdigit
    · rfl

/-- What is printed of an integer is read as its decimal. -/
theorem readPlain_toString (n : Int) : (readPlain (toString n)).toOption = ofInt? n := by
  cases n with
  | ofNat n =>
    have htext : toString (Int.ofNat n) = n.repr := rfl
    have hsize : n.repr.toList.length ≤ n.repr.utf8ByteSize := by
      have h := length_le_utf8ByteSize n.repr.toList
      rwa [String.ofList_toList] at h
    rw [htext, readPlain_of_digits (digits_repr n) (repr_ne_nil n), toOption_map, readNarrow_repr n hsize]
    exact (ofInt?_natCast n).symm
  | negSucc n =>
    have htext : (toString (Int.negSucc n)).toList = '-' :: (n + 1).repr.toList := by
      have h : toString (Int.negSucc n) = "-" ++ (n + 1).repr := rfl
      rw [h, String.toList_append]
      rfl
    have hsize : (n + 1).repr.toList.length ≤ (toString (Int.negSucc n)).utf8ByteSize := by
      have h := length_le_utf8ByteSize (toString (Int.negSucc n)).toList
      rw [String.ofList_toList, htext, List.length_cons] at h
      omega
    have hread : readPlain (toString (Int.negSucc n)) =
        (readNarrow (longText ≤ (toString (Int.negSucc n)).utf8ByteSize) false false 0 0
          (n + 1).repr.toList).map fun r => make true r.1 r.2 := by
      unfold readPlain
      rw [htext]
      rfl
    rw [hread, toOption_map, readNarrow_repr (n + 1) hsize]
    exact (ofInt?_negSucc n).symm

theorem not_isExponentMark_toString (n : Int) : (toString n).toList.any isExponentMark = false := by
  have hdigit : ∀ d : Char, d.isDigit = true → isExponentMark d = false := by
    intro d hd
    rw [Bool.eq_false_iff]
    intro hmark
    rw [isExponentMark, Bool.or_eq_true, beq_iff_eq, beq_iff_eq] at hmark
    rcases hmark with rfl | rfl <;> cases hd
  rw [List.any_eq_false]
  intro d hd
  rw [Bool.not_eq_true]
  cases n with
  | ofNat n => exact hdigit d (digits_repr n d hd)
  | negSucc n =>
    have h : toString (Int.negSucc n) = "-" ++ (n + 1).repr := rfl
    rw [h, String.toList_append] at hd
    rcases List.mem_append.mp hd with hd | hd
    · cases List.mem_singleton.mp hd
      rfl
    · exact hdigit d (digits_repr (n + 1) d hd)

/-- **An integer that is printed and read** has the decimal of the integer. -/
theorem read_toString (n : Int) : (read (toString n)).toOption = ofInt? n := by
  rw [← readPlain_toString n]
  unfold read
  cases readPlain (toString n) with
  | ok d => rfl
  | error fault =>
    dsimp only
    rw [not_isExponentMark_toString, if_neg (by simp)]

end Number.Decimal

/-! ### Integers against integers -/

/-- The integer that a value is. -/
def Value.integer? : Value → Option Int
  | integer _ n => some n
  | bigInteger n => some n
  | _ => none

theorem Value.decimal?_of_integer? {v : Value} {n : Int} (h : v.integer? = some n) :
    v.decimal? = Decimal.ofInt? n := by
  cases v with
  | integer w k =>
    cases h
    rfl
  | bigInteger k =>
    cases h
    exact Decimal.read_toString n
  | _ => cases h

/-- What holds between integers under a comparison. -/
def Comparison.Holds : Comparison → Int → Int → Prop
  | .equal, m, n => m = n
  | .notEqual, m, n => m ≠ n
  | .greater, m, n => m > n
  | .greaterOrEqual, m, n => m ≥ n
  | .less, m, n => m < n
  | .lessOrEqual, m, n => m ≤ n

theorem Comparison.requires_compare (op : Comparison) (m n : Int) :
    op.requires (compare m n) = true ↔ op.Holds m n := by
  rcases lt_trichotomy m n with h | rfl | h
  · rw [compare_lt_iff_lt.mpr h]
    cases op <;> simp [requires, Holds] <;> omega
  · rw [compare_eq_iff_eq.mpr rfl]
    cases op <;> simp [requires, Holds]
  · rw [compare_gt_iff_gt.mpr h]
    cases op <;> simp [requires, Holds] <;> omega

/-- **A record's integer against an integer literal.** -/
theorem ordersAs_integer (op : Comparison) {v : Value} {m n : Int} (hv : v.integer? = some n)
    (hm : m.natAbs < Decimal.capacity) :
    ordersAs op v (.integer m) = true ↔ n.natAbs < Decimal.capacity ∧ op.Holds m n := by
  have horder : v.order? (.integer m) =
      v.decimal?.bind fun d => (Decimal.ofInt? m).bind fun e => some (e.compare d) := by
    cases v <;> rfl
  have hofm : Decimal.ofInt? m = some ⟨m < 0, m.natAbs, 0⟩ := if_pos hm
  rw [Value.decimal?_of_integer? hv, hofm] at horder
  unfold ordersAs
  by_cases hn : n.natAbs < Decimal.capacity
  · have hofn : Decimal.ofInt? n = some ⟨n < 0, n.natAbs, 0⟩ := if_pos hn
    have hcompare := Decimal.ofInt?_compare hofm hofn
    rw [hofn] at horder
    have horder : v.order? (.integer m) = some (compare m n) := horder.trans (congrArg some hcompare)
    rw [horder]
    exact (op.requires_compare m n).trans (iff_and_self.mpr fun _ => hn)
  · have hofn : Decimal.ofInt? n = none := if_neg hn
    rw [hofn] at horder
    have horder : v.order? (.integer m) = none := horder
    rw [horder]
    exact iff_of_false nofun fun h => hn h.1

/-- Literals of a built-in type that are integers. -/
def ReadsInteger (s : Schema) (t : FieldType) (x : Operand) (n : Int) : Prop :=
  ∃ v, Registry.builtIn.read s t x.text = .ok v ∧ v.integer? = some n

theorem natAbs_lt_capacity {m : Int} (hleast : -2 ^ 63 ≤ m) (hgreatest : m < 2 ^ 64) :
    m.natAbs < Decimal.capacity := by
  have hcapacity : 2 ^ 64 < Decimal.capacity := by decide
  omega

/-- **Comparisons of integers.**  A comparison of a field with a literal that the built-in reader reads as
an integer compiles, and so does a range.  For a record with a single integer in the field, of the integers
that JSON has, the comparison passes if and only if it holds between the two integers and the magnitude
of the literal is below `2 ^ 96`, and the range if and only if the integer lies in it and the magnitudes of
both bounds are. -/
theorem integer_comparison {mapPath : String → String} {s : Schema} {root path : String} {t : FieldType}
    {cache : FieldCache} (hc : cache.Coherent s) (hn : "" ∉ Text.pieces '.' (mapPath path))
    (htype : s.typeAlong? root (Text.pieces '.' (mapPath path)) = some t) (old : List JoinRecord) :
    (∀ (text : String) (op : Comparison) (x : Operand) (n : Int),
      Writes text path (.compare op) [x] → ReadsInteger s t x n →
        ∃ cond, (Compiler.compile ⟨.builtIn, mapPath⟩ (Condition.backend s root) old cache
            text).result = .ok cond ∧
          ∀ (record : Json) (m : Int) (e : Evaluator), e.Faithful →
            valuesAt (Text.pieces '.' (mapPath path)) record = [.integer m] →
            -2 ^ 63 ≤ m → m < 2 ^ 64 →
              (((Evaluator.holds record cond).run e).1 = true ↔ n.natAbs < 2 ^ 96 ∧ op.Holds m n)) ∧
      ∀ (text : String) (low high : Operand) (lo hi : Int),
        Writes text path .between [low, high] → ReadsInteger s t low lo → ReadsInteger s t high hi →
          ∃ cond, (Compiler.compile ⟨.builtIn, mapPath⟩ (Condition.backend s root) old cache
              text).result = .ok cond ∧
            ∀ (record : Json) (m : Int) (e : Evaluator), e.Faithful →
              valuesAt (Text.pieces '.' (mapPath path)) record = [.integer m] →
              -2 ^ 63 ≤ m → m < 2 ^ 64 →
                (((Evaluator.holds record cond).run e).1 = true ↔
                  (lo.natAbs < 2 ^ 96 ∧ hi.natAbs < 2 ^ 96) ∧ lo ≤ m ∧ m ≤ hi) := by
  have hcapacity : Decimal.capacity = 2 ^ 96 := rfl
  constructor
  · rintro text op x n hwrites ⟨v, hread, hv⟩
    obtain ⟨cond, hcond, hanswer⟩ := hwrites.compare (c := ⟨.builtIn, mapPath⟩) hc hn htype hread old
    refine ⟨cond, hcond, fun record m e he hvalues hleast hgreatest => ?_⟩
    rw [hanswer record e he, hvalues, List.any_cons, List.any_nil, Bool.or_false,
      ordersAs_integer op hv (natAbs_lt_capacity hleast hgreatest), hcapacity]
  · rintro text low high lo hi hwrites ⟨v, hlow, hv⟩ ⟨w, hhigh, hw⟩
    obtain ⟨cond, hcond, hanswer⟩ :=
      hwrites.between (c := ⟨.builtIn, mapPath⟩) hc hn htype hlow hhigh old
    refine ⟨cond, hcond, fun record m e he hvalues hleast hgreatest => ?_⟩
    have hm := natAbs_lt_capacity hleast hgreatest
    rw [hanswer record e he, hvalues, List.any_cons, List.any_nil, Bool.or_false, Bool.and_eq_true,
      ordersAs_integer .greaterOrEqual hv hm, ordersAs_integer .lessOrEqual hw hm, hcapacity]
    simp only [Comparison.Holds, ge_iff_le]
    tauto

/-- Counters that may be beyond every word. -/
def counters : Schema := ⟨⟨0⟩, [⟨"Counter", none, [⟨"n", .integer .w128⟩]⟩], []⟩

/-- The greatest integer of JSON against a literal, and in a range up to the greatest integer that has a
decimal. -/
theorem integer_comparison_greatest :
    let text := "n > -1"
    let range := "n between -1 and 79228162514264337593543950335"
    let record := Json.object [("n", .integer 18446744073709551615)]
    (∃ cond, (Compiler.compile ⟨.builtIn, id⟩ (Condition.backend counters "Counter") [] .empty
        text).result = .ok cond ∧ ((Evaluator.holds record cond).run .new).1 = true) ∧
      ∃ cond, (Compiler.compile ⟨.builtIn, id⟩ (Condition.backend counters "Counter") [] .empty
        range).result = .ok cond ∧ ((Evaluator.holds record cond).run .new).1 = true := by
  intro text range record
  have hn : "" ∉ Text.pieces '.' (id "n") := by decide
  have htype : counters.typeAlong? "Counter" (Text.pieces '.' (id "n")) = some (.integer .w128) := by
    decide
  have hwrites : Writes text "n" (.compare .greater) [.number "-1"] := ⟨⟨1, 1⟩, by decide +kernel⟩
  have hranges : Writes range "n" .between [.number "-1", .number "79228162514264337593543950335"] :=
    ⟨⟨1, 1⟩, by decide +kernel⟩
  have hlow : ReadsInteger counters (.integer .w128) (.number "-1") (-1) :=
    ⟨.integer .w128 (-1), by decide +kernel, rfl⟩
  have hhigh : ReadsInteger counters (.integer .w128) (.number "79228162514264337593543950335")
      79228162514264337593543950335 := ⟨.integer .w128 79228162514264337593543950335, by decide +kernel, rfl⟩
  obtain ⟨hcompare, hbetween⟩ :=
    integer_comparison (FieldCache.empty_coherent counters) hn htype []
  obtain ⟨cond, hcond, hanswer⟩ := hcompare text _ _ _ hwrites hlow
  obtain ⟨cond', hcond', hanswer'⟩ := hbetween range _ _ _ _ hranges hlow hhigh
  have hgreater : Comparison.greater.Holds 18446744073709551615 (-1) := by
    unfold Comparison.Holds
    decide
  refine ⟨⟨cond, hcond, (hanswer record _ .new Evaluator.faithful_new rfl ?_ ?_).mpr ?_⟩,
    cond', hcond', (hanswer' record _ .new Evaluator.faithful_new rfl ?_ ?_).mpr ?_⟩
  · decide
  · decide
  · exact ⟨by decide, hgreater⟩
  · decide
  · decide
  · decide

/-- An integer that has no decimal differs from nothing: five is not unequal to `2 ^ 100`. -/
theorem integer_beyond_capacity :
    let text := "n != 1267650600228229401496703205376"
    let record := Json.object [("n", .integer 5)]
    Writes text "n" (.compare .notEqual) [.number "1267650600228229401496703205376"] ∧
      ReadsInteger counters (.integer .w128) (.number "1267650600228229401496703205376") (2 ^ 100) ∧
      valuesAt ["n"] record = [.integer 5] ∧ Comparison.notEqual.Holds 5 (2 ^ 100) ∧
      ∃ cond, (Compiler.compile ⟨.builtIn, id⟩ (Condition.backend counters "Counter") [] .empty
          text).result = .ok cond ∧
        ((Evaluator.holds record cond).run .new).1 = false := by
  intro text record
  have hread : ReadsInteger counters (.integer .w128) (.number "1267650600228229401496703205376")
      (2 ^ 100) := ⟨.integer .w128 1267650600228229401496703205376, by decide +kernel, rfl⟩
  have hcond : (Compiler.compile ⟨.builtIn, id⟩ (Condition.backend counters "Counter") [] .empty
      text).result = .ok (.compare ⟨[], "n", none⟩ .notEqual
        (.integer .w128 1267650600228229401496703205376)) := by
    decide +kernel
  have hne : Comparison.notEqual.Holds 5 (2 ^ 100) := by
    unfold Comparison.Holds
    decide
  exact ⟨⟨⟨1, 1⟩, by decide +kernel⟩, hread, rfl, hne, _, hcond, by decide⟩

end RecordFilter

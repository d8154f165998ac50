import RecordFilter.Proofs.IntegerOrder

/-!
# Numbers in texts

A number can be told from its text. A run of digits ends at the first character that is no digit
(`digits_append_inj`), and a sign in front of the digits is no digit either (`sign_append_inj`); so the
text around a number does not matter, as long as no digit follows. The zeros that fill up a number do
not change its value (`padded_append_inj`).

Two hexadecimal numbers of the same length, two integers and two decimals are the same if their texts are
(`Uuid.render_inj`, `toString_inj`, `Decimal.render_inj`). For decimals this is more than equality by value:
the sign of a zero and trailing zeros are in the text.
-/

namespace RecordFilter.Number

open RecordFilter.Text Decimal

/-! ### Runs of digits -/

/-- No digit stands at the beginning of the text. -/
def EndsDigits (r : List Char) : Prop := ∀ c ∈ r.head?, c.isDigit = false

theorem endsDigits_nil : EndsDigits [] := nofun

theorem endsDigits_cons {c : Char} (h : c.isDigit = false) (r : List Char) : EndsDigits (c :: r) := by
  rintro d ⟨⟩
  exact h

theorem takeWhile_of_endsDigits {r : List Char} (h : EndsDigits r) : r.takeWhile Char.isDigit = [] := by
  cases r with
  | nil => rfl
  | cons c r =>
    have hc : c.isDigit = false := h c rfl
    exact List.takeWhile_cons_of_neg (by simp [hc])

/-- **Digits in front of something else** are told from it. -/
theorem digits_append_inj {ds es r t : List Char} (hd : ∀ d ∈ ds, d.isDigit = true)
    (he : ∀ d ∈ es, d.isDigit = true) (hr : EndsDigits r) (ht : EndsDigits t) (h : ds ++ r = es ++ t) :
    ds = es ∧ r = t := by
  have hrun := congrArg (List.takeWhile Char.isDigit) h
  rw [List.takeWhile_append_of_pos hd, List.takeWhile_append_of_pos he, takeWhile_of_endsDigits hr,
    takeWhile_of_endsDigits ht, List.append_nil, List.append_nil] at hrun
  rw [hrun] at h
  exact ⟨hrun, List.append_cancel_left h⟩

/-- **A sign in front of digits** is told from them. -/
theorem sign_append_inj {a b : Option Char} {ds es : List Char} (ha : ∀ c ∈ a, c.isDigit = false)
    (hb : ∀ c ∈ b, c.isDigit = false) (hd : ∀ d ∈ ds.head?, d.isDigit = true)
    (he : ∀ d ∈ es.head?, d.isDigit = true) (h : a.toList ++ ds = b.toList ++ es) :
    a = b ∧ ds = es := by
  have hmixed : ∀ {c : Char} {ds es : List Char}, c.isDigit = false →
      (∀ d ∈ ds.head?, d.isDigit = true) → ds ≠ c :: es := by
    rintro c ds es hc hds rfl
    rw [hds c rfl] at hc
    cases hc
  cases a with
  | none =>
    cases b with
    | none => exact ⟨rfl, h⟩
    | some c => exact absurd h (hmixed (hb c rfl) hd)
  | some c =>
    cases b with
    | none => exact absurd h.symm (hmixed (ha c rfl) he)
    | some d =>
      obtain ⟨rfl, hrest⟩ := List.cons.inj h
      exact ⟨rfl, hrest⟩

theorem head?_append_of_digits {ds : List Char} (hd : ∀ d ∈ ds, d.isDigit = true) (hne : ds ≠ [])
    (r : List Char) : ∀ d ∈ (ds ++ r).head?, d.isDigit = true := by
  cases ds with
  | nil => exact absurd rfl hne
  | cons c ds =>
    rintro d ⟨⟩
    exact hd c List.mem_cons_self

/-! ### Numbers filled up with zeros -/

theorem toList_padded (width n : Nat) :
    (padded width n).toList = List.replicate (width - n.repr.toList.length) '0' ++ n.repr.toList :=
  String.toList_ofList

theorem digits_padded (width n : Nat) : ∀ d ∈ (padded width n).toList, d.isDigit = true := by
  intro d hd
  rw [toList_padded] at hd
  rcases List.mem_append.mp hd with hd | hd
  · rw [List.eq_of_mem_replicate hd]
    rfl
  · exact digits_repr n d hd

theorem padded_ne_nil (width n : Nat) : (padded width n).toList ≠ [] := by
  rw [toList_padded]
  exact List.append_ne_nil_of_right_ne_nil _ (repr_ne_nil n)

/-- The zeros do not change the value. -/
theorem valueBehind_zeros (k : Nat) (ds : List Char) :
    valueBehind 0 (List.replicate k '0' ++ ds) = valueBehind 0 ds := by
  unfold valueBehind
  rw [Nat.ofDigitChars_append, Nat.ofDigitChars_replicate_zero, Nat.mul_zero]

theorem valueBehind_padded (width n : Nat) : valueBehind 0 (padded width n).toList = n := by
  rw [toList_padded, valueBehind_zeros, valueBehind_repr]

theorem length_padded {width n : Nat} (hw : 0 < width) (h : n < 10 ^ width) :
    (padded width n).toList.length = width := by
  have hlength : n.repr.toList.length ≤ width := by
    rw [Nat.toList_repr]
    exact (Nat.length_toDigits_le_iff (by decide) hw).mpr h
  rw [toList_padded, List.length_append, List.length_replicate]
  omega

/-- **A number that is filled up** is told from its text, whatever the widths. -/
theorem padded_append_inj {width width' m n : Nat} {r t : List Char} (hr : EndsDigits r)
    (ht : EndsDigits t) (h : (padded width m).toList ++ r = (padded width' n).toList ++ t) :
    m = n ∧ r = t := by
  obtain ⟨hdigits, hrest⟩ := digits_append_inj (digits_padded width m) (digits_padded width' n) hr ht h
  have hvalue := congrArg (valueBehind 0) hdigits
  rw [valueBehind_padded, valueBehind_padded] at hvalue
  exact ⟨hvalue, hrest⟩

/-! ### Integers -/

/-- The minus sign of a negative number. -/
def minus? (negative : Bool) : Option Char := if negative then some '-' else none

theorem minus?_inj {a b : Bool} (h : minus? a = minus? b) : a = b := by
  revert a b
  decide

theorem not_isDigit_minus? (negative : Bool) : ∀ c ∈ minus? negative, c.isDigit = false := by
  cases negative <;> rintro c ⟨⟩
  rfl

theorem toList_toString (n : Int) :
    (toString n).toList = (minus? (n < 0)).toList ++ n.natAbs.repr.toList := by
  cases n with
  | ofNat n => rfl
  | negSucc n =>
    have h : toString (Int.negSucc n) = "-" ++ (n + 1).repr := rfl
    have hsign : (minus? (Int.negSucc n < 0)).toList = "-".toList := by
      rw [decide_eq_true (Int.negSucc_lt_zero n)]
      rfl
    rw [h, hsign, String.toList_append]
    rfl

/-- **An integer** is told from its text. -/
theorem toString_inj {m n : Int} (h : toString m = toString n) : m = n := by
  have hlist := congrArg String.toList h
  have hhead : ∀ k : Nat, ∀ d ∈ k.repr.toList.head?, d.isDigit = true := fun k => by
    simpa using head?_append_of_digits (digits_repr k) (repr_ne_nil k) []
  rw [toList_toString, toList_toString] at hlist
  obtain ⟨hsign, hdigits⟩ := sign_append_inj (not_isDigit_minus? _) (not_isDigit_minus? _)
    (hhead _) (hhead _) hlist
  have hnegative : decide (m < 0) = decide (n < 0) := minus?_inj hsign
  have habs := congrArg (valueBehind 0) hdigits
  rw [valueBehind_repr, valueBehind_repr] at habs
  rw [decide_eq_decide] at hnegative
  omega

/-! ### Fractions -/

/-- The point and the digits behind it; there is none without a digit. -/
def pointed (fraction : List Char) : List Char := if fraction = [] then [] else '.' :: fraction

/-- Neither a digit nor a point stands at the beginning of the text. -/
def EndsNumber (r : List Char) : Prop := ∀ c ∈ r.head?, c.isDigit = false ∧ c ≠ '.'

theorem endsNumber_nil : EndsNumber [] := nofun

theorem endsNumber_cons {c : Char} (h : c.isDigit = false ∧ c ≠ '.') (r : List Char) :
    EndsNumber (c :: r) := by
  rintro d ⟨⟩
  exact h

theorem EndsNumber.endsDigits {r : List Char} (h : EndsNumber r) : EndsDigits r := fun c hc => (h c hc).1

theorem EndsNumber.pointed {r : List Char} (h : EndsNumber r) (fraction : List Char) :
    EndsDigits (Number.pointed fraction ++ r) := by
  unfold Number.pointed
  split
  · exact h.endsDigits
  · exact endsDigits_cons rfl _

/-- **A fraction** is told from what follows it. -/
theorem pointed_append_inj {ds es r t : List Char} (hd : ∀ d ∈ ds, d.isDigit = true)
    (he : ∀ d ∈ es, d.isDigit = true) (hr : EndsNumber r) (ht : EndsNumber t)
    (h : pointed ds ++ r = pointed es ++ t) : ds = es ∧ r = t := by
  have hmixed : ∀ {es r t : List Char}, EndsNumber r → r ≠ '.' :: es ++ t := by
    rintro es r t hr rfl
    exact (hr '.' rfl).2 rfl
  unfold pointed at h
  split at h
  · next hds =>
    split at h
    · next hes => exact ⟨hds.trans hes.symm, h⟩
    · exact absurd h (hmixed hr)
  · split at h
    · exact absurd h.symm (hmixed ht)
    · exact digits_append_inj hd he hr.endsDigits ht.endsDigits (List.cons.inj h).2

/-! ### Decimals -/

namespace Decimal

/-- The digits of a decimal in front of its point and behind it. -/
structure Written (d : Decimal) (whole fraction : List Char) : Prop where
  whole_digits : ∀ c ∈ whole, c.isDigit = true
  whole_ne_nil : whole ≠ []
  fraction_digits : ∀ c ∈ fraction, c.isDigit = true
  scale : fraction.length = d.scale
  mantissa : valueBehind 0 (whole ++ fraction) = d.mantissa

/-- The text of a decimal is its sign, its digits and a point between them. -/
theorem exists_written (d : Decimal) : ∃ whole fraction, d.Written whole fraction ∧
    d.render.toList = (minus? d.negative).toList ++ (whole ++ (pointed fraction ++ [])) := by
  have hsign : (if d.negative then "-" else "").toList = (minus? d.negative).toList := by
    cases d.negative <;> rfl
  unfold render
  dsimp only
  split
  · next hscale =>
    refine ⟨d.mantissa.repr.toList, [],
      ⟨digits_repr _, repr_ne_nil _, nofun, hscale.symm, ?_⟩, ?_⟩
    · rw [List.append_nil, valueBehind_repr]
    · rw [String.toList_append, hsign, String.toList_ofList]
      simp [pointed]
  · next hscale =>
    -- as many zeros in front that one digit at least is left of the point
    generalize hds : List.replicate (d.scale + 1 - d.mantissa.repr.toList.length) '0' ++
      d.mantissa.repr.toList = ds
    have hlength : d.scale + 1 ≤ ds.length := by
      rw [← hds, List.length_append, List.length_replicate]
      omega
    have hdigits : ∀ c ∈ ds, c.isDigit = true := by
      rw [← hds]
      exact toList_padded (d.scale + 1) d.mantissa ▸ digits_padded (d.scale + 1) d.mantissa
    have hvalue : valueBehind 0 ds = d.mantissa := by
      rw [← hds, valueBehind_zeros, valueBehind_repr]
    have hfraction : (ds.drop (ds.length - d.scale)).length = d.scale := by
      rw [List.length_drop]
      omega
    have hwhole : (ds.take (ds.length - d.scale)).length ≠ 0 := by
      rw [List.length_take]
      omega
    refine ⟨ds.take (ds.length - d.scale), ds.drop (ds.length - d.scale),
      ⟨fun c hc => hdigits c (List.mem_of_mem_take hc), fun h => hwhole (by rw [h]; rfl),
        fun c hc => hdigits c (List.mem_of_mem_drop hc), hfraction, ?_⟩, ?_⟩
    · rw [List.take_append_drop, hvalue]
    · have hne : ds.drop (ds.length - d.scale) ≠ [] := fun h => hscale (by rw [← hfraction, h]; rfl)
      rw [String.toList_append, hsign, String.toList_ofList, pointed, if_neg hne, List.append_nil]

/-- **A decimal** is told from its text: its sign, its mantissa and its scale. -/
theorem render_inj {a b : Decimal} (h : a.render = b.render) : a = b := by
  have hlist := congrArg String.toList h
  obtain ⟨whole, fraction, ha, hatext⟩ := exists_written a
  obtain ⟨whole', fraction', hb, hbtext⟩ := exists_written b
  rw [hatext, hbtext] at hlist
  obtain ⟨hsign, hrest⟩ := sign_append_inj (not_isDigit_minus? _) (not_isDigit_minus? _)
    (head?_append_of_digits ha.whole_digits ha.whole_ne_nil _)
    (head?_append_of_digits hb.whole_digits hb.whole_ne_nil _) hlist
  obtain ⟨rfl, hpoint⟩ := digits_append_inj ha.whole_digits hb.whole_digits
    (endsNumber_nil.pointed fraction) (endsNumber_nil.pointed fraction') hrest
  obtain ⟨rfl, -⟩ := pointed_append_inj ha.fraction_digits hb.fraction_digits endsNumber_nil
    endsNumber_nil hpoint
  have hnegative : a.negative = b.negative := minus?_inj hsign
  have hmantissa : a.mantissa = b.mantissa := ha.mantissa.symm.trans hb.mantissa
  have hscale : a.scale = b.scale := ha.scale.symm.trans hb.scale
  cases a
  cases b
  cases hnegative
  cases hmantissa
  cases hscale
  rfl

end Decimal

end RecordFilter.Number

namespace RecordFilter.Uuid

/-! ### Hexadecimal numbers -/

theorem hexValue?_digitChar {d : Nat} (h : d < 16) : hexValue? d.digitChar = some d := by
  revert d
  decide

theorem hexNumber_concat (cs : List Char) {d : Nat} (h : d < 16) :
    hexNumber (cs ++ [d.digitChar]) = 16 * hexNumber cs + d := by
  unfold hexNumber
  rw [List.foldl_concat, hexValue?_digitChar h]

theorem hexNumber_toDigits (n : Nat) : hexNumber (Nat.toDigits 16 n) = n := by
  induction n using Nat.strongRecOn with
  | ind n ih =>
    rw [Nat.toDigits_eq_if (by decide)]
    split
    · next h =>
      have hdigit := hexNumber_concat [] h
      have hnil : hexNumber [] = 0 := rfl
      rwa [hnil, Nat.mul_zero, Nat.zero_add] at hdigit
    · next h =>
      rw [hexNumber_concat _ (Nat.mod_lt n (by decide)), ih (n / 16) (by omega)]
      omega

theorem hexNumber_zeros (k : Nat) (cs : List Char) :
    hexNumber (List.replicate k '0' ++ cs) = hexNumber cs := by
  induction k with
  | zero => rfl
  | succ k ih => exact ih

theorem hexNumber_hexText (count n : Nat) : hexNumber (hexText count n) = n := by
  unfold hexText
  rw [hexNumber_zeros, hexNumber_toDigits]

theorem le_length_hexText (count n : Nat) : count ≤ (hexText count n).length := by
  unfold hexText
  rw [List.length_append, List.length_replicate]
  omega

/-- The digits of the five groups, one behind the other. -/
theorem groups_inj {ds es : List Char} (hd : 32 ≤ ds.length) (he : 32 ≤ es.length)
    (h : ds.take 8 ++ '-' :: (ds.drop 8).take 4 ++ '-' :: (ds.drop 12).take 4 ++
        '-' :: (ds.drop 16).take 4 ++ '-' :: ds.drop 20 =
      es.take 8 ++ '-' :: (es.drop 8).take 4 ++ '-' :: (es.drop 12).take 4 ++
        '-' :: (es.drop 16).take 4 ++ '-' :: es.drop 20) : ds = es := by
  have hgroup : ∀ (cs : List Char) (i : Nat),
      (cs.drop i).take 4 ++ cs.drop (i + 4) = cs.drop i := fun cs i => by
    rw [← List.drop_drop, List.take_append_drop]
  have hsplit : ∀ cs : List Char, cs.take 8 ++ ((cs.drop 8).take 4 ++ ((cs.drop 12).take 4 ++
      ((cs.drop 16).take 4 ++ cs.drop 20))) = cs := fun cs => by
    rw [hgroup cs 16, hgroup cs 12, hgroup cs 8, List.take_append_drop]
  simp only [List.append_assoc, List.cons_append] at h
  obtain ⟨h₁, h⟩ := List.append_inj h (by simp; omega)
  obtain ⟨h₂, h⟩ := List.append_inj (List.cons.inj h).2 (by simp; omega)
  obtain ⟨h₃, h⟩ := List.append_inj (List.cons.inj h).2 (by simp; omega)
  obtain ⟨h₄, h⟩ := List.append_inj (List.cons.inj h).2 (by simp; omega)
  rw [← hsplit ds, ← hsplit es, h₁, h₂, h₃, h₄, (List.cons.inj h).2]

/-- **A UUID** is told from its text. -/
theorem render_inj {u v : Uuid} (h : u.render = v.render) : u = v := by
  have hlist := congrArg String.toList h
  unfold render at hlist
  rw [String.toList_ofList, String.toList_ofList] at hlist
  have hdigits := groups_inj (le_length_hexText 32 u.bits) (le_length_hexText 32 v.bits) hlist
  have hbits := congrArg hexNumber hdigits
  rw [hexNumber_hexText, hexNumber_hexText] at hbits
  cases u
  cases v
  cases hbits
  rfl

end RecordFilter.Uuid

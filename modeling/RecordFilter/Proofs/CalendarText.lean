import Mathlib.Tactic.Ring
import RecordFilter.Proofs.Numerals

/-!
# Dates and times in texts

A date can be told from its text, and so can a time of day, a wall-clock time and an instant
(`Date.render_append_inj`, `Time.render_append_inj`, `WallTime.render_inj`, `Instant.render_inj`). For a
time this rests on what it may be: nanoseconds beyond a whole second belong to second 59, which is then
written as 60 (`Time.Regular`). Without that, a leap second and the second after second 59 would look alike.

The text of an instant is that of the wall-clock time that a clock with its offset shows, so the instant
has to be found again from a date. This is the Gregorian calendar: `Date.toDays` undoes `Date.ofDays`
(`Date.toDays_ofDays`).
-/

namespace RecordFilter.Calendar

open RecordFilter.Text RecordFilter.Number

/-! ### Days -/

namespace Date

/-- The year in which a day of the four centuries lies: `r` days into the four years `k` of the century
`f`. The last four years of a century are one day shorter, except in the last century. -/
theorem year_of_day {day f k r : Int} (hf : 0 ≤ f ∧ f ≤ 3) (hk : 0 ≤ k ∧ k ≤ 24) (hr : 0 ≤ r ∧ r < 1461)
    (hlast : k = 24 → f ≠ 3 → r < 1460) (h : day = 36524 * f + 1461 * k + r) :
    (day - day / 1460 + day / 36524 - day / 146096) / 365 = 100 * f + 4 * k + min 3 (r / 365) := by
  have hcentury : day / 36524 = f + if f = 3 ∧ k = 24 ∧ r = 1460 then 1 else 0 := by
    split <;> omega
  have hall : day / 146096 = if f = 3 ∧ k = 24 ∧ r = 1460 then 1 else 0 := by
    split <;> omega
  have hfour : day / 1460 = 25 * f + k ∨ day / 1460 = 25 * f + k + 1 ∧ 1364 ≤ r := by
    omega
  rw [hcentury, hall]
  omega

theorem exists_year_of_day {day : Int} (h : 0 ≤ day ∧ day < 146097) :
    ∃ year dayOfYear : Int, (day - day / 1460 + day / 36524 - day / 146096) / 365 = year ∧
      day = 365 * year + year / 4 - year / 100 + dayOfYear ∧
      0 ≤ year ∧ year < 400 ∧ 0 ≤ dayOfYear ∧ dayOfYear ≤ 365 := by
  obtain ⟨f, hf⟩ : ∃ f, f = min 3 (day / 36524) := ⟨_, rfl⟩
  obtain ⟨k, hk⟩ : ∃ k, k = (day - 36524 * f) / 1461 := ⟨_, rfl⟩
  obtain ⟨r, hr⟩ : ∃ r, r = (day - 36524 * f) % 1461 := ⟨_, rfl⟩
  have hfbound : 0 ≤ f ∧ f ≤ 3 := by omega
  have hkbound : 0 ≤ k ∧ k ≤ 24 := by omega
  have hrbound : 0 ≤ r ∧ r < 1461 := by omega
  have hlast : k = 24 → f ≠ 3 → r < 1460 := by omega
  have hday : day = 36524 * f + 1461 * k + r := by omega
  obtain ⟨y, hy⟩ : ∃ y, y = min 3 (r / 365) := ⟨_, rfl⟩
  have hyear : (100 * f + 4 * k + y) / 4 = 25 * f + k := by omega
  have hcentury : (100 * f + 4 * k + y) / 100 = f := by omega
  refine ⟨100 * f + 4 * k + y, r - 365 * y, ?_, ?_, ?_⟩
  · rw [hy]
    exact year_of_day hfbound hkbound hrbound hlast hday
  · rw [hyear, hcentury, hday]
    ring
  · omega

/-- The date at a day of a year that begins in March. -/
def ofDayOfYear (year dayOfYear : Int) : Date :=
  let month := (5 * dayOfYear + 2) / 153
  let civilMonth := if month < 10 then month + 3 else month - 9
  ⟨year + (if civilMonth ≤ 2 then 1 else 0), civilMonth.toNat,
    (dayOfYear - (153 * month + 2) / 5 + 1).toNat⟩

theorem toDays_ofDayOfYear {century year dayOfYear : Int} (hyear : 0 ≤ year ∧ year < 400)
    (hday : 0 ≤ dayOfYear ∧ dayOfYear ≤ 365) :
    (ofDayOfYear (century * 400 + year) dayOfYear).toDays =
      century * 146097 + year * 365 + year / 4 - year / 100 + dayOfYear - 719468 := by
  obtain ⟨month, hmonth⟩ : ∃ m, m = (5 * dayOfYear + 2) / 153 := ⟨_, rfl⟩
  have hbound : 0 ≤ month ∧ month ≤ 11 := by omega
  have hdayOfMonth : 0 ≤ dayOfYear - (153 * month + 2) / 5 := by omega
  have hcentury : (century * 400 + year) / 400 = century := by omega
  have hmod : (century * 400 + year) % 400 = year := by omega
  unfold ofDayOfYear toDays
  dsimp only
  simp only [← hmonth]
  by_cases hlate : month < 10
  · have hm : (month + 3).toNat = month + 3 := Int.toNat_of_nonneg (by omega)
    have hafter : ¬(month + 3).toNat ≤ 2 := by omega
    have hafter' : ¬month + 3 ≤ 2 := by omega
    simp only [if_pos hlate, if_neg hafter, if_neg hafter', Int.add_zero, hcentury, hmod, hm]
    omega
  · have hm : (month - 9).toNat = month - 9 := Int.toNat_of_nonneg (by omega)
    have hbefore : (month - 9).toNat ≤ 2 := by omega
    have hbefore' : month - 9 ≤ 2 := by omega
    simp only [if_neg hlate, if_pos hbefore, if_pos hbefore', Int.add_sub_cancel, hcentury, hmod, hm]
    omega

/-- **The two directions of the calendar:** the date of a day is that of the day. -/
theorem toDays_ofDays (days : Int) : (ofDays days).toDays = days := by
  obtain ⟨century, hcentury⟩ : ∃ c, c = (days + 719468) / 146097 := ⟨_, rfl⟩
  obtain ⟨day, hday⟩ : ∃ d, d = (days + 719468) % 146097 := ⟨_, rfl⟩
  obtain ⟨year, dayOfYear, hyear, hsplit, hyear₀, hyear₄₀₀, hdayOfYear⟩ :=
    exists_year_of_day (show 0 ≤ day ∧ day < 146097 by omega)
  have hdate : ofDays days = ofDayOfYear (century * 400 + year) dayOfYear := by
    have hrest : dayOfYear = day - (365 * year + year / 4 - year / 100) := by omega
    rw [hrest, ← hyear, hcentury, hday]
    rfl
  rw [hdate, toDays_ofDayOfYear ⟨hyear₀, hyear₄₀₀⟩ hdayOfYear]
  omega

end Date

/-! ### Dates -/

/-- The sign of a year that has one. -/
def yearSign? (year : Int) : Option Char :=
  if 0 ≤ year ∧ year ≤ 9999 then none else some (if year < 0 then '-' else '+')

theorem not_isDigit_yearSign? (year : Int) : ∀ c ∈ yearSign? year, c.isDigit = false := by
  unfold yearSign?
  split_ifs <;> rintro c ⟨⟩ <;> rfl

theorem toList_yearText (year : Int) :
    (Date.yearText year).toList = (yearSign? year).toList ++ (padded 4 year.natAbs).toList := by
  have hplus : ∀ (sign : String) (c : Char), sign.toList = [c] →
      (sign ++ padded 4 year.natAbs).toList = (some c).toList ++ (padded 4 year.natAbs).toList := by
    rintro sign c hc
    rw [String.toList_append, hc, Option.toList_some]
  unfold Date.yearText yearSign?
  by_cases hyear : 0 ≤ year ∧ year ≤ 9999
  · have hnat : year.toNat = year.natAbs := by omega
    rw [if_pos hyear, if_pos hyear, hnat, Option.toList_none, List.nil_append]
  · rw [if_neg hyear, if_neg hyear]
    by_cases hsign : year < 0
    · rw [if_pos hsign, if_pos hsign, hplus "-" '-' rfl]
    · rw [if_neg hsign, if_neg hsign, hplus "+" '+' rfl]

/-- Years with the same sign have the same sense. -/
theorem eq_of_yearSign? {y z : Int} (hs : yearSign? y = yearSign? z) (h : y.natAbs = z.natAbs) :
    y = z := by
  unfold yearSign? at hs
  split_ifs at hs <;> first | omega | cases hs

/-- **A date** is told from what follows it. -/
theorem Date.render_append_inj {a b : Date} {r t : List Char} (hr : EndsDigits r) (ht : EndsDigits t)
    (h : a.render.toList ++ r = b.render.toList ++ t) : a = b ∧ r = t := by
  have htext : ∀ (d : Date) (r : List Char), d.render.toList ++ r =
      (yearSign? d.year).toList ++ ((padded 4 d.year.natAbs).toList ++
        '-' :: ((padded 2 d.month).toList ++ '-' :: ((padded 2 d.day).toList ++ r))) := fun d r => by
    simp [render, toList_yearText]
  rw [htext, htext] at h
  obtain ⟨hsign, h⟩ := sign_append_inj (not_isDigit_yearSign? _) (not_isDigit_yearSign? _)
    (head?_append_of_digits (digits_padded _ _) (padded_ne_nil _ _) _)
    (head?_append_of_digits (digits_padded _ _) (padded_ne_nil _ _) _) h
  obtain ⟨hyear, h⟩ := padded_append_inj (endsDigits_cons rfl _) (endsDigits_cons rfl _) h
  obtain ⟨hmonth, h⟩ :=
    padded_append_inj (endsDigits_cons rfl _) (endsDigits_cons rfl _) (List.cons.inj h).2
  obtain ⟨hday, hrest⟩ := padded_append_inj hr ht (List.cons.inj h).2
  cases a
  cases b
  cases eq_of_yearSign? hsign hyear
  cases hmonth
  cases hday
  exact ⟨rfl, hrest⟩

theorem Date.render_inj {a b : Date} (h : a.render = b.render) : a = b := by
  have hlist : a.render.toList ++ [] = b.render.toList ++ [] := by rw [h]
  exact (render_append_inj endsDigits_nil endsDigits_nil hlist).1

/-! ### Times of day -/

/-- **The times that are written:** the nanoseconds pass a whole second in second 59 only. -/
structure Time.Regular (t : Time) : Prop where
  second : t.second < 60
  nano : t.nano < nanosPerSecond ∨ t.second = 59 ∧ t.nano < 2 * nanosPerSecond

namespace Time

/-- Hours, minutes and seconds are told from what follows them. -/
theorem renderWhole_append_inj {a b : Time} {r t : List Char} (hr : EndsDigits r) (ht : EndsDigits t)
    (h : a.renderWhole.toList ++ r = b.renderWhole.toList ++ t) :
    a.hour = b.hour ∧ a.minute = b.minute ∧ a.writtenSecond = b.writtenSecond ∧ r = t := by
  have htext : ∀ (c : Time) (r : List Char), c.renderWhole.toList ++ r =
      (padded 2 c.hour).toList ++ ':' :: ((padded 2 c.minute).toList ++
        ':' :: ((padded 2 c.writtenSecond).toList ++ r)) := fun c r => by
    simp [renderWhole]
  rw [htext, htext] at h
  obtain ⟨hhour, h⟩ := padded_append_inj (endsDigits_cons rfl _) (endsDigits_cons rfl _) h
  obtain ⟨hminute, h⟩ :=
    padded_append_inj (endsDigits_cons rfl _) (endsDigits_cons rfl _) (List.cons.inj h).2
  obtain ⟨hsecond, hrest⟩ := padded_append_inj hr ht (List.cons.inj h).2
  exact ⟨hhour, hminute, hsecond, hrest⟩

/-- Three, six or nine digits say how many nanoseconds there are. -/
theorem exists_fractionText {nano : Nat} (h : nano < nanosPerSecond) :
    ∃ ds, (∀ d ∈ ds, d.isDigit = true) ∧ (fractionText nano).toList = pointed ds ∧
      Decimal.valueBehind 0 ds * 10 ^ (9 - ds.length) = nano := by
  have hbound : nano < 1000000000 := h
  have hpoint : ∀ width n : Nat,
      ("." ++ padded width n).toList = pointed (padded width n).toList := fun width n => by
    rw [String.toList_append, pointed, if_neg (padded_ne_nil width n)]
    rfl
  unfold fractionText
  split_ifs with hzero hmilli hmicro
  · exact ⟨[], List.forall_mem_nil _, rfl, by rw [hzero]; rfl⟩
  · refine ⟨_, digits_padded 3 _, hpoint 3 _, ?_⟩
    rw [valueBehind_padded, length_padded (by decide) (by omega)]
    omega
  · refine ⟨_, digits_padded 6 _, hpoint 6 _, ?_⟩
    rw [valueBehind_padded, length_padded (by decide) (by omega)]
    omega
  · refine ⟨_, digits_padded 9 _, hpoint 9 _, ?_⟩
    rw [valueBehind_padded, length_padded (by decide) (by omega)]
    omega

/-- A fraction of a second is told from what follows it. -/
theorem fractionText_append_inj {m n : Nat} {r t : List Char} (hm : m < nanosPerSecond)
    (hn : n < nanosPerSecond) (hr : EndsNumber r) (ht : EndsNumber t)
    (h : (fractionText m).toList ++ r = (fractionText n).toList ++ t) : m = n ∧ r = t := by
  obtain ⟨ds, hds, hmtext, hmvalue⟩ := exists_fractionText hm
  obtain ⟨es, hes, hntext, hnvalue⟩ := exists_fractionText hn
  rw [hmtext, hntext] at h
  obtain ⟨rfl, hrest⟩ := pointed_append_inj hds hes hr ht h
  exact ⟨hmvalue.symm.trans hnvalue, hrest⟩

theorem endsDigits_fractionText {nano : Nat} {r : List Char} (h : nano < nanosPerSecond)
    (hr : EndsNumber r) : EndsDigits ((fractionText nano).toList ++ r) := by
  obtain ⟨ds, -, htext, -⟩ := exists_fractionText h
  rw [htext]
  exact hr.pointed ds

/-- Only a leap second is written as second 60. -/
theorem Regular.eq_of_written {a b : Time} (ha : a.Regular) (hb : b.Regular) (hhour : a.hour = b.hour)
    (hminute : a.minute = b.minute) (hsecond : a.writtenSecond = b.writtenSecond)
    (hnano : a.nano % nanosPerSecond = b.nano % nanosPerSecond) : a = b := by
  obtain ⟨hour, minute, second, nano⟩ := a
  obtain ⟨hour', minute', second', nano'⟩ := b
  obtain ⟨ha₆₀, ha⟩ := ha
  obtain ⟨hb₆₀, hb⟩ := hb
  dsimp only at *
  have hboth : second = second' ∧ nano = nano' := by
    unfold writtenSecond at hsecond
    unfold nanosPerSecond at *
    dsimp only at hsecond
    split_ifs at hsecond <;> omega
  rw [hhour, hminute, hboth.1, hboth.2]

/-- **A time of day** is told from what follows it. -/
theorem render_append_inj {a b : Time} {r t : List Char} (ha : a.Regular) (hb : b.Regular)
    (hr : EndsNumber r) (ht : EndsNumber t) (h : a.render.toList ++ r = b.render.toList ++ t) :
    a = b ∧ r = t := by
  have hbound : ∀ nano : Nat, nano % nanosPerSecond < nanosPerSecond := fun nano =>
    Nat.mod_lt nano (by decide)
  unfold render at h
  rw [String.toList_append, String.toList_append, List.append_assoc, List.append_assoc] at h
  obtain ⟨hhour, hminute, hsecond, h⟩ := renderWhole_append_inj
    (endsDigits_fractionText (hbound _) hr) (endsDigits_fractionText (hbound _) ht) h
  obtain ⟨hnano, hrest⟩ := fractionText_append_inj (hbound _) (hbound _) hr ht h
  exact ⟨ha.eq_of_written hb hhour hminute hsecond hnano, hrest⟩

theorem render_inj {a b : Time} (ha : a.Regular) (hb : b.Regular) (h : a.render = b.render) : a = b := by
  have hlist : a.render.toList ++ [] = b.render.toList ++ [] := by rw [h]
  exact (render_append_inj ha hb endsNumber_nil endsNumber_nil hlist).1

theorem toSeconds_ofSeconds (seconds nano : Nat) : (ofSeconds seconds nano).toSeconds = seconds := by
  unfold ofSeconds toSeconds
  dsimp only
  omega

end Time

/-! ### Wall-clock times -/

namespace WallTime

/-- **A wall-clock time** to the second is told from its text. -/
theorem render_inj {a b : WallTime} (ha : a.time.Regular) (hb : b.time.Regular)
    (hanano : a.time.nano % nanosPerSecond = 0) (hbnano : b.time.nano % nanosPerSecond = 0)
    (h : a.render = b.render) : a = b := by
  have hlist := congrArg String.toList h
  have htext : ∀ w : WallTime, w.render.toList =
      w.date.render.toList ++ ' ' :: (w.time.renderWhole.toList ++ []) := fun w => by
    simp [render]
  rw [htext, htext] at hlist
  obtain ⟨hdate, hlist⟩ := Date.render_append_inj (endsDigits_cons rfl _) (endsDigits_cons rfl _) hlist
  obtain ⟨hhour, hminute, hsecond, -⟩ :=
    Time.renderWhole_append_inj endsDigits_nil endsDigits_nil (List.cons.inj hlist).2
  have htime := ha.eq_of_written hb hhour hminute hsecond (hanano.trans hbnano.symm)
  cases a
  cases b
  cases hdate
  cases htime
  rfl

/-- The seconds of a wall-clock time are told from its date and its time. -/
theorem ofSeconds_inj {s t : Int} {m n : Nat} (h : ofSeconds s m = ofSeconds t n) : s = t ∧ m = n := by
  have hdays := congrArg (fun w => w.date.toDays) h
  have hseconds := congrArg (fun w => w.time.toSeconds) h
  have hnano : m = n := congrArg (fun w => w.time.nano) h
  unfold ofSeconds at hdays hseconds
  dsimp only at hdays hseconds
  rw [Date.toDays_ofDays, Date.toDays_ofDays] at hdays
  rw [Time.toSeconds_ofSeconds, Time.toSeconds_ofSeconds] at hseconds
  refine ⟨?_, hnano⟩
  omega

end WallTime

/-! ### Instants -/

/-- **The instants that are written:** the nanoseconds pass a whole second in the last second of a minute
only. -/
def Instant.Regular (t : Instant) : Prop :=
  t.nano < nanosPerSecond ∨ t.seconds % 60 = 59 ∧ t.nano < 2 * nanosPerSecond

namespace Instant

/-- A clock whose offset is in whole minutes shows a leap second as one. -/
theorem Regular.time {t : Instant} (h : t.Regular) {offset : Int} (ho : 60 ∣ offset) :
    (WallTime.ofSeconds (t.seconds + offset) t.nano).time.Regular := by
  unfold WallTime.ofSeconds Time.ofSeconds
  refine ⟨?_, ?_⟩
  · dsimp only
    omega
  · dsimp only
    refine h.imp_right fun ⟨hsecond, hnano⟩ => ⟨?_, hnano⟩
    omega

theorem toList_offsetText (offset : Int) :
    (offsetText offset).toList = (if offset < 0 then '-' else '+') ::
      ((padded 2 (offset.natAbs / 3600)).toList ++
        ':' :: ((padded 2 (offset.natAbs / 60 % 60)).toList ++ [])) := by
  unfold offsetText
  split <;> simp

theorem endsNumber_offsetText (offset : Int) : EndsNumber (offsetText offset).toList := by
  rw [toList_offsetText]
  refine endsNumber_cons ?_ _
  split <;> decide

/-- An offset in whole minutes is told from its text. -/
theorem offsetText_inj {o p : Int} (ho : 60 ∣ o) (hp : 60 ∣ p)
    (h : (offsetText o).toList = (offsetText p).toList) : o = p := by
  rw [toList_offsetText, toList_offsetText] at h
  obtain ⟨hsign, h⟩ := List.cons.inj h
  obtain ⟨hhours, h⟩ := padded_append_inj (endsDigits_cons rfl _) (endsDigits_cons rfl _) h
  obtain ⟨hminutes, -⟩ := padded_append_inj endsDigits_nil endsDigits_nil (List.cons.inj h).2
  have habs : o.natAbs = p.natAbs := by omega
  split_ifs at hsign
  all_goals first | omega | cases hsign

/-- **An instant** with the offset of its clock is told from its text. -/
theorem render_inj {t u : Instant} {o p : Int} (ht : t.Regular) (hu : u.Regular) (ho : 60 ∣ o)
    (hp : 60 ∣ p) (h : t.render o = u.render p) : t = u ∧ o = p := by
  have hlist := congrArg String.toList h
  have htext : ∀ (t : Instant) (o : Int), (t.render o).toList =
      (WallTime.ofSeconds (t.seconds + o) t.nano).date.render.toList ++
        'T' :: ((WallTime.ofSeconds (t.seconds + o) t.nano).time.render.toList ++
          (offsetText o).toList) := fun t o => by
    simp [render]
  rw [htext, htext] at hlist
  obtain ⟨hdate, hlist⟩ := Date.render_append_inj (endsDigits_cons rfl _) (endsDigits_cons rfl _) hlist
  obtain ⟨htime, hoffset⟩ := Time.render_append_inj (ht.time ho) (hu.time hp) (endsNumber_offsetText o)
    (endsNumber_offsetText p) (List.cons.inj hlist).2
  have hsame : o = p := offsetText_inj ho hp hoffset
  have hwall : WallTime.ofSeconds (t.seconds + o) t.nano = WallTime.ofSeconds (u.seconds + p) u.nano :=
    WallTime.mk.injEq .. |>.mpr ⟨hdate, htime⟩
  obtain ⟨hseconds, hnano⟩ := WallTime.ofSeconds_inj hwall
  have hboth : t.seconds = u.seconds := by omega
  cases t
  cases u
  cases hboth
  cases hnano
  exact ⟨rfl, hsame⟩

end Instant

end RecordFilter.Calendar

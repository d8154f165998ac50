import Mathlib.Tactic.IntervalCases
import Mathlib.Tactic.Ring
import RecordFilter.Proofs.CalendarText

/-!
# Wall-clock times and instants

The clocks of a zone show a wall-clock time at every instant (`Zone.Shows`): the same one at two instants in
the hour in which they are put back, and none of the times that are skipped when they are put forward.
`WallTime.inZone?` goes the other way.  `inZone?_system` compares the two: a time that is placed is shown at
the instant where it is placed, and a time that is not placed is never shown, but for the very second at
which the clocks are put forward, which is placed and not shown.  Of the two instants of a repeated time the
later one is taken.

For this a wall-clock time has to be found again from its seconds (`WallTime.ofSeconds_toSeconds`), that is,
a date from its day (`Date.ofDays_toDays`).
-/

namespace RecordFilter.Calendar

/-! ### Dates from days -/

namespace Date

/-- In the four centuries, a day of a year that begins in March is found from the number of the day.  Only
a year that ends in the February of a leap year has a day 365. -/
theorem ofDays_of_dayOfYear {century year dayOfYear : Int} (hyear : 0 ≤ year ∧ year < 400)
    (hday : 0 ≤ dayOfYear ∧ dayOfYear ≤ 365)
    (hleap : dayOfYear = 365 → isLeapYear (century * 400 + year + 1) = true) :
    ofDays (century * 146097 + year * 365 + year / 4 - year / 100 + dayOfYear - 719468) =
      ofDayOfYear (century * 400 + year) dayOfYear := by
  obtain ⟨f, hf⟩ : ∃ f, f = year / 100 := ⟨_, rfl⟩
  obtain ⟨k, hk⟩ : ∃ k, k = year % 100 / 4 := ⟨_, rfl⟩
  obtain ⟨j, hj⟩ : ∃ j, j = year % 4 := ⟨_, rfl⟩
  obtain ⟨day, hdays⟩ : ∃ d, d = year * 365 + year / 4 - year / 100 + dayOfYear := ⟨_, rfl⟩
  have hfour : year / 4 = 25 * f + k := by omega
  have hsplit : day = 36524 * f + 1461 * k + (365 * j + dayOfYear) := by omega
  have hlast : dayOfYear = 365 → j = 3 ∧ (k = 24 → f = 3) := by
    intro h
    have hleap := hleap h
    simp only [isLeapYear, Bool.and_eq_true, Bool.or_eq_true, beq_iff_eq, bne_iff_ne] at hleap
    omega
  have hfound : (day - day / 1460 + day / 36524 - day / 146096) / 365 = year := by
    rw [year_of_day (by omega) (by omega) (by omega) (by omega) hsplit]
    omega
  have hcentury : (century * 146097 + year * 365 + year / 4 - year / 100 + dayOfYear - 719468 +
      719468) / 146097 = century := by omega
  have hrest : (century * 146097 + year * 365 + year / 4 - year / 100 + dayOfYear - 719468 +
      719468) % 146097 = day := by omega
  unfold ofDays ofDayOfYear
  dsimp only
  rw [hcentury, hrest, hfound, hdays]
  have hdayOfYear : year * 365 + year / 4 - year / 100 + dayOfYear -
      (365 * year + year / 4 - year / 100) = dayOfYear := by ring
  rw [hdayOfYear]

/-- In a year that begins in March five months have 153 days, whichever five they are. -/
theorem month_of_day {month day : Int} (hday : 1 ≤ day)
    (hlast : (153 * month + 2) / 5 + day ≤ (153 * (month + 1) + 2) / 5) :
    (5 * ((153 * month + 2) / 5 + day - 1) + 2) / 153 = month := by
  omega

theorem ofDayOfYear_of_month {year month day : Int} (hday : 1 ≤ day)
    (hlast : (153 * month + 2) / 5 + day ≤ (153 * (month + 1) + 2) / 5) :
    ofDayOfYear year ((153 * month + 2) / 5 + day - 1) =
      if month < 10 then ⟨year + (if month + 3 ≤ 2 then 1 else 0), (month + 3).toNat, day.toNat⟩
      else ⟨year + (if month - 9 ≤ 2 then 1 else 0), (month - 9).toNat, day.toNat⟩ := by
  have hmonth := month_of_day hday hlast
  have hrest : (153 * month + 2) / 5 + day - 1 - (153 * month + 2) / 5 + 1 = day := by ring
  unfold ofDayOfYear
  dsimp only
  rw [hmonth, hrest]
  split <;> rfl

/-- The lengths of the months. -/
theorem day_le_of_isValid {d : Date} (h : d.isValid = true) :
    (1 ≤ d.month ∧ d.month ≤ 12) ∧ (1 ≤ d.day ∧ d.day ≤ 31) ∧
      (d.month = 4 ∨ d.month = 6 ∨ d.month = 9 ∨ d.month = 11 → d.day ≤ 30) ∧
      (d.month = 2 → d.day ≤ 29 ∧ (d.day = 29 → isLeapYear d.year = true)) := by
  simp only [isValid, Bool.and_eq_true, decide_eq_true_eq] at h
  obtain ⟨⟨⟨⟨-, hm⟩, hm'⟩, hd⟩, hd'⟩ := h
  unfold daysInMonth at hd'
  split_ifs at hd' with hfeb hleap hshort
  · exact ⟨⟨hm, hm'⟩, ⟨hd, by omega⟩, by omega, fun _ => ⟨hd', fun _ => hleap⟩⟩
  · exact ⟨⟨hm, hm'⟩, ⟨hd, by omega⟩, by omega, fun _ => ⟨by omega, by omega⟩⟩
  · exact ⟨⟨hm, hm'⟩, ⟨hd, by omega⟩, fun _ => hd', fun h => absurd h hfeb⟩
  · exact ⟨⟨hm, hm'⟩, ⟨hd, hd'⟩, fun h => absurd h hshort, fun h => absurd h hfeb⟩

/-- A date is a day of a year that begins in March. -/
theorem exists_dayOfYear {d : Date} (h : d.isValid = true) :
    ∃ year dayOfYear : Int, d = ofDayOfYear year dayOfYear ∧ 0 ≤ dayOfYear ∧ dayOfYear ≤ 365 ∧
      (dayOfYear = 365 → isLeapYear (year + 1) = true) := by
  obtain ⟨⟨hm, hm'⟩, ⟨hd, hd'⟩, hshort, hfeb⟩ := day_le_of_isValid h
  obtain ⟨year, month, day⟩ := d
  dsimp only at *
  by_cases hlate : month ≤ 2
  · refine ⟨year - 1, (153 * (month + 9) + 2) / 5 + day - 1, ?_, by omega, by omega, fun h => ?_⟩
    · have hnot : ¬(month + 9 : Int) < 10 := by omega
      have hnext : (month + 9 - 9 : Int) ≤ 2 := by omega
      rw [ofDayOfYear_of_month (by omega) (by omega), if_neg hnot, if_pos hnext, Date.mk.injEq]
      omega
    · rw [Int.sub_add_cancel]
      exact (hfeb (by omega)).2 (by omega)
  · refine ⟨year, (153 * (month - 3) + 2) / 5 + day - 1, ?_, by omega, by omega, by omega⟩
    have hbefore : (month - 3 : Int) < 10 := by omega
    have hsame : ¬(month - 3 + 3 : Int) ≤ 2 := by omega
    have hlast : (153 * (month - 3) + 2) / 5 + day ≤ (153 * (month - 3 + 1) + 2 : Int) / 5 := by
      interval_cases month <;> omega
    rw [ofDayOfYear_of_month (by omega) hlast, if_pos hbefore, if_neg hsame, Date.mk.injEq]
    omega

/-- **The date of the day of a date** is the date. -/
theorem ofDays_toDays {d : Date} (h : d.isValid = true) : ofDays d.toDays = d := by
  obtain ⟨year, dayOfYear, rfl, hnonneg, hle, hleap⟩ := exists_dayOfYear h
  obtain ⟨century, rest, rfl, hrest⟩ : ∃ century rest : Int,
      year = century * 400 + rest ∧ 0 ≤ rest ∧ rest < 400 :=
    ⟨year / 400, year % 400, by omega, by omega⟩
  rw [toDays_ofDayOfYear hrest ⟨hnonneg, hle⟩, ofDays_of_dayOfYear hrest ⟨hnonneg, hle⟩ hleap]

end Date

/-! ### Wall-clock times from seconds -/

theorem Time.ofSeconds_toSeconds {t : Time} (hm : t.minute < 60) (hs : t.second < 60) :
    ofSeconds t.toSeconds t.nano = t := by
  obtain ⟨hour, minute, second, nano⟩ := t
  unfold ofSeconds toSeconds
  dsimp only at *
  rw [Time.mk.injEq]
  omega

namespace WallTime

/-- **The times that a clock shows**, leap seconds left out: a date of the calendar and a time of day, whose
second is below 60. -/
structure Proper (w : WallTime) : Prop where
  date : w.date.isValid = true
  hour : w.time.hour < 24
  minute : w.time.minute < 60
  second : w.time.second < 60
  nano : w.time.nano < nanosPerSecond

theorem ofSeconds_toSeconds {w : WallTime} (h : w.Proper) : ofSeconds w.toSeconds w.time.nano = w := by
  have hhour := h.hour
  have hminute := h.minute
  have hsecond := h.second
  have hday : w.time.toSeconds < 86400 := by
    unfold Time.toSeconds
    omega
  have hdays : w.toSeconds / 86400 = w.date.toDays := by
    unfold toSeconds
    omega
  have hseconds : (w.toSeconds % 86400).toNat = w.time.toSeconds := by
    unfold toSeconds
    omega
  rw [ofSeconds, hdays, hseconds, Date.ofDays_toDays h.date, Time.ofSeconds_toSeconds hminute hsecond]

theorem at?_eq_some_iff {w : WallTime} {offset : Int} {z : Zoned} :
    w.at? offset = some z ↔ leastSecond ≤ w.toSeconds - offset ∧
      z = ⟨⟨w.toSeconds - offset, w.time.nano⟩, offset⟩ := by
  unfold at?
  dsimp only
  split
  · rename_i h
    exact iff_of_false nofun fun h' => absurd h'.1 (by omega)
  · rename_i h
    rw [Option.some_inj, eq_comm]
    exact (and_iff_right (by omega)).symm

theorem inZone?_eq_some_iff {w : WallTime} {zone : Zone} {z : Zoned} :
    w.inZone? zone = some z ↔ ∃ offset, zone.offsetOf? w.toSeconds = some offset ∧
      leastSecond ≤ w.toSeconds - offset ∧ z = ⟨⟨w.toSeconds - offset, w.time.nano⟩, offset⟩ := by
  rw [inZone?, Option.bind_eq_some_iff]
  simp only [at?_eq_some_iff]

end WallTime

/-! ### What clocks show -/

theorem Instant.isLE_compare {t u : Instant} (h : t.nano = u.nano) :
    (t.compare u).isLE = true ↔ t.seconds ≤ u.seconds := by
  rw [compare, h, Std.compare_self, Ordering.then_eq]
  exact Std.isLE_compare

namespace Zone

/-- The wall-clock time at an instant. -/
def wallTimeAt (z : Zone) (t : Instant) : WallTime :=
  .ofSeconds (t.seconds + z.offsetAt t.seconds) t.nano

/-- There is a date for the instant, and the clocks of the zone show the wall-clock time at it. -/
structure Shows (z : Zone) (t : Instant) (w : WallTime) : Prop where
  dated : leastSecond ≤ t.seconds
  reads : z.wallTimeAt t = w

/-- In summer the clocks are ahead, and the hours in which they are put forward and back lie apart. -/
structure Regular (z : Zone) : Prop where
  ahead : z.standard < z.summer
  apart : z.starts + z.summer ≤ z.ends + z.standard
  dated : leastSecond ≤ z.starts

theorem regular_system : system.Regular := by
  refine ⟨?_, ?_, ?_⟩ <;> decide

/-- The wall-clock second at which the clocks are put forward: the first one that is skipped. -/
def putForward (z : Zone) : Int := z.starts + z.standard

/-- The clocks show the second twice, before and after they are put back. -/
def Repeats (z : Zone) (wall : Int) : Prop := z.ends + z.standard ≤ wall ∧ wall < z.ends + z.summer

section seconds

variable {z : Zone} {wall s offset : Int}

/-- The clocks show a second at the standard offset, outside of summer, or at the one of summer, in it. -/
theorem add_offsetAt_eq_iff : s + z.offsetAt s = wall ↔
    (s = wall - z.standard ∧ ¬(z.starts ≤ s ∧ s < z.ends)) ∨
      (s = wall - z.summer ∧ z.starts ≤ s ∧ s < z.ends) := by
  unfold offsetAt
  by_cases hs : z.starts ≤ s ∧ s < z.ends
  · rw [if_pos hs]
    omega
  · rw [if_neg hs]
    omega

/-- A second without an offset is never shown. -/
theorem add_offsetAt_ne_of_none (hz : z.Regular) (h : z.offsetOf? wall = none) :
    s + z.offsetAt s ≠ wall := by
  have hahead := hz.ahead
  have hapart := hz.apart
  rw [Ne, add_offsetAt_eq_iff]
  unfold offsetOf? at h
  split_ifs at h
  omega

/-- The second at which the clocks are put forward is never shown. -/
theorem add_offsetAt_ne_putForward (hz : z.Regular) : s + z.offsetAt s ≠ z.putForward := by
  have hahead := hz.ahead
  have hapart := hz.apart
  rw [Ne, add_offsetAt_eq_iff, putForward]
  omega

theorem offsetOf?_putForward (z : Zone) : z.offsetOf? z.putForward = some z.standard :=
  if_pos (Int.le_refl _)

/-- A second with an offset is shown at it, and if it is shown before then it is repeated. -/
theorem add_offsetAt_of_some (hz : z.Regular) (hforward : wall ≠ z.putForward)
    (h : z.offsetOf? wall = some offset) :
    wall - offset + z.offsetAt (wall - offset) = wall ∧
      (s + z.offsetAt s = wall → s = wall - offset ∨ s < wall - offset ∧ z.Repeats wall) := by
  have hahead := hz.ahead
  have hapart := hz.apart
  rw [add_offsetAt_eq_iff, add_offsetAt_eq_iff, Repeats]
  unfold putForward at hforward
  unfold offsetOf? at h
  split_ifs at h <;> cases h <;> omega

/-- A repeated second is shown in summer and placed after it. -/
theorem add_offsetAt_of_repeats (hz : z.Regular) (h : z.Repeats wall) :
    wall - z.summer + z.offsetAt (wall - z.summer) = wall ∧ z.offsetOf? wall = some z.standard := by
  obtain ⟨hfirst, hlast⟩ := h
  have hahead := hz.ahead
  have hapart := hz.apart
  rw [add_offsetAt_eq_iff]
  refine ⟨by omega, ?_⟩
  unfold offsetOf?
  rw [if_neg (by omega), if_neg (by omega), if_neg (by omega)]

end seconds

section instants

variable {zone : Zone} {w : WallTime} {z : Zoned} {t : Instant}

theorem shows_iff (hw : w.Proper) : zone.Shows t w ↔ leastSecond ≤ t.seconds ∧
    t.nano = w.time.nano ∧ t.seconds + zone.offsetAt t.seconds = w.toSeconds := by
  constructor
  · rintro ⟨hdated, hreads⟩
    rw [← WallTime.ofSeconds_toSeconds hw] at hreads
    obtain ⟨hseconds, hnano⟩ := WallTime.ofSeconds_inj hreads
    exact ⟨hdated, hnano, hseconds⟩
  · rintro ⟨hdated, hnano, hseconds⟩
    refine ⟨hdated, ?_⟩
    rw [wallTimeAt, hseconds, hnano, WallTime.ofSeconds_toSeconds hw]

/-- **A wall-clock time that is not placed is never shown.** -/
theorem not_shows_of_none (hzone : zone.Regular) (hw : w.Proper) (h : w.inZone? zone = none) :
    ¬zone.Shows t w := by
  rw [shows_iff hw]
  rintro ⟨hdated, -, hseconds⟩
  cases hoffset : zone.offsetOf? w.toSeconds with
  | none => exact add_offsetAt_ne_of_none hzone hoffset hseconds
  | some offset =>
    -- the instant of the offset is before all dates, and the time is shown at none that is later
    have hearly : w.toSeconds - offset < leastSecond := by
      by_contra hdated'
      have hsome := WallTime.inZone?_eq_some_iff.mpr ⟨offset, hoffset, Int.not_lt.mp hdated', rfl⟩
      rw [h] at hsome
      cases hsome
    by_cases hforward : w.toSeconds = zone.putForward
    · exact add_offsetAt_ne_putForward hzone (hseconds.trans hforward)
    · have hlate := (add_offsetAt_of_some hzone hforward hoffset).2 hseconds
      omega

theorem not_shows_putForward (hzone : zone.Regular) (hw : w.Proper)
    (h : w.toSeconds = zone.putForward) : ¬zone.Shows t w := by
  rw [shows_iff hw]
  rintro ⟨-, -, hseconds⟩
  exact add_offsetAt_ne_putForward hzone (hseconds.trans h)

theorem inZone?_putForward (hzone : zone.Regular) (h : w.toSeconds = zone.putForward) :
    w.inZone? zone = some ⟨⟨zone.starts, w.time.nano⟩, zone.standard⟩ := by
  have hseconds : w.toSeconds - zone.standard = zone.starts := by
    rw [h, putForward, Int.add_sub_cancel]
  refine WallTime.inZone?_eq_some_iff.mpr ⟨zone.standard, ?_, ?_, ?_⟩
  · rw [h, offsetOf?_putForward]
  · rw [hseconds]
    exact hzone.dated
  · rw [hseconds]

/-- **A wall-clock time that is placed is shown where it is placed.** -/
theorem shows_of_some (hzone : zone.Regular) (hw : w.Proper) (hforward : w.toSeconds ≠ zone.putForward)
    (h : w.inZone? zone = some z) : zone.Shows z.instant w := by
  obtain ⟨offset, hoffset, hdated, rfl⟩ := WallTime.inZone?_eq_some_iff.mp h
  exact (shows_iff hw).mpr
    ⟨hdated, rfl, (add_offsetAt_of_some (s := 0) hzone hforward hoffset).1⟩

/-- It is shown there or, if it is repeated, earlier. -/
theorem seconds_of_shows (hzone : zone.Regular) (hw : w.Proper)
    (hforward : w.toSeconds ≠ zone.putForward) (h : w.inZone? zone = some z) (ht : zone.Shows t w) :
    t.nano = z.instant.nano ∧ (t.seconds = z.instant.seconds ∨
      t.seconds < z.instant.seconds ∧ zone.Repeats w.toSeconds) := by
  obtain ⟨offset, hoffset, -, rfl⟩ := WallTime.inZone?_eq_some_iff.mp h
  obtain ⟨-, hnano, hseconds⟩ := (shows_iff hw).mp ht
  exact ⟨hnano, (add_offsetAt_of_some hzone hforward hoffset).2 hseconds⟩

/-- **A repeated time is shown before the instant at which it is placed.** -/
theorem exists_shows_earlier (hzone : zone.Regular) (hw : w.Proper) (hrepeats : zone.Repeats w.toSeconds)
    (h : w.inZone? zone = some z) :
    ∃ t, zone.Shows t w ∧ t.nano = z.instant.nano ∧ t.seconds < z.instant.seconds := by
  obtain ⟨offset, hoffset, -, rfl⟩ := WallTime.inZone?_eq_some_iff.mp h
  obtain ⟨hshown, hstandard⟩ := add_offsetAt_of_repeats hzone hrepeats
  cases hoffset.symm.trans hstandard
  have hahead := hzone.ahead
  have hapart := hzone.apart
  have hdated := hzone.dated
  have hfirst := hrepeats.1
  refine ⟨⟨w.toSeconds - zone.summer, w.time.nano⟩, (shows_iff hw).mpr ⟨?_, rfl, hshown⟩, rfl, ?_⟩
  · dsimp only
    omega
  · dsimp only
    omega

end instants

end Zone

/-- **Where a wall-clock time is placed in the system zone.**  The second at which the clocks are put forward
is placed, although it is never shown.  For every other time: it is not placed if and only if it is never
shown, and if it is placed then it is shown at that instant and at none that is later; the instant is the
earliest at which it is shown if and only if the time is not one of those that are repeated. -/
theorem inZone?_system {w : WallTime} (hw : w.Proper) :
    (w.toSeconds = Zone.system.putForward →
        (w.inZone? .system).isSome ∧ ∀ t, ¬Zone.system.Shows t w) ∧
      (w.toSeconds ≠ Zone.system.putForward →
        (w.inZone? .system = none ↔ ∀ t, ¬Zone.system.Shows t w) ∧
          ∀ z, w.inZone? .system = some z → Zone.system.Shows z.instant w ∧
            (∀ t, Zone.system.Shows t w → (t.compare z.instant).isLE) ∧
              ((∀ t, Zone.system.Shows t w → (z.instant.compare t).isLE) ↔
                ¬Zone.system.Repeats w.toSeconds)) := by
  have hzone := Zone.regular_system
  refine ⟨fun hforward => ⟨?_, fun t => Zone.not_shows_putForward hzone hw hforward⟩,
    fun hforward => ⟨⟨fun h t => Zone.not_shows_of_none hzone hw h, fun h => ?_⟩, fun z h => ⟨?_, ?_, ?_⟩⟩⟩
  · rw [Zone.inZone?_putForward hzone hforward]
    rfl
  · cases hplaced : w.inZone? .system with
    | none => rfl
    | some z => exact absurd (Zone.shows_of_some hzone hw hforward hplaced) (h z.instant)
  · exact Zone.shows_of_some hzone hw hforward h
  · intro t ht
    obtain ⟨hnano, hseconds⟩ := Zone.seconds_of_shows hzone hw hforward h ht
    rw [Instant.isLE_compare hnano]
    omega
  · constructor
    · intro hearliest hrepeats
      obtain ⟨t, ht, hnano, hless⟩ := Zone.exists_shows_earlier hzone hw hrepeats h
      have hle := (Instant.isLE_compare hnano.symm).mp (hearliest t ht)
      omega
    · intro hrepeats t ht
      obtain ⟨hnano, hseconds⟩ := Zone.seconds_of_shows hzone hw hforward h ht
      have hsame := hseconds.resolve_right fun h => hrepeats h.2
      exact (Instant.isLE_compare hnano.symm).mpr hsame.ge

/-- Noon on a day in summer. -/
theorem inZone?_system_summer :
    let w : WallTime := ⟨⟨2019, 7, 1⟩, ⟨12, 0, 0, 0⟩⟩
    let z : Zoned := ⟨⟨1561971600, 0⟩, 10800⟩
    w.Proper ∧ w.inZone? .system = some z ∧ Zone.system.Shows z.instant w ∧
      ∀ t, Zone.system.Shows t w → (z.instant.compare t).isLE := by
  intro w z
  have hw : w.Proper := ⟨by decide, by decide, by decide, by decide, by decide⟩
  have hplaced : w.inZone? .system = some z := by decide
  have hforward : w.toSeconds ≠ Zone.system.putForward := by decide
  have hrepeats : ¬Zone.system.Repeats w.toSeconds := by
    unfold Zone.Repeats
    decide
  obtain ⟨hshown, -, hearliest⟩ := ((inZone?_system hw).2 hforward).2 z hplaced
  exact ⟨hw, hplaced, hshown, hearliest.mpr hrepeats⟩

/-- Half past three in the night in which the clocks are put back is placed an hour after it is shown for
the first time, and three o'clock in the night in which they are put forward is placed and never shown. -/
theorem inZone?_not_earliest :
    let twice : WallTime := ⟨⟨2019, 10, 27⟩, ⟨3, 30, 0, 0⟩⟩
    let never : WallTime := ⟨⟨2019, 3, 31⟩, ⟨3, 0, 0, 0⟩⟩
    (twice.Proper ∧ ∃ z t, twice.inZone? .system = some z ∧ Zone.system.Shows t twice ∧
        t.compare z.instant = .lt) ∧
      never.Proper ∧ (never.inZone? .system).isSome ∧ ∀ t, ¬Zone.system.Shows t never := by
  intro twice never
  have htwice : twice.Proper := ⟨by decide, by decide, by decide, by decide, by decide⟩
  have hnever : never.Proper := ⟨by decide, by decide, by decide, by decide, by decide⟩
  have hshown : Zone.system.Shows ⟨1572136200, 0⟩ twice := ⟨by decide, by decide⟩
  have hplaced : twice.inZone? .system = some ⟨⟨1572139800, 0⟩, 7200⟩ := by decide
  have hforward : never.toSeconds = Zone.system.putForward := by decide
  exact ⟨⟨htwice, _, _, hplaced, hshown, by decide⟩, hnever, by decide,
    fun t => Zone.not_shows_putForward Zone.regular_system hnever hforward⟩

end RecordFilter.Calendar

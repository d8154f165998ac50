import Mathlib.Data.List.Basic
import RecordFilter.Proofs.OnePredicate
import RecordFilter.Proofs.ValueTypes
import RecordFilter.Proofs.WallClock

/-!
# Stored texts and literals

A text that is a literal of a field is compared with the same text in a record.  The literal is read by
the reader of the type of the field; the text in the record is read by what the value of the literal is
compared with.  For most types the two readings are the same.  For the values of clocks the text in the
record is read in the system zone (a text that is a wall-clock time is none with an offset,
`readOffsetTime?_of_readWallTime`), and this is the instant of the literal (`ReadAlike`) unless

* the field keeps the current offset, and the zone has another one at the wall-clock time, or
* the field is a timestamp, which has no leap seconds, and the text has one.
-/

namespace RecordFilter

open RecordFilter.Text RecordFilter.Calendar

/-! ### A wall-clock time has no offset -/

namespace Calendar

theorem exactDigits?_eq_some {width n : Nat} {cs r : List Char}
    (h : exactDigits? width cs = some (n, r)) :
    ∃ run, cs = run ++ r ∧ run.length = width ∧ ∀ c ∈ run, c.isDigit = true := by
  unfold exactDigits? at h
  dsimp only at h
  split at h
  · rename_i hrun
    cases h
    exact ⟨cs.take width, (List.take_append_drop width cs).symm, hrun.1, by simpa using hrun.2⟩
  · cases h

theorem exactBounded?_eq_some {width least greatest n : Nat} {cs r : List Char}
    (h : exactBounded? width least greatest cs = some (n, r)) :
    exactDigits? width cs = some (n, r) := by
  exact (Option.filter_eq_some_iff.mp h).1

theorem exactCharacter?_eq_some {accepts : Char → Bool} {cs r : List Char}
    (h : exactCharacter? accepts cs = some r) : ∃ c, cs = c :: r ∧ accepts c = true := by
  cases cs with
  | nil => cases h
  | cons c cs =>
    rw [exactCharacter?] at h
    split at h
    · rename_i hc
      cases h
      exact ⟨c, rfl, hc⟩
    · cases h

theorem skipBlanks_of_isDigit {c : Char} (h : c.isDigit = true) (cs : List Char) :
    skipBlanks (c :: cs) = c :: cs := by
  have hb : isBlank c = false := by
    rw [Bool.eq_false_iff]
    intro hb
    have hword := isWordChar_eq_false_of_isBlank hb
    rw [isWordChar, Char.isAlphanum, h, Bool.or_true, Bool.true_or] at hword
    cases hword
  rw [skipBlanks, List.dropWhile_cons_of_neg (by simp [hb])]

/-- Digits of full width are the ones that are taken. -/
theorem digits_of_exactDigits? {width n n' : Nat} {cs r r' : List Char}
    (h : Reader.digits width cs = .ok (n, r)) (h' : exactDigits? width cs = some (n', r')) :
    r = r' := by
  obtain ⟨run, rfl, rfl, hrun⟩ := exactDigits?_eq_some h'
  have htaken : ((run ++ r').take run.length).takeWhile Char.isDigit = run := by
    rw [List.take_left, List.takeWhile_eq_self_iff]
    exact hrun
  cases hcs : run ++ r' with
  | nil =>
    rw [hcs] at h
    cases h
  | cons c cs =>
    rw [hcs] at htaken h
    rw [Reader.digits] at h
    split at h
    · dsimp only at h
      rw [htaken, ← hcs, List.drop_left] at h
      cases h
      rfl
    · cases h

/-- Digits of full width have no blanks before them. -/
theorem skipBlanks_of_exactDigits? {width n : Nat} {cs r : List Char} (hwidth : width ≠ 0)
    (h : exactDigits? width cs = some (n, r)) :
    skipBlanks cs = cs ∧ ∃ c cs', cs = c :: cs' ∧ c.isDigit = true := by
  obtain ⟨run, rfl, rfl, hrun⟩ := exactDigits?_eq_some h
  obtain ⟨c, run, rfl⟩ := List.exists_cons_of_ne_nil (List.length_pos_iff.mp (Nat.pos_of_ne_zero hwidth))
  have hc := hrun c List.mem_cons_self
  exact ⟨skipBlanks_of_isDigit hc _, c, _, rfl, hc⟩

theorem bounded_of_exactBounded? {least greatest n n' : Nat} {cs r r' : List Char}
    (h : Reader.bounded least greatest cs = .ok (n, r))
    (h' : exactBounded? 2 least greatest cs = some (n', r')) : r = r' := by
  have hdigits := exactBounded?_eq_some h'
  unfold Reader.bounded at h
  rw [(skipBlanks_of_exactDigits? (by decide) hdigits).1] at h
  obtain ⟨⟨k, rest⟩, hk, h⟩ := bind_eq_ok.mp h
  dsimp only at h
  split at h
  · cases h
    exact digits_of_exactDigits? hk hdigits
  · cases h

theorem year_of_exactDigits? {y : Int} {n : Nat} {cs r r' : List Char}
    (h : Reader.year cs = .ok (y, r)) (h' : exactDigits? 4 cs = some (n, r')) : r = r' := by
  obtain ⟨hskip, c, cs, rfl, hc⟩ := skipBlanks_of_exactDigits? (by decide) h'
  unfold Reader.year at h
  rw [hskip] at h
  dsimp only at h
  -- a digit is no sign
  split at h
  · rename_i hcs
    cases hcs
    cases hc
  · rename_i hcs
    cases hcs
    cases hc
  · obtain ⟨⟨j, rest⟩, hj, h⟩ := bind_eq_ok.mp h
    obtain ⟨_, hsigned, h⟩ := bind_eq_ok.mp h
    cases hsigned
    dsimp only at h
    split at h
    · cases h
      exact digits_of_exactDigits? hj h'
    · cases h

theorem character_of_exactCharacter? {c : Char} {cs r r' : List Char}
    (h : Reader.character c cs = .ok ((), r)) (h' : exactCharacter? (· == c) cs = some r') : r = r' := by
  obtain ⟨d, rfl, -⟩ := exactCharacter?_eq_some h'
  rw [Reader.character] at h
  split at h
  · cases h
    rfl
  · cases h

/-- A date of full width is the one that is taken. -/
theorem date_of_exact {d : Date} {y m k : Nat} {cs r cs₁ cs₂ cs₃ cs₄ r' : List Char}
    (h : Reader.date cs = .ok (d, r)) (hy : exactDigits? 4 cs = some (y, cs₁))
    (hyphen₁ : exactCharacter? (· == '-') cs₁ = some cs₂)
    (hm : exactBounded? 2 1 12 cs₂ = some (m, cs₃))
    (hyphen₂ : exactCharacter? (· == '-') cs₃ = some cs₄)
    (hd : exactBounded? 2 1 31 cs₄ = some (k, r')) : r = r' := by
  unfold Reader.date at h
  obtain ⟨⟨_, _⟩, hyear, h⟩ := bind_eq_ok.mp h
  cases year_of_exactDigits? hyear hy
  obtain ⟨⟨⟨⟩, _⟩, hchar₁, h⟩ := bind_eq_ok.mp h
  cases character_of_exactCharacter? hchar₁ hyphen₁
  obtain ⟨⟨_, _⟩, hmonth, h⟩ := bind_eq_ok.mp h
  cases bounded_of_exactBounded? hmonth hm
  obtain ⟨⟨⟨⟩, _⟩, hchar₂, h⟩ := bind_eq_ok.mp h
  cases character_of_exactCharacter? hchar₂ hyphen₂
  obtain ⟨⟨_, _⟩, hday, h⟩ := bind_eq_ok.mp h
  cases bounded_of_exactBounded? hday hd
  cases h
  rfl

/-- A time of full width is the one that is taken. -/
theorem clock_of_exact {time : Nat → Time} {k m sec : Nat}
    {cs r cs₁ cs₂ cs₃ cs₄ r' : List Char} (h : Reader.clock cs = .ok (time, r))
    (hh : exactBounded? 2 0 23 cs = some (k, cs₁))
    (colon₁ : exactCharacter? (· == ':') cs₁ = some cs₂)
    (hm : exactBounded? 2 0 59 cs₂ = some (m, cs₃))
    (colon₂ : exactCharacter? (· == ':') cs₃ = some cs₄)
    (hs : exactBounded? 2 0 60 cs₄ = some (sec, r')) : r = r' := by
  unfold Reader.clock Reader.hourMinute at h
  obtain ⟨⟨⟨_, _⟩, _⟩, hpair, h⟩ := bind_eq_ok.mp h
  obtain ⟨⟨_, _⟩, hhour, hpair⟩ := bind_eq_ok.mp hpair
  cases bounded_of_exactBounded? hhour hh
  obtain ⟨⟨⟨⟩, _⟩, hchar₁, hpair⟩ := bind_eq_ok.mp hpair
  cases character_of_exactCharacter? hchar₁ colon₁
  obtain ⟨⟨_, _⟩, hminute, hpair⟩ := bind_eq_ok.mp hpair
  cases bounded_of_exactBounded? hminute hm
  cases hpair
  obtain ⟨⟨⟨⟩, _⟩, hchar₂, h⟩ := bind_eq_ok.mp h
  cases character_of_exactCharacter? hchar₂ colon₂
  obtain ⟨⟨_, _⟩, hsecond, h⟩ := bind_eq_ok.mp h
  cases bounded_of_exactBounded? hsecond hs
  cases h
  rfl

/-- A time begins with a digit. -/
theorem isDigit_of_clock {time : Nat → Time} {cs r : List Char}
    (h : Reader.clock cs = .ok (time, r)) :
    ∃ c cs', skipBlanks cs = c :: cs' ∧ c.isDigit = true := by
  unfold Reader.clock Reader.hourMinute at h
  obtain ⟨⟨⟨_, _⟩, _⟩, hpair, -⟩ := bind_eq_ok.mp h
  obtain ⟨⟨_, _⟩, hhour, -⟩ := bind_eq_ok.mp hpair
  unfold Reader.bounded at hhour
  obtain ⟨⟨_, _⟩, hdigits, -⟩ := bind_eq_ok.mp hhour
  cases hcs : skipBlanks cs with
  | nil =>
    rw [hcs] at hdigits
    cases hdigits
  | cons c cs' =>
    rw [hcs, Reader.digits] at hdigits
    split at hdigits
    · rename_i hc
      exact ⟨c, cs', rfl, hc⟩
    · cases hdigits

/-- Of the characters that may stand before a time with an offset, only the space may stand before a
wall-clock time. -/
theorem skipBlanks_of_separator {time : Nat → Time} {k : Nat} {cs cs' r r' : List Char}
    (h : Reader.clock (skipBlanks cs) = .ok (time, r))
    (hseparator : exactCharacter? (fun c => c == 'T' || c == 't' || c == ' ') cs = some cs')
    (hh : exactBounded? 2 0 23 cs' = some (k, r')) : skipBlanks cs = cs' := by
  obtain ⟨d, _, hskip, hd⟩ := isDigit_of_clock h
  obtain ⟨c, rfl, hc⟩ := exactCharacter?_eq_some hseparator
  simp only [Bool.or_eq_true, beq_iff_eq] at hc
  rcases hc with (rfl | rfl) | rfl
  · -- no time begins with a letter
    cases hskip
    cases hd
  · cases hskip
    cases hd
  · exact (skipBlanks_of_exactDigits? (by decide) (exactBounded?_eq_some hh)).1

/-- **A text that is a wall-clock time is none with an offset:** nothing is left of it for the offset. -/
theorem readOffsetTime?_of_readWallTime {text : String} {w : WallTime}
    (h : readWallTime text = .ok w) : readOffsetTime? text = none := by
  rw [Option.eq_none_iff_forall_ne_some]
  intro t ht
  unfold readWallTime at h
  obtain ⟨⟨_, _⟩, hdate, h⟩ := bind_eq_ok.mp h
  obtain ⟨⟨_, rest⟩, hclock, h⟩ := bind_eq_ok.mp h
  obtain ⟨_, hcomplete, -⟩ := bind_eq_ok.mp h
  unfold readOffsetTime? at ht
  obtain ⟨⟨_, _⟩, hy, ht⟩ := Option.bind_eq_some_iff.mp ht
  obtain ⟨_, hyphen₁, ht⟩ := Option.bind_eq_some_iff.mp ht
  obtain ⟨⟨_, _⟩, hm, ht⟩ := Option.bind_eq_some_iff.mp ht
  obtain ⟨_, hyphen₂, ht⟩ := Option.bind_eq_some_iff.mp ht
  obtain ⟨⟨_, _⟩, hd, ht⟩ := Option.bind_eq_some_iff.mp ht
  cases date_of_exact hdate hy hyphen₁ hm hyphen₂ hd
  obtain ⟨cs, hseparator, ht⟩ := Option.bind_eq_some_iff.mp ht
  obtain ⟨⟨_, _⟩, hh, ht⟩ := Option.bind_eq_some_iff.mp ht
  obtain ⟨_, colon₁, ht⟩ := Option.bind_eq_some_iff.mp ht
  obtain ⟨⟨_, _⟩, hmin, ht⟩ := Option.bind_eq_some_iff.mp ht
  obtain ⟨_, colon₂, ht⟩ := Option.bind_eq_some_iff.mp ht
  obtain ⟨⟨_, _⟩, hs, ht⟩ := Option.bind_eq_some_iff.mp ht
  rw [skipBlanks_of_separator hclock hseparator hh] at hclock
  cases clock_of_exact hclock hh colon₁ hmin colon₂ hs
  cases rest with
  | nil => cases ht
  | cons => cases hcomplete

/-! ### The order of what is equal -/

theorem Date.compare_self (d : Date) : d.compare d = .eq := by
  simp [Date.compare]

theorem Time.compare_self (t : Time) : t.compare t = .eq := by
  simp [Time.compare]

theorem WallTime.compare_self (w : WallTime) : w.compare w = .eq := by
  rw [WallTime.compare, Date.compare_self, Time.compare_self]
  rfl

theorem Instant.compare_eq_eq {t u : Instant} : t.compare u = .eq ↔ t = u := by
  rw [Instant.compare, Ordering.then_eq_eq, compare_eq_iff_eq, compare_eq_iff_eq, Instant.mk.injEq]

/-- Only a leap second becomes another instant. -/
theorem Instant.eq_smooth_iff {t : Instant} : t = t.smooth ↔ t.nano < nanosPerSecond := by
  unfold smooth
  split
  · rename_i h
    exact iff_of_true rfl h
  · rename_i h
    refine iff_of_false (fun heq => ?_) h
    have hseconds : t.seconds = t.seconds + 1 := congrArg Instant.seconds heq
    omega

end Calendar

theorem Uuid.compare_self (u : Uuid) : u.compare u = .eq := by
  simp [Uuid.compare]

/-! ### Values against texts -/

theorem ordersAs_equal_iff {v : Value} {j : Json} :
    ordersAs .equal v j = true ↔ v.order? j = some .eq := by
  unfold ordersAs
  cases v.order? j with
  | none => exact iff_of_false nofun nofun
  | some o => cases o <;> decide

/-- A text is read in a record as it was read for the literal. -/
theorem Value.order?_of_read {α ε : Type} {read : String → Except ε α} {wrap : ε → ConversionFault}
    {compare : α → α → Ordering} {build : α → Value} {text : String} {v : Value}
    (h : ((read text).mapError wrap).map build = .ok v)
    (horder : ∀ a, (build a).order? (.string text) = orderText? read compare a (.string text))
    (hself : ∀ a, compare a a = .eq) : v.order? (.string text) = some .eq := by
  obtain ⟨a, ha, rfl⟩ := map_eq_ok.mp h
  have hread : orderText? read compare a (.string text) =
      (read text).toOption.bind fun b => some (compare b a) := rfl
  rw [horder, hread, mapError_eq_ok.mp ha]
  exact congrArg some (hself a)

/-- A wall-clock time in a record is an instant of the system zone. -/
theorem instant?_of_readWallTime {text : String} {w : WallTime} (h : readWallTime text = .ok w) :
    (Json.string text).instant? = (w.inZone? .system).map Zoned.instant := by
  have hinstant : (Json.string text).instant? = readInstant? text := rfl
  have hlocal : readLocal? text = (w.inZone? .system).map Zoned.instant := by
    rw [readLocal?, h]
    exact Option.map_eq_bind.symm
  rw [hinstant, readInstant?, readOffsetTime?_of_readWallTime h, hlocal]
  cases w.inZone? .system <;> rfl

/-- A value of a clock is compared by its instant. -/
theorem Value.order?_of_instant? {v : Value} {t : Instant} (h : v.instant? = some t) :
    v.order? = fun j => j.instant?.map fun u => u.compare t := by
  cases v with
  | zoned | atOffset | instant | timestamp =>
    cases h
    rfl
  | _ => cases h

/-- A value of a clock against a wall-clock time. -/
theorem order?_of_readWallTime {text : String} {w : WallTime} (h : readWallTime text = .ok w) {v : Value}
    {t : Instant} (hv : v.instant? = some t) :
    v.order? (.string text) = some .eq ↔ (w.inZone? .system).map Zoned.instant = some t := by
  rw [Value.order?_of_instant? hv]
  dsimp only
  rw [instant?_of_readWallTime h, Option.map_eq_some_iff]
  simp only [Instant.compare_eq_eq, exists_eq_right]

theorem readPlaced_eq_ok {place : WallTime → Option Zoned} {text : String} {z : Zoned}
    (h : readPlaced place text = .ok z) : ∃ w, readWallTime text = .ok w ∧ place w = some z := by
  unfold readPlaced at h
  split at h
  · cases h
  · rename_i w hw
    split at h
    · rename_i z' hz
      cases h
      exact ⟨w, hw, hz⟩
    · cases h

theorem nano_of_inZone? {w : WallTime} {zone : Zone} {z : Zoned} (h : w.inZone? zone = some z) :
    z.instant.nano = w.time.nano := by
  obtain ⟨offset, -, -, rfl⟩ := WallTime.inZone?_eq_some_iff.mp h
  rfl

/-- A wall-clock time at an offset is the one of a zone if the zone has the offset there. -/
theorem inZone?_eq_at?_iff {w : WallTime} {zone : Zone} {offset : Int} {z : Zoned}
    (h : w.at? offset = some z) :
    (w.inZone? zone).map Zoned.instant = some z.instant ↔ zone.offsetOf? w.toSeconds = some offset := by
  constructor
  · intro hzone
    obtain ⟨z', hz', hinstant⟩ := Option.map_eq_some_iff.mp hzone
    obtain ⟨offset', hoffset, -, rfl⟩ := WallTime.inZone?_eq_some_iff.mp hz'
    obtain ⟨-, rfl⟩ := WallTime.at?_eq_some_iff.mp h
    have hseconds := congrArg Instant.seconds hinstant
    dsimp only at hseconds
    have heq : offset' = offset := by omega
    rw [hoffset, heq]
  · intro hoffset
    rw [WallTime.inZone?, hoffset, Option.bind_some, h]
    rfl

/-- The types of which every value is written as a text: not the numbers, the truth values and the types
that no literal is read for. -/
def FieldType.IsWritten : FieldType → Prop
  | .text | .enum _ | .uuid | .date | .time | .dateTime => True
  | .zonedDateTime | .offsetDateTime | .instant | .timestamp => True
  | _ => False

/-- The reader of the type and the evaluator place the wall-clock time of the text at one instant. -/
def ReadAlike (t : FieldType) (text : String) : Prop :=
  ∀ w, readWallTime text = .ok w →
    (t = .offsetDateTime → Zone.system.offsetOf? w.toSeconds = some Zone.system.standard) ∧
      (t = .timestamp → w.time.nano < nanosPerSecond)

/-- The two readings are alike for all but two types. -/
theorem ReadAlike.of_ne {t : FieldType} (h : t ≠ .offsetDateTime ∧ t ≠ .timestamp) (text : String) :
    ReadAlike t text :=
  fun _ _ => ⟨fun ht => absurd ht h.1, fun ht => absurd ht h.2⟩

theorem readAlike_offsetDateTime_iff {text : String} {w : WallTime} (h : readWallTime text = .ok w) :
    ReadAlike .offsetDateTime text ↔
      Zone.system.offsetOf? w.toSeconds = some Zone.system.standard := by
  refine ⟨fun halike => (halike w h).1 rfl, fun hoffset w' h' => ⟨fun _ => ?_, nofun⟩⟩
  cases h.symm.trans h'
  exact hoffset

theorem readAlike_timestamp_iff {text : String} {w : WallTime} (h : readWallTime text = .ok w) :
    ReadAlike .timestamp text ↔ w.time.nano < nanosPerSecond := by
  refine ⟨fun halike => (halike w h).2 rfl, fun hnano w' h' => ⟨nofun, fun _ => ?_⟩⟩
  cases h.symm.trans h'
  exact hnano

/-- **A text that has a value of a written type** is equal to the value if it is read alike. -/
theorem order?_stored {s : Schema} {t : FieldType} {text : String} {v : Value} (ht : t.IsWritten)
    (h : Registry.builtIn.read s t text = .ok v) :
    v.order? (.string text) = some .eq ↔ ReadAlike t text := by
  cases t with
  | text =>
    cases h
    exact iff_of_true (congrArg some Std.compare_self) (.of_ne ⟨by nofun, by nofun⟩ text)
  | enum name =>
    have hvariant : Registry.readVariant s name text = .ok v := h
    unfold Registry.readVariant at hvariant
    split at hvariant
    · cases hvariant
    · split at hvariant
      · cases hvariant
        exact iff_of_true (congrArg some Std.compare_self) (.of_ne ⟨by nofun, by nofun⟩ text)
      · cases hvariant
  | uuid =>
    exact iff_of_true (Value.order?_of_read h (fun _ => rfl) Uuid.compare_self)
      (.of_ne ⟨by nofun, by nofun⟩ text)
  | date =>
    exact iff_of_true (Value.order?_of_read h (fun _ => rfl) Date.compare_self)
      (.of_ne ⟨by nofun, by nofun⟩ text)
  | time =>
    exact iff_of_true (Value.order?_of_read h (fun _ => rfl) Time.compare_self)
      (.of_ne ⟨by nofun, by nofun⟩ text)
  | dateTime =>
    exact iff_of_true (Value.order?_of_read h (fun _ => rfl) WallTime.compare_self)
      (.of_ne ⟨by nofun, by nofun⟩ text)
  | zonedDateTime =>
    obtain ⟨z, hz, rfl⟩ := map_eq_ok.mp h
    obtain ⟨w, hw, hplace⟩ := readPlaced_eq_ok hz
    rw [order?_of_readWallTime hw rfl, hplace]
    exact iff_of_true rfl (.of_ne ⟨by nofun, by nofun⟩ text)
  | offsetDateTime =>
    obtain ⟨z, hz, rfl⟩ := map_eq_ok.mp h
    obtain ⟨w, hw, hplace⟩ := readPlaced_eq_ok hz
    rw [order?_of_readWallTime hw rfl, inZone?_eq_at?_iff hplace, readAlike_offsetDateTime_iff hw]
  | instant =>
    obtain ⟨z, hz, rfl⟩ := map_eq_ok.mp h
    obtain ⟨w, hw, hplace⟩ := readPlaced_eq_ok hz
    rw [order?_of_readWallTime hw rfl, hplace]
    exact iff_of_true rfl (.of_ne ⟨by nofun, by nofun⟩ text)
  | timestamp =>
    obtain ⟨z, hz, rfl⟩ := map_eq_ok.mp h
    obtain ⟨w, hw, hplace⟩ := readPlaced_eq_ok hz
    rw [order?_of_readWallTime hw rfl, hplace, Option.map_some, Option.some_inj, Instant.eq_smooth_iff,
      nano_of_inZone? hplace, readAlike_timestamp_iff hw]
  | _ => cases ht

/-- **A stored text against itself.**  A filter that compares a field of a written type for equality with
a literal that the built-in reader accepts compiles.  A record that has the text of the literal in the
field satisfies it if and only if the text is read alike; for all types but date-times at the current
offset and timestamps, that is always. -/
theorem stored_text_equal {mapPath : String → String} {s : Schema} {root path : String} {t : FieldType}
    {cache : FieldCache} (hc : cache.Coherent s) (hn : "" ∉ Text.pieces '.' (mapPath path))
    (htype : s.typeAlong? root (Text.pieces '.' (mapPath path)) = some t) (ht : t.IsWritten)
    {text : String} {x : Operand} {v : Value} (hwrites : Writes text path (.compare .equal) [x])
    (hread : Registry.builtIn.read s t x.text = .ok v) (old : List JoinRecord) :
    ∃ cond, (Compiler.compile ⟨.builtIn, mapPath⟩ (Condition.backend s root) old cache
        text).result = .ok cond ∧
      ∀ (record : Json) (e : Evaluator), e.Faithful →
        valuesAt (Text.pieces '.' (mapPath path)) record = [.string x.text] →
          (((Evaluator.holds record cond).run e).1 = true ↔ ReadAlike t x.text) := by
  obtain ⟨cond, hcond, hanswer⟩ := hwrites.compare (c := ⟨.builtIn, mapPath⟩) hc hn htype hread old
  refine ⟨cond, hcond, fun record e he hvalues => ?_⟩
  rw [hanswer record e he, hvalues, List.any_cons, List.any_nil, Bool.or_false, ordersAs_equal_iff,
    order?_stored ht hread]

/-- Events, with the time at the current offset and as a timestamp. -/
def events : Schema := ⟨⟨0⟩, [⟨"Event", none, [⟨"at", .offsetDateTime⟩, ⟨"seen", .timestamp⟩]⟩], []⟩

/-- A timestamp in summer. -/
theorem stored_text_equal_summer :
    let record := Json.object [("seen", .string "2019-07-01 12:00:00")]
    ∃ cond, (Compiler.compile ⟨.builtIn, id⟩ (Condition.backend events "Event") [] .empty
        "seen = '2019-07-01 12:00:00'").result = .ok cond ∧
      ((Evaluator.holds record cond).run .new).1 = true := by
  intro record
  have hn : "" ∉ Text.pieces '.' (id "seen") := by decide
  have htype : events.typeAlong? "Event" (Text.pieces '.' (id "seen")) = some .timestamp := by decide
  have hwrites : Writes "seen = '2019-07-01 12:00:00'" "seen" (.compare .equal)
      [.string "2019-07-01 12:00:00"] := ⟨⟨1, 1⟩, by decide +kernel⟩
  have hwall : readWallTime "2019-07-01 12:00:00" = .ok ⟨⟨2019, 7, 1⟩, ⟨12, 0, 0, 0⟩⟩ := by decide +kernel
  have hread : Registry.builtIn.read events .timestamp "2019-07-01 12:00:00" =
      .ok (.timestamp ⟨1561971600, 0⟩) := by decide +kernel
  obtain ⟨cond, hcond, hanswer⟩ :=
    stored_text_equal (FieldCache.empty_coherent events) hn htype trivial hwrites hread []
  have halike : ReadAlike .timestamp "2019-07-01 12:00:00" :=
    (readAlike_timestamp_iff hwall).mpr (by decide)
  exact ⟨cond, hcond, (hanswer record .new Evaluator.faithful_new rfl).mpr halike⟩

/-- At the current offset a time in summer is an hour later than in the system zone, and the timestamp of a
leap second is the second after it. -/
theorem stored_text_unequal :
    let offset := "at = '2019-07-01 12:00:00'"
    let leap := "seen = '2019-01-01 12:00:60'"
    let record := Json.object [("at", .string "2019-07-01 12:00:00"), ("seen", .string "2019-01-01 12:00:60")]
    (Writes offset "at" (.compare .equal) [.string "2019-07-01 12:00:00"] ∧
        (∃ v, Registry.builtIn.read events .offsetDateTime "2019-07-01 12:00:00" = .ok v) ∧
        valuesAt ["at"] record = [.string "2019-07-01 12:00:00"] ∧
        ∃ cond, (Compiler.compile ⟨.builtIn, id⟩ (Condition.backend events "Event") [] .empty
            offset).result = .ok cond ∧
          ((Evaluator.holds record cond).run .new).1 = false) ∧
      Writes leap "seen" (.compare .equal) [.string "2019-01-01 12:00:60"] ∧
        (∃ v, Registry.builtIn.read events .timestamp "2019-01-01 12:00:60" = .ok v) ∧
        valuesAt ["seen"] record = [.string "2019-01-01 12:00:60"] ∧
        ∃ cond, (Compiler.compile ⟨.builtIn, id⟩ (Condition.backend events "Event") [] .empty
            leap).result = .ok cond ∧
          ((Evaluator.holds record cond).run .new).1 = false := by
  intro offset leap record
  have hoffset : Registry.builtIn.read events .offsetDateTime "2019-07-01 12:00:00" =
      .ok (.atOffset ⟨⟨1561975200, 0⟩, 7200⟩) := by decide +kernel
  have hleap : Registry.builtIn.read events .timestamp "2019-01-01 12:00:60" =
      .ok (.timestamp ⟨1546336860, 0⟩) := by decide +kernel
  have hoffsetCond : (Compiler.compile ⟨.builtIn, id⟩ (Condition.backend events "Event") [] .empty
      offset).result = .ok (.compare ⟨[], "at", none⟩ .equal
        (.atOffset ⟨⟨1561975200, 0⟩, 7200⟩)) := by
    decide +kernel
  have hleapCond : (Compiler.compile ⟨.builtIn, id⟩ (Condition.backend events "Event") [] .empty
      leap).result = .ok (.compare ⟨[], "seen", none⟩ .equal (.timestamp ⟨1546336860, 0⟩)) := by
    decide +kernel
  exact ⟨⟨⟨⟨1, 1⟩, by decide +kernel⟩, ⟨_, hoffset⟩, rfl, _, hoffsetCond, by decide +kernel⟩,
    ⟨⟨1, 1⟩, by decide +kernel⟩, ⟨_, hleap⟩, rfl, _, hleapCond, by decide +kernel⟩

end RecordFilter

import RecordFilter.Proofs.CalendarText
import RecordFilter.Proofs.StoredText
import RecordFilter.Proofs.ValueTypes

/-!
# Values in JSON

The value of a literal can be told from its JSON text and the type of its field (`Value.toJson_inj`), unless
the type is one of binary floating point. The type is needed: texts, dates, wide integers and decimals are
all strings there. It is enough because the built-in readers give only values that are written apart
(`Value.Regular`, `Registry.regular_of_read`): the nanoseconds of a time pass a whole second in a leap
second only, those of a wall-clock time are whole seconds, and clocks differ from UTC by whole minutes.
-/

namespace RecordFilter

open RecordFilter.Number RecordFilter.Calendar RecordFilter.Text

/-! ### What is read of a clock -/

namespace Calendar

theorem Time.regular_ofWritten {hour minute second nano : Nat} (hs : second ≤ 60)
    (hn : nano < nanosPerSecond) : (ofWritten hour minute second nano).Regular := by
  unfold ofWritten
  split
  · refine ⟨Nat.lt_add_one 59, .inr ⟨rfl, ?_⟩⟩
    show nanosPerSecond + nano < 2 * nanosPerSecond
    omega
  · refine ⟨?_, .inl hn⟩
    show second < 60
    omega

/-- The second that is read of a clock is 60 at most. -/
theorem written_of_clock {time : Nat → Time} {cs r : List Char} (h : Reader.clock cs = .ok (time, r)) :
    ∃ hour minute second, second ≤ 60 ∧ time = fun nano => Time.ofWritten hour minute second nano := by
  unfold Reader.clock at h
  obtain ⟨⟨⟨hour, minute⟩, _⟩, -, h⟩ := bind_eq_ok.mp h
  obtain ⟨⟨⟨⟩, _⟩, -, h⟩ := bind_eq_ok.mp h
  obtain ⟨⟨second, _⟩, hsecond, h⟩ := bind_eq_ok.mp h
  cases h
  unfold Reader.bounded at hsecond
  obtain ⟨⟨_, _⟩, -, hsecond⟩ := bind_eq_ok.mp hsecond
  dsimp only at hsecond
  split at hsecond
  · next hbounds =>
    cases hsecond
    exact ⟨hour, minute, second, hbounds.2, rfl⟩
  · cases hsecond

theorem digitsValue_lt_power {ds : List Char} (hd : ∀ d ∈ ds, d.isDigit = true) :
    digitsValue ds < 10 ^ ds.length := by
  induction ds using List.reverseRecOn with
  | nil => exact Nat.one_pos
  | append_singleton ds d ih =>
    have hlast := Decimal.digitValue_lt (hd d (by simp))
    have hfirst := ih fun c hc => hd c (List.mem_append_left _ hc)
    have hvalue : digitsValue (ds ++ [d]) = 10 * digitsValue ds + digitValue d := List.foldl_concat ..
    rw [hvalue, List.length_append, List.length_singleton, Nat.pow_succ]
    omega

/-- A fraction is less than a second. -/
theorem nano_of_fraction {cs r : List Char} {nano : Nat} (h : Reader.fraction cs = .ok (nano, r)) :
    nano < nanosPerSecond := by
  unfold Reader.fraction at h
  obtain ⟨⟨_, _⟩, -, h⟩ := bind_eq_ok.mp h
  cases h
  generalize hrun : (cs.take 9).takeWhile Char.isDigit = run
  have hdigits : ∀ d ∈ run, d.isDigit = true := fun d hd => by
    rw [← hrun] at hd
    exact List.mem_takeWhile_imp hd
  have hlength : run.length ≤ 9 := by
    rw [← hrun]
    exact (List.takeWhile_prefix _).length_le.trans (List.length_take_le 9 cs)
  calc digitsValue run * 10 ^ (9 - run.length)
      < 10 ^ run.length * 10 ^ (9 - run.length) :=
        Nat.mul_lt_mul_of_pos_right (digitsValue_lt_power hdigits) (Nat.pow_pos (by decide))
    _ = 10 ^ 9 := by rw [← Nat.pow_add, Nat.add_sub_cancel' hlength]
    _ = nanosPerSecond := rfl

theorem nano_of_optionalFraction {cs r : List Char} {nano : Nat}
    (h : Reader.optionalFraction cs = .ok (nano, r)) : nano < nanosPerSecond := by
  unfold Reader.optionalFraction at h
  split at h
  · exact nano_of_fraction h
  · cases h
    decide

theorem eq_of_complete {α : Type} {a b : α} {cs : List Char} (h : complete (a, cs) = .ok b) : a = b := by
  unfold complete at h
  split at h
  · next heq =>
    cases heq
    cases h
    rfl
  · cases h

theorem regular_of_readTime {text : String} {t : Time} (h : readTime text = .ok t) : t.Regular := by
  unfold readTime at h
  split at h
  · next t' hwith =>
    cases h
    unfold readTimeWithSecond at hwith
    obtain ⟨⟨time, _⟩, hclock, hwith⟩ := bind_eq_ok.mp hwith
    obtain ⟨⟨nano, _⟩, hnano, hwith⟩ := bind_eq_ok.mp hwith
    obtain ⟨hour, minute, second, hsecond, rfl⟩ := written_of_clock hclock
    rw [← eq_of_complete hwith]
    exact Time.regular_ofWritten hsecond (nano_of_optionalFraction hnano)
  · unfold readTimeWithoutSecond at h
    obtain ⟨⟨⟨hour, minute⟩, _⟩, -, h⟩ := bind_eq_ok.mp h
    rw [← eq_of_complete h]
    exact ⟨Nat.zero_lt_succ 59, .inl (Nat.zero_lt_succ _)⟩

/-- A wall-clock time is read to the second. -/
theorem regular_of_readWallTime {text : String} {w : WallTime} (h : readWallTime text = .ok w) :
    w.time.Regular ∧ w.time.nano % nanosPerSecond = 0 := by
  unfold readWallTime at h
  obtain ⟨⟨_, _⟩, -, h⟩ := bind_eq_ok.mp h
  obtain ⟨⟨time, _⟩, hclock, h⟩ := bind_eq_ok.mp h
  obtain ⟨w', hcomplete, h⟩ := bind_eq_ok.mp h
  obtain ⟨_, -, h⟩ := bind_eq_ok.mp h
  cases h
  obtain ⟨hour, minute, second, hsecond, rfl⟩ := written_of_clock hclock
  rw [← eq_of_complete hcomplete]
  refine ⟨Time.regular_ofWritten hsecond (by decide), ?_⟩
  dsimp only
  unfold Time.ofWritten
  split
  · exact Nat.mod_self nanosPerSecond
  · exact Nat.zero_mod nanosPerSecond

/-! ### What is read of a clock with an offset -/

/-- The instant and the offset are written apart from others. -/
def Zoned.Regular (z : Zoned) : Prop := z.instant.Regular ∧ 60 ∣ z.offset

theorem Zoned.render_inj {a b : Zoned} (ha : a.Regular) (hb : b.Regular) (h : a.render = b.render) :
    a = b := by
  obtain ⟨hinstant, hoffset⟩ := Instant.render_inj ha.1 hb.1 ha.2 hb.2 h
  exact Zoned.mk.injEq .. |>.mpr ⟨hinstant, hoffset⟩

theorem regular_of_at? {w : WallTime} {offset : Int} {z : Zoned} (hw : w.time.Regular)
    (ho : 60 ∣ offset) (h : w.at? offset = some z) : z.Regular := by
  obtain ⟨-, rfl⟩ := WallTime.at?_eq_some_iff.mp h
  refine ⟨hw.nano.imp_right fun ⟨hsecond, hnano⟩ => ⟨?_, hnano⟩, ho⟩
  unfold WallTime.toSeconds Time.toSeconds
  dsimp only
  omega

theorem dvd_offsetOf? {wall offset : Int} (h : Zone.system.offsetOf? wall = some offset) :
    60 ∣ offset := by
  unfold Zone.offsetOf? at h
  split_ifs at h <;> cases h <;> decide

end Calendar

theorem regular_of_readLocal {text : String} {z : Zoned} (h : readLocal text = .ok z) : z.Regular := by
  obtain ⟨w, hw, hplace⟩ := readPlaced_eq_ok h
  obtain ⟨offset, hoffset, hat⟩ := Option.bind_eq_some_iff.mp hplace
  exact regular_of_at? (regular_of_readWallTime hw).1 (dvd_offsetOf? hoffset) hat

theorem regular_of_readAtOffset {text : String} {z : Zoned} (h : readAtOffset text = .ok z) :
    z.Regular := by
  obtain ⟨w, hw, hat⟩ := readPlaced_eq_ok h
  exact regular_of_at? (regular_of_readWallTime hw).1 (by decide) hat

theorem Calendar.Instant.regular_smooth {t : Instant} (h : t.Regular) : t.smooth.Regular := by
  unfold smooth
  split
  · exact h
  · refine .inl ?_
    show t.nano - nanosPerSecond < nanosPerSecond
    have hbound : 0 < nanosPerSecond := by decide
    rcases h with h | ⟨-, h⟩ <;> omega

/-! ### Values that are written apart -/

/-- **What the readers keep to** so that different values of a type have different texts. -/
def Value.Regular : Value → Prop
  | time t => t.Regular
  | dateTime w => w.time.Regular ∧ w.time.nano % nanosPerSecond = 0
  | zoned z => z.Regular
  | atOffset z => z.Regular
  | instant t => t.Regular
  | timestamp t => t.Regular
  | _ => True

namespace Registry

theorem regular_of_builtInReader? {t : FieldType} {reader : LiteralReader} {literal : String} {v : Value}
    (hr : builtInReader? t = some reader) (h : reader literal = .ok v) : v.Regular := by
  cases t with
  | time =>
    cases hr
    obtain ⟨a, ha, rfl⟩ := map_eq_ok.mp h
    exact regular_of_readTime (mapError_eq_ok.mp ha)
  | dateTime =>
    cases hr
    obtain ⟨a, ha, rfl⟩ := map_eq_ok.mp h
    exact regular_of_readWallTime (mapError_eq_ok.mp ha)
  | zonedDateTime =>
    cases hr
    obtain ⟨a, ha, rfl⟩ := map_eq_ok.mp h
    exact regular_of_readLocal ha
  | offsetDateTime =>
    cases hr
    obtain ⟨a, ha, rfl⟩ := map_eq_ok.mp h
    exact regular_of_readAtOffset ha
  | instant =>
    cases hr
    obtain ⟨a, ha, rfl⟩ := map_eq_ok.mp h
    exact (regular_of_readLocal ha).1
  | timestamp =>
    cases hr
    obtain ⟨a, ha, rfl⟩ := map_eq_ok.mp h
    exact Instant.regular_smooth (regular_of_readLocal ha).1
  | _ =>
    -- nothing is asked of the values of other types
    have htype := (belongsTo_of_builtInReader? (s := ⟨⟨0⟩, [], []⟩) hr h).type
    cases v <;> trivial

/-- **What is read is written apart.** -/
theorem regular_of_read {s : Schema} {t : FieldType} {literal : String} {v : Value}
    (h : builtIn.read s t literal = .ok v) : v.Regular := by
  unfold read at h
  split at h
  · have htype := (belongsTo_of_readVariant h).type
    cases v <;> trivial
  · split at h
    · next reader hr => exact regular_of_builtInReader? hr h
    · cases h

end Registry

/-! ### Values told from their JSON text -/

namespace Value

/-- Integers of one width: the wide ones are strings, the others are numbers. -/
theorem integer_toJson_inj {w : IntWidth} {m n : Int}
    (h : (integer w m).toJson = (integer w n).toJson) : m = n := by
  simp only [toJson] at h
  split at h
  · split at h
    · exact toString_inj (Json.string.inj h)
    · cases h
  · split at h
    · cases h
    · exact Json.integer.inj h

/-- **Two values of one type are the same if their JSON texts are**, unless the type is one of binary
floating point. -/
theorem toJson_inj {v w : Value} (hv : v.Regular) (hw : w.Regular) (htype : v.type = w.type)
    (hfloat : v.type ≠ .single ∧ v.type ≠ .double) (h : v.toJson = w.toJson) : v = w := by
  cases v with
  | single x => exact absurd rfl hfloat.1
  | double x => exact absurd rfl hfloat.2
  | text a =>
    cases w with
    | text b => rw [Json.string.inj h]
    | _ => cases htype
  | bool a =>
    cases w with
    | bool b => rw [Json.bool.inj h]
    | _ => cases htype
  | enum a variant =>
    cases w with
    | enum b variant' =>
      cases htype
      rw [Json.string.inj h]
    | _ => cases htype
  | uuid a =>
    cases w with
    | uuid b => rw [Uuid.render_inj (Json.string.inj h)]
    | _ => cases htype
  | date a =>
    cases w with
    | date b => rw [Date.render_inj (Json.string.inj h)]
    | _ => cases htype
  | time a =>
    cases w with
    | time b => rw [Time.render_inj hv hw (Json.string.inj h)]
    | _ => cases htype
  | dateTime a =>
    cases w with
    | dateTime b => rw [WallTime.render_inj hv.1 hw.1 hv.2 hw.2 (Json.string.inj h)]
    | _ => cases htype
  | zoned a =>
    cases w with
    | zoned b => rw [Zoned.render_inj hv hw (Json.string.inj h)]
    | _ => cases htype
  | atOffset a =>
    cases w with
    | atOffset b => rw [Zoned.render_inj hv hw (Json.string.inj h)]
    | _ => cases htype
  | instant a =>
    cases w with
    | instant b => rw [(Instant.render_inj hv hw ⟨0, rfl⟩ ⟨0, rfl⟩ (Json.string.inj h)).1]
    | _ => cases htype
  | timestamp a =>
    cases w with
    | timestamp b => rw [(Instant.render_inj hv hw ⟨0, rfl⟩ ⟨0, rfl⟩ (Json.string.inj h)).1]
    | _ => cases htype
  | integer width a =>
    cases w with
    | integer width' b =>
      cases htype
      rw [integer_toJson_inj h]
    | _ => cases htype
  | bigInteger a =>
    cases w with
    | bigInteger b => rw [toString_inj (Json.string.inj h)]
    | _ => cases htype
  | decimal a =>
    cases w with
    | decimal b => rw [Decimal.render_inj (Json.string.inj h)]
    | _ => cases htype

end Value

end RecordFilter

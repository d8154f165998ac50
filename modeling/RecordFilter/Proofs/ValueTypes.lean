import RecordFilter.Proofs.Running

/-!
# Values of a type

Every value belongs to one type of field (`Value.type`). In a schema a value of a type may have to meet
more than that: a bounded integer has to fit its width, and the variant of an enumeration has to be
declared (`Value.BelongsTo`). Entities, collections and the types of an application have no values of
their own, and an enumeration has some only if the schema declares it (`Schema.HasValues`).

What the built-in readers make of a literal is a value of the type that it is read for
(`belongsTo_of_read`), and they read nothing for a type without values (`hasValues_of_read`).
-/

namespace RecordFilter

open RecordFilter.Number RecordFilter.Text

/-- The type of field for which a value stands. -/
def Value.type : Value → FieldType
  | text _ => .text
  | bool _ => .bool
  | uuid _ => .uuid
  | date _ => .date
  | time _ => .time
  | dateTime _ => .dateTime
  | zoned _ => .zonedDateTime
  | atOffset _ => .offsetDateTime
  | instant _ => .instant
  | timestamp _ => .timestamp
  | integer w _ => .integer w
  | single _ => .single
  | double _ => .double
  | bigInteger _ => .bigInteger
  | decimal _ => .decimal
  | enum name _ => .enum name

/-- **A value of a type:** it stands for that type, an integer is not wider than the type says, and a
variant is one that the schema declares. -/
structure Value.BelongsTo (s : Schema) (t : FieldType) (v : Value) : Prop where
  type : v.type = t
  range : ∀ w n, v = .integer w n → w.least ≤ n ∧ n ≤ w.greatest
  variant : ∀ enum name, v = .enum enum name → ∃ names, s.variants? enum = some names ∧ name ∈ names

/-- The types of which there are values. -/
def Schema.HasValues (s : Schema) : FieldType → Prop
  | .enum name => ∃ names, s.variants? name = some names
  | .entity _ => False
  | .collection _ => False
  | .custom _ => False
  | _ => True

/-! ### Integers in their width -/

namespace Number

theorem IntWidth.least_nonpos (w : IntWidth) : w.least ≤ 0 := by
  cases w <;> decide

theorem IntWidth.greatest_nonneg (w : IntWidth) : 0 ≤ w.greatest := by
  cases w <;> decide

/-- What has been read so far is on the side of its sign and has not left the bounds. -/
def Within (negative : Bool) (least greatest n : Int) : Prop :=
  if negative then least ≤ n ∧ n ≤ 0 else 0 ≤ n ∧ n ≤ greatest

theorem within_digitStep {negative : Bool} {least greatest n m : Int} {c : Char}
    (hn : Within negative least greatest n) (h : digitStep negative least greatest n c = .ok m) :
    Within negative least greatest m := by
  unfold digitStep at h
  unfold Within at hn ⊢
  have hdigit : (0 : Int) ≤ digitValue c := Int.natCast_nonneg _
  cases negative with
  | true =>
    simp only [if_true] at hn h ⊢
    split at h
    · cases h
    · split at h
      · cases h
      · cases h
        omega
  | false =>
    simp only [Bool.false_eq_true, if_false] at hn h ⊢
    split at h
    · cases h
    · split at h
      · cases h
      · cases h
        omega

theorem within_foldlM {negative : Bool} {least greatest : Int} : ∀ (cs : List Char) {n m : Int},
    Within negative least greatest n → cs.foldlM (digitStep negative least greatest) n = .ok m →
      Within negative least greatest m
  | [], n, m, hn, h => by
    cases h
    exact hn
  | c :: cs, n, m, hn, h => by
    rw [List.foldlM_cons] at h
    cases hc : digitStep negative least greatest n c with
    | error f =>
      rw [hc] at h
      cases h
    | ok k =>
      rw [hc] at h
      exact within_foldlM cs (within_digitStep hn hc) h

/-- **A number that is read is within the bounds.** -/
theorem bounds_of_readBounded {least greatest n : Int} {cs : List Char} (hl : least ≤ 0)
    (hg : 0 ≤ greatest) (h : readBounded least greatest cs = .ok n) : least ≤ n ∧ n ≤ greatest := by
  have hpositive : ∀ ds : List Char, ds.foldlM (digitStep false least greatest) 0 = .ok n →
      least ≤ n ∧ n ≤ greatest := by
    intro ds hds
    have hstart : Within false least greatest 0 := ⟨Int.le_refl 0, hg⟩
    have hwithin := within_foldlM ds hstart hds
    simp only [Within, Bool.false_eq_true, if_false] at hwithin
    omega
  have hnegative : ∀ ds : List Char, ds.foldlM (digitStep true least greatest) 0 = .ok n →
      least ≤ n ∧ n ≤ greatest := by
    intro ds hds
    have hstart : Within true least greatest 0 := ⟨hl, Int.le_refl 0⟩
    have hwithin := within_foldlM ds hstart hds
    simp only [Within, if_true] at hwithin
    omega
  unfold readBounded at h
  split at h
  · cases h
  · cases h
  · cases h
  · exact hpositive _ h
  · exact hnegative _ h
  · exact hpositive _ h

end Number

/-! ### What is read for a type -/

namespace Registry

/-- Only enumerations have variants, and only they are read through the schema. -/
theorem belongsTo_of_readVariant {s : Schema} {enum literal : String} {v : Value}
    (h : readVariant s enum literal = .ok v) : v.BelongsTo s (.enum enum) := by
  unfold readVariant at h
  split at h
  · cases h
  · next names hnames =>
    split at h
    · next hmem =>
      cases h
      refine ⟨rfl, nofun, fun e name hv => ?_⟩
      cases hv
      exact ⟨names, hnames, hmem⟩
    · cases h

/-- **A built-in reader gives values of its type.** -/
theorem belongsTo_of_builtInReader? {s : Schema} {t : FieldType} {reader : LiteralReader}
    {literal : String} {v : Value} (hr : builtInReader? t = some reader)
    (h : reader literal = .ok v) : v.BelongsTo s t := by
  cases t with
  | integer w =>
    cases hr
    obtain ⟨n, hn, rfl⟩ := map_eq_ok.mp h
    refine ⟨rfl, fun w' n' hv => ?_, nofun⟩
    cases hv
    have hread : w.read literal = .ok n := mapError_eq_ok.mp hn
    exact bounds_of_readBounded w.least_nonpos w.greatest_nonneg hread
  | text =>
    cases hr
    cases h
    exact ⟨rfl, nofun, nofun⟩
  | bool =>
    cases hr
    unfold readBool at h
    dsimp only at h
    split at h
    · cases h
      exact ⟨rfl, nofun, nofun⟩
    · split at h
      · cases h
        exact ⟨rfl, nofun, nofun⟩
      · cases h
  | enum name => cases hr
  | entity name => cases hr
  | collection name => cases hr
  | custom name => cases hr
  | _ =>
    cases hr
    obtain ⟨a, -, rfl⟩ := map_eq_ok.mp h
    exact ⟨rfl, nofun, nofun⟩

/-- **What is read for a type is a value of the type.** -/
theorem belongsTo_of_read {s : Schema} {t : FieldType} {literal : String} {v : Value}
    (h : builtIn.read s t literal = .ok v) : v.BelongsTo s t := by
  unfold read at h
  split at h
  · exact belongsTo_of_readVariant h
  · split at h
    · next reader hr => exact belongsTo_of_builtInReader? hr h
    · cases h

/-- There is nothing to read for a type without values. -/
theorem hasValues_of_read {s : Schema} {t : FieldType} {literal : String} {v : Value}
    (h : builtIn.read s t literal = .ok v) : s.HasValues t := by
  obtain ⟨htype, -, hvariant⟩ := belongsTo_of_read h
  subst htype
  cases v with
  | enum enum name =>
    obtain ⟨names, hnames, -⟩ := hvariant enum name rfl
    exact ⟨names, hnames⟩
  | _ => trivial

end Registry

end RecordFilter

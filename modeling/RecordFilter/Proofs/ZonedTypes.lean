import RecordFilter.Proofs.Answers
import RecordFilter.Proofs.Hierarchy
import RecordFilter.Proofs.ValueText

/-!
# The types of zoned date-times

Zoned date-times, instants and timestamps are read alike: a literal of any of them is a wall-clock time,
which is placed in the system zone (`FieldType.zoned`, `exists_read_zoned`).  They differ in what is kept of
it.  A zoned date-time keeps the offset, an instant does not, and a timestamp has no leap seconds: it keeps
the second after.  In a comparison only the instant counts, so a filter answers the same whichever of the
three types its fields have (`Schema.ZonedAlike`), as long as no leap second is compared with a field that is
a timestamp on one side only.
-/

namespace RecordFilter

open RecordFilter.Calendar

/-! ### Literals of the three types -/

/-- The types whose literals are wall-clock times in the system zone. -/
def FieldType.zoned : List FieldType := [.zonedDateTime, .instant, .timestamp]

/-- Whether the text is a wall-clock time in a leap second, which is written as second 60. -/
def hasLeapSecond (text : String) : Bool :=
  (readWallTime text).toOption.any fun w => w.time.writtenSecond == 60

/-- The instant that a value of the type keeps of one that is read. -/
def FieldType.keep (t : FieldType) (u : Instant) : Instant := if t = .timestamp then u.smooth else u

/-- **The three types have one reader**, and differ in the value that they make of what it reads. -/
theorem exists_read_zoned {t : FieldType} (ht : t ∈ FieldType.zoned) (s : Schema) (text : String) :
    ∃ value : Zoned → Value, (∀ z, (value z).instant? = some (t.keep z.instant)) ∧
      Registry.builtIn.read s t text = (readLocal text).map value := by
  simp only [FieldType.zoned, List.mem_cons, List.not_mem_nil, or_false] at ht
  obtain rfl | rfl | rfl := ht
  · exact ⟨.zoned, fun _ => rfl, rfl⟩
  · exact ⟨fun z => .instant z.instant, fun _ => rfl, rfl⟩
  · exact ⟨fun z => .timestamp z.instant.smooth, fun _ => rfl, rfl⟩

theorem Calendar.Time.Regular.writtenSecond_eq_iff {t : Time} (h : t.Regular) :
    t.writtenSecond = 60 ↔ ¬ t.nano < nanosPerSecond := by
  obtain ⟨hsecond, hnano⟩ := h
  unfold Time.writtenSecond
  split <;> omega

/-- A timestamp has no leap seconds: it is the second after. -/
theorem smooth_of_readLocal {text : String} {z : Zoned} (h : readLocal text = .ok z) :
    z.instant.smooth =
      if hasLeapSecond text = true then ⟨z.instant.seconds + 1, 0⟩ else z.instant := by
  obtain ⟨w, hw, hplace⟩ := readPlaced_eq_ok h
  obtain ⟨hregular, hwhole⟩ := regular_of_readWallTime hw
  have hleap : hasLeapSecond text = true ↔ ¬ z.instant.nano < nanosPerSecond := by
    rw [hasLeapSecond, hw, nano_of_inZone? hplace, ← hregular.writtenSecond_eq_iff]
    exact beq_iff_eq
  unfold Instant.smooth
  rw [if_congr hleap rfl rfl, ite_not]
  split
  · rfl
  · -- the nanoseconds are those of one whole second
    rename_i hnano
    have hone : z.instant.nano - nanosPerSecond = 0 := by
      rw [nano_of_inZone? hplace] at hnano ⊢
      have hbound := hregular.2
      unfold nanosPerSecond at *
      omega
    rw [hone]

theorem keep_of_readLocal {text : String} {z : Zoned} (h : readLocal text = .ok z) (t : FieldType) :
    t.keep z.instant =
      if t = .timestamp ∧ hasLeapSecond text = true then ⟨z.instant.seconds + 1, 0⟩ else z.instant := by
  rw [FieldType.keep, smooth_of_readLocal h, ite_and]

/-! ### Alike types -/

/-- The types are the same, or both are types of zoned date-times. -/
def FieldType.ZonedAlike (t t' : FieldType) : Prop := t = t' ∨ t ∈ zoned ∧ t' ∈ zoned

/-- Nothing is reached through a zoned date-time. -/
theorem FieldType.ZonedAlike.target? {t t' : FieldType} (h : t.ZonedAlike t') :
    t.target? = t'.target? := by
  have hzoned : ∀ u ∈ zoned, u.target? = none := by decide
  obtain rfl | ⟨ht, ht'⟩ := h
  · rfl
  · rw [hzoned t ht, hzoned t' ht']

/-- The fields have one name and alike types. -/
def FieldDecl.ZonedAlike (d d' : FieldDecl) : Prop := d.name = d'.name ∧ d.type.ZonedAlike d'.type

/-- The schemas differ only in which of the types of zoned date-times their fields have. -/
structure Schema.ZonedAlike (s s' : Schema) : Prop where
  fields : ∀ name, List.Forall₂ FieldDecl.ZonedAlike (s.declaredFields name) (s'.declaredFields name)
  parent : ∀ name, s.parent? name = s'.parent? name
  variants : ∀ enum, s.variants? enum = s'.variants? enum

section option

variable {α α' β : Type} {R : α → α' → Prop} {x : Option α} {x' : Option α'}

theorem rel_cases (h : Option.Rel R x x') :
    (x = none ∧ x' = none) ∨ ∃ a a', x = some a ∧ x' = some a' ∧ R a a' := by
  cases h with
  | none => exact .inl ⟨rfl, rfl⟩
  | some h => exact .inr ⟨_, _, rfl, rfl, h⟩

/-- What is made alike of related values is the same. -/
theorem bind_eq_of_rel {f : α → Option β} {f' : α' → Option β} (h : Option.Rel R x x')
    (hf : ∀ a a', R a a' → f a = f' a') : x.bind f = x'.bind f' := by
  obtain ⟨rfl, rfl⟩ | ⟨a, a', rfl, rfl, ha⟩ := rel_cases h
  · rfl
  · exact hf a a' ha

theorem rel_mapM {ι : Type} {f : ι → Option α} {f' : ι → Option α'} {is : List ι}
    (h : ∀ i ∈ is, Option.Rel R (f i) (f' i)) : Option.Rel (List.Forall₂ R) (is.mapM f) (is.mapM f') := by
  induction is with
  | nil => exact .some .nil
  | cons i is ih =>
    rw [List.forall_mem_cons] at h
    rw [List.mapM_cons, List.mapM_cons]
    obtain ⟨hi, hi'⟩ | ⟨a, a', hi, hi', ha⟩ := rel_cases h.1
    · rw [hi, hi']
      exact .none
    · obtain ⟨his, his'⟩ | ⟨as, as', his, his', has⟩ := rel_cases (ih h.2)
      · rw [hi, hi', his, his']
        exact .none
      · rw [hi, hi', his, his']
        exact .some (.cons ha has)

end option

namespace Schema.ZonedAlike

variable {s s' : Schema}

theorem typeIn? {ds ds' : List FieldDecl} (h : List.Forall₂ FieldDecl.ZonedAlike ds ds') (field : String) :
    Option.Rel FieldType.ZonedAlike (Schema.typeIn? field ds) (Schema.typeIn? field ds') := by
  unfold Schema.typeIn?
  induction h with
  | nil => exact .none
  | @cons d d' ds ds' hd _ ih =>
    rw [List.find?_cons, List.find?_cons, hd.1]
    cases d'.name == field with
    | true => exact .some hd.2
    | false => exact ih

/-- Every field of the one schema is one of the other, of an alike type. -/
theorem fieldType? (h : s.ZonedAlike s') (owner field : String) :
    Option.Rel FieldType.ZonedAlike (s.fieldType? owner field) (s'.fieldType? owner field) := by
  unfold Schema.fieldType?
  rw [hierarchy_of_parents h.parent]
  induction s'.hierarchy owner with
  | nil => exact .none
  | cons name above ih =>
    rw [List.findSome?_cons, List.findSome?_cons]
    obtain ⟨ht, ht'⟩ | ⟨t, t', ht, ht', halike⟩ := rel_cases (typeIn? (h.fields name) field)
    · rw [ht, ht']
      exact ih
    · rw [ht, ht']
      exact .some halike

theorem target? (h : s.ZonedAlike s') (owner field : String) :
    s.target? owner field = s'.target? owner field :=
  bind_eq_of_rel (h.fieldType? owner field) fun _ _ => FieldType.ZonedAlike.target?

/-- Every path leads to alike types. -/
theorem typeAlong? (h : s.ZonedAlike s') : ∀ (owner : String) (path : List String),
    Option.Rel FieldType.ZonedAlike (s.typeAlong? owner path) (s'.typeAlong? owner path)
  | _, [] => .none
  | owner, [name] => h.fieldType? owner name
  | owner, x :: y :: rest => by
    rw [Schema.typeAlong?, Schema.typeAlong?, h.target?]
    cases s'.target? owner x with
    | none => exact .none
    | some entity => exact h.typeAlong? entity (y :: rest)

end Schema.ZonedAlike

/-! ### Alike values -/

/-- Other types than enumerations are read without the schema. -/
theorem read_congr {s s' : Schema} (h : ∀ enum, s.variants? enum = s'.variants? enum) (registry : Registry)
    (t : FieldType) (text : String) : registry.read s t text = registry.read s' t text := by
  cases t with
  | enum name =>
    show Registry.readVariant s name text = Registry.readVariant s' name text
    rw [Registry.readVariant, Registry.readVariant, h]
  | _ => rfl

/-- **Literals of alike types** are both values or neither is, and as values they are compared alike. -/
theorem rel_read {s s' : Schema} (h : s.ZonedAlike s') {t t' : FieldType} (ht : t.ZonedAlike t')
    {text : String} (hleap : hasLeapSecond text = true → (t = .timestamp ↔ t' = .timestamp)) :
    Option.Rel (fun v v' => v.order? = v'.order?) (Registry.builtIn.read s t text).toOption
      (Registry.builtIn.read s' t' text).toOption := by
  obtain rfl | ⟨ht, ht'⟩ := ht
  · rw [read_congr h.variants]
    cases Registry.builtIn.read s' t text with
    | error e => exact .none
    | ok v => exact .some rfl
  · obtain ⟨value, hvalue, hread⟩ := exists_read_zoned ht s text
    obtain ⟨value', hvalue', hread'⟩ := exists_read_zoned ht' s' text
    rw [hread, hread']
    cases hlocal : readLocal text with
    | error e => exact .none
    | ok z =>
      refine .some ?_
      have hkeep : t.keep z.instant = t'.keep z.instant := by
        rw [keep_of_readLocal hlocal, keep_of_readLocal hlocal]
        exact if_congr (and_congr_left hleap) rfl rfl
      rw [Value.order?_of_instant? (hvalue z), Value.order?_of_instant? (hvalue' z), hkeep]

theorem ordersAs_congr {v v' : Value} (h : v.order? = v'.order?) (op : Comparison) :
    ordersAs op v = ordersAs op v' := by
  funext j
  unfold ordersAs
  rw [h]

theorem any_ordersAs_congr {vs vs' : List Value}
    (h : List.Forall₂ (fun v v' => v.order? = v'.order?) vs vs') (op : Comparison) (j : Json) :
    (vs.any fun v => ordersAs op v j) = vs'.any fun v => ordersAs op v j := by
  induction h with
  | nil => rfl
  | cons hv _ ih => rw [List.any_cons, List.any_cons, ih, ordersAs_congr hv]

/-! ### Filters -/

/-- The literals that are read as values of the type of the field. -/
def Predicate.literals (p : Predicate) : List Operand :=
  match p.operator with
  | .test _ | .like _ _ => []
  | _ => p.operands

/-- A leap second is compared only with fields that are timestamps in both schemas or in neither. -/
def Predicate.LeapsAlike (p : Predicate) (s s' : Schema) (root : String) : Prop :=
  ∀ o ∈ p.literals, hasLeapSecond o.text = true →
    (s.typeAlong? root (Text.pieces '.' p.path) = some .timestamp ↔
      s'.typeAlong? root (Text.pieces '.' p.path) = some .timestamp)

theorem Predicate.mem_of_bounds? {p : Predicate} {low high : Operand} (h : p.bounds? = some (low, high)) :
    low ∈ p.operands ∧ high ∈ p.operands := by
  unfold bounds? at h
  split at h
  · rename_i hreverse
    cases h
    have hmem : ∀ o ∈ p.operands.reverse, o ∈ p.operands := fun _ => List.mem_reverse.mp
    rw [hreverse] at hmem
    exact ⟨hmem low (List.mem_cons_of_mem _ List.mem_cons_self), hmem high List.mem_cons_self⟩
  · cases h

section verdict

variable {s s' : Schema} {root : String} {record : Json}

/-- **A predicate about alike types has the same verdict**: its literals are compared alike. -/
theorem Predicate.verdict?_zonedAlike (h : s.ZonedAlike s') {p : Predicate} (hp : p.LeapsAlike s s' root) :
    p.verdict? .builtIn s root record = p.verdict? .builtIn s' root record := by
  unfold Predicate.verdict?
  dsimp only
  obtain ⟨htype, htype'⟩ | ⟨t, t', htype, htype', ht⟩ :=
    rel_cases (h.typeAlong? root (Text.pieces '.' p.path))
  · rw [htype, htype']
    rfl
  have hread : ∀ o ∈ p.literals, Option.Rel (fun v v' => v.order? = v'.order?)
      (Registry.builtIn.read s t o.text).toOption (Registry.builtIn.read s' t' o.text).toOption := by
    intro o ho
    refine rel_read h ht fun hleap => ?_
    have hiff := hp o ho hleap
    rwa [htype, htype', Option.some_inj, Option.some_inj] at hiff
  rw [htype, htype']
  unfold Predicate.literals at hread
  simp only [Option.bind_eq_bind, Option.bind_some]
  cases hop : p.operator with
  | compare op =>
    simp only [hop] at hread ⊢
    cases hlast : p.operands.getLast? with
    | none => rfl
    | some o =>
      rw [Option.bind_some, Option.bind_some]
      refine bind_eq_of_rel (hread o (List.mem_of_getLast? hlast)) fun v v' hv => ?_
      rw [ordersAs_congr hv]
  | test _ => rfl
  | like _ _ => rfl
  | member negated =>
    simp only [hop] at hread ⊢
    refine bind_eq_of_rel (rel_mapM hread) fun vs vs' hvs => ?_
    simp only [any_ordersAs_congr hvs]
  | between =>
    simp only [hop] at hread ⊢
    cases hbounds : p.bounds? with
    | none => rfl
    | some bounds =>
      obtain ⟨hlow, hhigh⟩ := Predicate.mem_of_bounds? hbounds
      rw [Option.bind_some, Option.bind_some]
      refine bind_eq_of_rel (hread _ hlow) fun v v' hv => ?_
      refine bind_eq_of_rel (hread _ hhigh) fun w w' hw => ?_
      rw [ordersAs_congr hv, ordersAs_congr hw]

mutual

/-- Groups whose predicates have the same verdicts have the same verdict. -/
theorem Group.verdict?_congr {registry registry' : Registry} : ∀ {g : Group},
    (∀ p ∈ g.predicates, p.verdict? registry s root record = p.verdict? registry' s' root record) →
      g.verdict? registry s root record = g.verdict? registry' s' root record
  | .one _, h => Group.clauseVerdict?_congr h
  | .join _ _ _, h => by
    rw [Group.predicates, List.forall_mem_append] at h
    rw [Group.verdict?, Group.verdict?, Group.verdict?_congr h.1, Group.clauseVerdict?_congr h.2]

theorem Group.clauseVerdict?_congr {registry registry' : Registry} : ∀ {clause : Clause},
    (∀ p ∈ Group.clausePredicates clause,
      p.verdict? registry s root record = p.verdict? registry' s' root record) →
      Group.clauseVerdict? registry s root record clause =
        Group.clauseVerdict? registry' s' root record clause
  | .predicate p, h => h p (List.mem_singleton_self p)
  | .group g, h => Group.verdict?_congr (g := g) h

end

/-- What is no filter has no answer. -/
theorem answer?_of_parse_error {registry : Registry} {text : String} {e : SyntaxError}
    (h : parse text = .error e) (k : Circumstances s) : answer? registry root k text record = none := by
  unfold answer? Compiler.compile
  rw [h]
  rfl

/-- **Filters about alike types answer the same.** -/
theorem answer?_zonedAlike (h : s.ZonedAlike s') {text : String}
    (hleaps : ∀ g, parse text = .ok g → ∀ p ∈ g.predicates, p.LeapsAlike s s' root)
    (k : Circumstances s) (k' : Circumstances s') :
    answer? .builtIn root k text record = answer? .builtIn root k' text record := by
  cases hparse : parse text with
  | error e => rw [answer?_of_parse_error hparse, answer?_of_parse_error hparse]
  | ok g =>
    rw [answer?_eq_verdict? hparse, answer?_eq_verdict? hparse]
    exact Group.verdict?_congr fun p hp => Predicate.verdict?_zonedAlike h (hleaps g hparse p hp)

end verdict

/-- **Zoned date-times, instants and timestamps agree.**  A literal has no value of any of the three types,
for one and the same cause, or it has a value of each of them.  All these values are one instant, except that
the timestamp of a leap second is the second after.  And whichever of the three types the fields have, a
filter answers the same, as long as leap seconds are compared only with fields that are timestamps in both
schemas or in neither. -/
theorem zoned_types_agree :
    (∀ (s : Schema) (field text : String),
      (∃ cause, ∀ t ∈ FieldType.zoned,
        Registry.builtIn.convertTo s t field text = .error (.conversion t field text cause)) ∨
      ∃ u : Instant, ∀ t ∈ FieldType.zoned, ∃ v,
        Registry.builtIn.convertTo s t field text = .ok v ∧
          v.instant? =
            some (if t = .timestamp ∧ hasLeapSecond text = true then ⟨u.seconds + 1, 0⟩ else u)) ∧
    ∀ (s s' : Schema), s.ZonedAlike s' → ∀ root text : String,
      (∀ g, parse text = .ok g → ∀ p ∈ g.predicates, p.LeapsAlike s s' root) →
        ∀ (k : Circumstances s) (k' : Circumstances s') (record : Json),
          answer? .builtIn root k text record = answer? .builtIn root k' text record := by
  refine ⟨fun s field text => ?_, fun s s' h root text hleaps k k' record =>
    answer?_zonedAlike h hleaps k k'⟩
  cases hlocal : readLocal text with
  | error cause =>
    refine .inl ⟨cause, fun t ht => ?_⟩
    obtain ⟨value, -, hread⟩ := exists_read_zoned ht s text
    rw [Registry.convertTo, hread, hlocal]
    rfl
  | ok z =>
    refine .inr ⟨z.instant, fun t ht => ?_⟩
    obtain ⟨value, hvalue, hread⟩ := exists_read_zoned ht s text
    refine ⟨value z, ?_, ?_⟩
    · rw [Registry.convertTo, hread, hlocal]
      rfl
    · rw [hvalue, keep_of_readLocal hlocal]

/-- Visits, of which the time is kept as a value of the type. -/
def visits (t : FieldType) : Schema := ⟨⟨0⟩, [⟨"Visit", none, [⟨"at", t⟩, ⟨"by", .text⟩]⟩], []⟩

theorem zonedAlike_visits {t t' : FieldType} (ht : t ∈ FieldType.zoned) (ht' : t' ∈ FieldType.zoned) :
    (visits t).ZonedAlike (visits t') where
  fields name := by
    unfold Schema.declaredFields Schema.entity? visits
    dsimp only
    rw [List.find?_singleton, List.find?_singleton]
    dsimp only
    split
    · exact .cons ⟨rfl, .inr ⟨ht, ht'⟩⟩ (.cons ⟨rfl, .inl rfl⟩ .nil)
    · exact .nil
  parent name := by
    unfold Schema.parent? Schema.entity? visits
    dsimp only
    rw [List.find?_singleton, List.find?_singleton]
    dsimp only
    split <;> rfl
  variants _ := rfl

/-- A visit before a time is found among timestamps as among zoned date-times, and one in a leap second among
instants as among zoned date-times. -/
theorem zoned_types_agree_visits :
    let answer := fun t text record => answer? .builtIn "Visit" (.fresh (visits t)) text record
    let before := "at < '2019-07-01 12:00:00' && by = 'Ann'"
    let spring := Json.object [("at", .string "2019-03-30 12:00:00"), ("by", .string "Ann")]
    let leap := "at = '2019-01-01 12:00:60'"
    let newYear := Json.object [("at", .string "2019-01-01 12:00:60")]
    answer .zonedDateTime before spring = some true ∧ answer .timestamp before spring = some true ∧
      answer .zonedDateTime leap newYear = some true ∧ answer .instant leap newYear = some true := by
  intro answer before spring leap newYear
  have hparse : parse before = .ok (.join (.one (.predicate ⟨"at", .compare .less,
      [.string "2019-07-01 12:00:00"], ⟨1, 1⟩⟩)) .and
      (.predicate ⟨"by", .compare .equal, [.string "Ann"], ⟨1, 31⟩⟩)) := by decide +kernel
  have hparseLeap : parse leap = .ok (.one (.predicate ⟨"at", .compare .equal,
      [.string "2019-01-01 12:00:60"], ⟨1, 1⟩⟩)) := by decide +kernel
  have hbefore : ∀ g, parse before = .ok g → ∀ p ∈ g.predicates, ∀ o ∈ p.literals,
      hasLeapSecond o.text = false := by
    intro g hg
    cases hg.symm.trans hparse
    decide +kernel
  have hleap : ∀ g, parse leap = .ok g → ∀ p ∈ g.predicates, p.path = "at" := by
    intro g hg
    cases hg.symm.trans hparseLeap
    decide
  obtain ⟨-, hfilters⟩ := zoned_types_agree
  have hspring := hfilters (visits .zonedDateTime) (visits .timestamp)
    (zonedAlike_visits (by decide) (by decide)) "Visit" before
    (fun g hg p hp o ho hsecond => absurd hsecond (by rw [hbefore g hg p hp o ho]; decide))
    (.fresh _) (.fresh _) spring
  have hnewYear := hfilters (visits .zonedDateTime) (visits .instant)
    (zonedAlike_visits (by decide) (by decide)) "Visit" leap
    (fun g hg p hp _ _ _ => by rw [hleap g hg p hp]; decide) (.fresh _) (.fresh _) newYear
  have hfound : answer .zonedDateTime before spring = some true :=
    (answer?_eq_verdict? hparse _).trans (by decide +kernel)
  have hfoundLeap : answer .zonedDateTime leap newYear = some true :=
    (answer?_eq_verdict? hparseLeap _).trans (by decide +kernel)
  exact ⟨hfound, hspring.symm.trans hfound, hfoundLeap, hnewYear.symm.trans hfoundLeap⟩

/-- The zoned date-time of a leap second is that second, and the timestamp is the one after.  So a filter that a
zoned date-time in a leap second satisfies is not satisfied by the timestamp. -/
theorem timestamp_of_leap_second :
    let text := "2019-01-01 12:00:60"
    let answer := fun t =>
      answer? .builtIn "Visit" (.fresh (visits t)) "at = '2019-01-01 12:00:60'"
        (.object [("at", .string text)])
    (∃ v w, Registry.builtIn.convertTo (visits .zonedDateTime) .zonedDateTime "at" text = .ok v ∧
        Registry.builtIn.convertTo (visits .timestamp) .timestamp "at" text = .ok w ∧
        v.instant? = some ⟨1546336859, 1000000000⟩ ∧ w.instant? = some ⟨1546336860, 0⟩) ∧
      (visits .zonedDateTime).ZonedAlike (visits .timestamp) ∧
      answer .zonedDateTime = some true ∧ answer .timestamp = some false := by
  intro text answer
  have hzoned : Registry.builtIn.convertTo (visits .zonedDateTime) .zonedDateTime "at" text =
      .ok (.zoned ⟨⟨1546336859, 1000000000⟩, 7200⟩) := by
    subst text
    decide +kernel
  have htimestamp : Registry.builtIn.convertTo (visits .timestamp) .timestamp "at" text =
      .ok (.timestamp ⟨1546336860, 0⟩) := by
    subst text
    decide +kernel
  refine ⟨⟨_, _, hzoned, htimestamp, rfl, rfl⟩, zonedAlike_visits (by decide) (by decide), ?_, ?_⟩
  · subst answer text
    decide +kernel
  · subst answer text
    decide +kernel

end RecordFilter

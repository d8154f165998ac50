import RecordFilter.Proofs.FieldCache
import RecordFilter.Proofs.Hierarchy

/-!
# A cache that is asked again and again

A cache serves many schemas and is never emptied. `FieldCache.askAll` puts questions to it one after the
other, and `FieldCache.Knows` says what it remembers after some questions: the type of a field is
remembered just if a question was about the same type of the same schema, whatever field that question
was after, and then it is the declared type. One more question keeps this (`Knows.lookup`), whether it is
answered from what is remembered, learns a type anew or finds no field at all.

The identity of a schema is all that a cache sees of it, so the schemas that are asked about have to
declare the same where they have the same identity (`Consistent`). Then no answer differs from what the
schema declares, and no key is remembered but those of the types that have been asked about
(`answers_of_history`).
-/

namespace RecordFilter

/-- A question for the type of a field. -/
structure FieldQuestion where
  schema : Schema
  owner : String
  field : String

/-- Schemas with the same identity declare the same. -/
def Consistent (qs : List FieldQuestion) : Prop :=
  ∀ q ∈ qs, ∀ q' ∈ qs, q.schema.id = q'.schema.id → q.schema.Agree q'.schema

namespace FieldQuestion

/-- The answer of the schema itself. -/
def answer (q : FieldQuestion) : Option FieldType := q.schema.fieldType? q.owner q.field

/-- The key is one of the type that the question is about. -/
def Covers (q : FieldQuestion) (k : FieldKey) : Prop := q.schema.id = k.schema ∧ q.owner = k.owner

end FieldQuestion

namespace FieldCache

/-- The answers to several questions, and what is remembered then. -/
def askAll : FieldCache → List FieldQuestion → List (Option FieldType) × FieldCache
  | c, [] => ([], c)
  | c, q :: qs =>
    let (t, c) := c.lookup q.schema q.owner q.field
    let (ts, c) := c.askAll qs
    (t :: ts, c)

/-! ### Keys -/

/-- The fields whose types are remembered. -/
def keys (c : FieldCache) : List FieldKey := c.entries.map Prod.fst

theorem get?_eq_none_iff {c : FieldCache} {k : FieldKey} : c.get? k = none ↔ k ∉ c.keys := by
  unfold get? keys
  rw [List.lookup_eq_none_iff]
  constructor
  · intro h hk
    obtain ⟨e, he, rfl⟩ := List.mem_map.mp hk
    simpa using h e he
  · intro h e he
    have hne : k ≠ e.1 := fun heq => h (List.mem_map.mpr ⟨e, he, heq.symm⟩)
    simpa using hne

theorem mem_keys {c : FieldCache} {k : FieldKey} : k ∈ c.keys ↔ ∃ t, c.get? k = some t := by
  rw [← Option.ne_none_iff_exists', ne_eq, get?_eq_none_iff, not_not]

theorem nodup_keys_learn {c : FieldCache} (h : c.keys.Nodup) (k : FieldKey) (t : FieldType) :
    (c.learn k t).keys.Nodup := by
  cases hk : c.get? k with
  | some u => rwa [learn_of_some hk]
  | none =>
    rw [learn_of_none hk]
    exact List.nodup_cons.mpr ⟨get?_eq_none_iff.mp hk, h⟩

/-- **No key is remembered twice.** -/
theorem nodup_keys_lookup {c : FieldCache} (h : c.keys.Nodup) (s : Schema) (owner field : String) :
    (c.lookup s owner field).2.keys.Nodup := by
  have hall : ∀ (ds : List FieldDecl) (c : FieldCache), c.keys.Nodup →
      (ds.foldl (fun c d => c.learn ⟨s.id, owner, d.name⟩ d.type) c).keys.Nodup := by
    intro ds
    induction ds with
    | nil => exact fun _ hc => hc
    | cons d ds ih => exact fun c hc => ih _ (nodup_keys_learn hc _ _)
  unfold lookup
  dsimp only
  split
  · exact h
  · exact hall _ c h

/-! ### What is remembered -/

/-- **After these questions** the types of the fields are remembered that belong to a type that was asked
about. -/
def Knows (c : FieldCache) (asked : List FieldQuestion) : Prop :=
  ∀ k t, c.get? k = some t ↔
    ∃ q ∈ asked, q.Covers k ∧ q.schema.fieldType? k.owner k.field = some t

theorem knows_empty : empty.Knows [] := by
  intro k t
  constructor
  · intro h
    cases h
  · rintro ⟨q, hq, -⟩
    cases hq

/-- What is remembered agrees with every schema that may be asked about. -/
theorem Knows.coherent {c : FieldCache} {asked : List FieldQuestion} (h : c.Knows asked)
    {q : FieldQuestion} (hcons : ∀ q' ∈ asked, q'.schema.id = q.schema.id → q'.schema.Agree q.schema) :
    c.Coherent q.schema := by
  intro owner field t ht
  obtain ⟨q', hq', ⟨hid, -⟩, htype⟩ := (h _ _).mp ht
  have hagree := hcons q' hq' hid
  rwa [← hagree.fieldType? owner field]

/-- **One more question.** If the type is known already, then another question was about it and nothing
has changed; if not, all of its fields are learnt, and where some were known they stay. -/
theorem Knows.lookup {c : FieldCache} {asked : List FieldQuestion} (h : c.Knows asked)
    {q : FieldQuestion} (hcons : ∀ q' ∈ asked, q'.schema.id = q.schema.id → q'.schema.Agree q.schema) :
    (c.lookup q.schema q.owner q.field).2.Knows (asked ++ [q]) := by
  intro k t
  -- a question about the same type gives the same answer
  have hsame : ∀ q' ∈ asked, q'.Covers k → q.Covers k →
      q'.schema.fieldType? k.owner k.field = q.schema.fieldType? k.owner k.field := by
    intro q' hq' hk' hk
    exact (hcons q' hq' (hk'.1.trans hk.1.symm)).fieldType? _ _
  have hsplit : (∃ q' ∈ asked ++ [q], q'.Covers k ∧
      q'.schema.fieldType? k.owner k.field = some t) ↔
        c.get? k = some t ∨ (q.Covers k ∧ q.schema.fieldType? k.owner k.field = some t) := by
    rw [h k t]
    simp only [List.mem_append, List.mem_singleton, or_and_right, exists_or, exists_eq_left]
  rw [hsplit]
  unfold FieldCache.lookup
  dsimp only
  split
  · next u hu =>
    obtain ⟨q', hq', ⟨hid, howner⟩, -⟩ := (h _ _).mp hu
    constructor
    · exact Or.inl
    · rintro (hk | ⟨hk, htype⟩)
      · exact hk
      · have hk' : q'.Covers k := ⟨hid.trans hk.1, howner.trans hk.2⟩
        exact (h k t).mpr ⟨q', hq', hk', (hsame q' hq' hk' hk).trans htype⟩
  · rw [get?_learnAll, Option.or_eq_some_iff]
    have hcovers : (if k.schema = q.schema.id ∧ k.owner = q.owner
        then q.schema.fieldType? q.owner k.field else none) = some t ↔
          q.Covers k ∧ q.schema.fieldType? k.owner k.field = some t := by
      unfold FieldQuestion.Covers
      split_ifs with hk
      · simp [hk.1, hk.2]
      · simp only [false_iff, not_and]
        exact fun hk' => absurd ⟨hk'.1.symm, hk'.2.symm⟩ hk
    rw [hcovers]
    constructor
    · rintro (hk | ⟨-, hk⟩)
      · exact Or.inl hk
      · exact Or.inr hk
    · rintro (hk | ⟨hk, htype⟩)
      · exact Or.inl hk
      · cases hu : c.get? k with
        | none => exact Or.inr ⟨rfl, hk, htype⟩
        | some u =>
          obtain ⟨q', hq', hk', htype'⟩ := (h k u).mp hu
          rw [hsame q' hq' hk' hk, htype] at htype'
          exact Or.inl htype'.symm

/-! ### Histories -/

/-- **All questions of a history** are answered as the schemas declare. -/
theorem askAll_spec : ∀ (qs : List FieldQuestion) {c : FieldCache} {asked : List FieldQuestion},
    c.Knows asked → c.keys.Nodup → Consistent (asked ++ qs) →
      (c.askAll qs).1 = qs.map FieldQuestion.answer ∧ (c.askAll qs).2.Knows (asked ++ qs) ∧
        (c.askAll qs).2.keys.Nodup
  | [], c, asked, hc, hn, _ => by
    rw [List.append_nil]
    exact ⟨rfl, hc, hn⟩
  | q :: qs, c, asked, hc, hn, hcons => by
    have hq : q ∈ asked ++ q :: qs := by simp
    have hagree : ∀ q' ∈ asked, q'.schema.id = q.schema.id → q'.schema.Agree q.schema := fun q' hq' =>
      hcons q' (List.mem_append_left _ hq') q hq
    have hsplit : asked ++ q :: qs = asked ++ [q] ++ qs := by simp
    rw [hsplit] at hcons ⊢
    have hanswer := lookup_fst (hc.coherent hagree) q.owner q.field
    obtain ⟨hrest, hknows, hnodup⟩ :=
      askAll_spec qs (hc.lookup hagree) (nodup_keys_lookup hn q.schema q.owner q.field) hcons
    refine ⟨?_, hknows, hnodup⟩
    unfold askAll
    rw [List.map_cons, ← hrest]
    exact congrArg (· :: _) hanswer

end FieldCache

/-- **A cache cannot be told from the schemas.** Whatever questions have been put to a new cache, about
any schemas that declare the same where they have the same identity, every answer is what the schema
declares. Afterwards exactly the fields of the types that have been asked about are remembered,
inherited ones with them, each of them once. -/
theorem answers_of_history {qs : List FieldQuestion} (h : Consistent qs) :
    (FieldCache.empty.askAll qs).1 = qs.map FieldQuestion.answer ∧
      (FieldCache.empty.askAll qs).2.keys.Nodup ∧
      ∀ k, k ∈ (FieldCache.empty.askAll qs).2.keys ↔
        ∃ q ∈ qs, q.schema.id = k.schema ∧ q.owner = k.owner ∧
          ∃ t ∈ q.schema.hierarchy q.owner, ∃ d ∈ q.schema.declaredFields t, d.name = k.field := by
  obtain ⟨hanswers, hknows, hnodup⟩ :=
    FieldCache.askAll_spec qs FieldCache.knows_empty List.nodup_nil h
  refine ⟨hanswers, hnodup, fun k => ?_⟩
  rw [FieldCache.mem_keys]
  constructor
  · rintro ⟨t, ht⟩
    obtain ⟨q, hq, ⟨hid, howner⟩, htype⟩ := (hknows k t).mp ht
    rw [← howner] at htype
    exact ⟨q, hq, hid, howner, Schema.isSome_fieldType?.mp (by simp [htype])⟩
  · rintro ⟨q, hq, hid, howner, hdeclared⟩
    obtain ⟨t, ht⟩ := Option.isSome_iff_exists.mp (Schema.isSome_fieldType?.mpr hdeclared)
    rw [howner] at ht
    exact ⟨t, (hknows k t).mpr ⟨q, hq, ⟨hid, howner⟩, ht⟩⟩

/-- Two types that extend each other, a field declared twice in one of them and again in the other, a
question that misses, and another schema with a type of the same name. -/
theorem answers_of_history_cycle :
    let office : Schema := ⟨⟨1⟩, [⟨"Boss", some "Clerk", [⟨"code", .text⟩, ⟨"code", .bool⟩]⟩,
      ⟨"Clerk", some "Boss", [⟨"code", .integer .w32⟩, ⟨"desk", .uuid⟩]⟩], []⟩
    let shop : Schema := ⟨⟨2⟩, [⟨"Clerk", some "Person", [⟨"code", .decimal⟩]⟩], []⟩
    let qs : List FieldQuestion := [⟨office, "Boss", "desk"⟩, ⟨shop, "Clerk", "code"⟩,
      ⟨office, "Boss", "phone"⟩, ⟨office, "Boss", "code"⟩, ⟨office, "Clerk", "code"⟩]
    Consistent qs ∧
      (FieldCache.empty.askAll qs).1 =
        [some .uuid, some .decimal, none, some .text, some (.integer .w32)] ∧
      ⟨⟨1⟩, "Clerk", "desk"⟩ ∈ (FieldCache.empty.askAll qs).2.keys ∧
      ⟨⟨2⟩, "Clerk", "desk"⟩ ∉ (FieldCache.empty.askAll qs).2.keys := by
  intro office shop qs
  have hschemas : ∀ q ∈ qs, q.schema = office ∨ q.schema = shop := by simp [qs]
  have hids : office.id ≠ shop.id := by decide
  have hcons : Consistent qs := by
    intro q hq q' hq' hid
    rcases hschemas q hq with h | h <;> rcases hschemas q' hq' with h' | h' <;> rw [h, h'] at hid ⊢
    · exact Schema.Agree.refl office
    · exact absurd hid hids
    · exact absurd hid.symm hids
    · exact Schema.Agree.refl shop
  obtain ⟨hanswers, -, hkeys⟩ := answers_of_history hcons
  refine ⟨hcons, ?_, ?_, ?_⟩
  · rw [hanswers]
    decide
  · rw [hkeys]
    decide
  · rw [hkeys]
    decide

end RecordFilter

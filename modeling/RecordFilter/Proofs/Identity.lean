import Mathlib.Data.List.Induction
import Mathlib.Data.List.Nodup
import RecordFilter.Proofs.CacheHistory
import RecordFilter.Proofs.Running
import RecordFilter.Schema.Document
import RecordFilter.Schema.Making

/-!
# What an identity tells of a schema

A process makes schemas from nothing, reads them from documents, copies them and declares more on them
(`SchemaStep`). `SchemaHistory` follows such a process. It keeps every value of a schema that there has
ever been, since a cache may have been asked about each of them.

An identity belongs to what was made from nothing and to all that has come from it, by copies and later
declarations: two values have the same identity just if they have the same origin (`id_eq_iff_origin`).
So a cache does not mix schemas of different origins. But a copy on which more is declared keeps the
identity of the schema that it was copied from, and a cache that has been asked about the one answers for
the other (`id_of_copy`). Where nothing is declared later than a schema is made, the identity stands for
the schema.
-/

namespace RecordFilter

/-! ### Identities are kept -/

namespace Schema

theorem id_declare (s : Schema) (d : Declaration) : (s.declare d).id = s.id := by
  cases d <;> rfl

theorem id_declareAll (s : Schema) (ds : List Declaration) : (s.declareAll ds).id = s.id := by
  induction ds using List.reverseRecOn with
  | nil => rfl
  | append_singleton ds d ih => rw [declareAll_concat, id_declare, ih]

theorem id_foldl_withEntity (s : Schema) (es : List EntityType) :
    (es.foldl withEntity s).id = s.id := by
  induction es generalizing s with
  | nil => rfl
  | cons e es ih => exact ih (s.withEntity e)

theorem id_foldl_withEnum (s : Schema) (es : List (String × List String)) :
    (es.foldl (fun s e => s.withEnum e.1 e.2) s).id = s.id := by
  induction es generalizing s with
  | nil => rfl
  | cons e es ih => exact ih (s.withEnum e.1 e.2)

/-- A schema that is read has the identity that it was given. -/
theorem id_of_ofDocumentIn {id : SchemaId} {document : Json} {order : MapOrder} {s : Schema}
    (h : ofDocumentIn order id document = .ok s) : s.id = id := by
  obtain ⟨h, -⟩ := ofDocumentIn_eq_ok_iff.mp h
  unfold readDeclarations at h
  obtain ⟨entities, -, h⟩ := bind_eq_ok.mp h
  obtain ⟨types, -, h⟩ := bind_eq_ok.mp h
  obtain ⟨members, -, h⟩ := bind_eq_ok.mp h
  obtain ⟨enums, -, h⟩ := bind_eq_ok.mp h
  cases h
  rw [id_foldl_withEnum, id_foldl_withEntity]
  rfl

end Schema

/-- **No identity is given out twice** until the counter has gone through all of its numbers. -/
theorem issue_inj {m n : Nat} (hm : m < UInt64.size) (hn : n < UInt64.size)
    (h : SchemaId.issue m = SchemaId.issue n) : m = n := by
  have hnumbers : (m + 1) % UInt64.size = (n + 1) % UInt64.size := congrArg SchemaId.number h
  have hsize : UInt64.size = 18446744073709551616 := rfl
  rw [hsize] at hm hn hnumbers
  omega

/-! ### Histories -/

/-- What a process may do with schemas; the values that there are already have numbers. -/
inductive SchemaStep
  | new (ds : List Declaration)
  | read (document : Json) (order : MapOrder)
  | copy (i : Nat)
  | declare (i : Nat) (d : Declaration)

/-- How many identities have been given out, the schemas that were made with them, and all values of
schemas that there have ever been. -/
structure SchemaHistory where
  issued : Nat
  created : List Schema
  values : List Schema

namespace SchemaHistory

def start : SchemaHistory := ⟨0, [], []⟩

/-- An identity is given out, even if no schema comes of it. -/
def create (h : SchemaHistory) (made : Option Schema) : SchemaHistory :=
  ⟨h.issued + 1, h.created ++ made.toList, h.values ++ made.toList⟩

/-- A value that comes from another one. -/
def keep (h : SchemaHistory) (made : Option Schema) : SchemaHistory :=
  { h with values := h.values ++ made.toList }

def step (h : SchemaHistory) : SchemaStep → SchemaHistory
  | .new ds => h.create (some ((Schema.empty (.issue h.issued)).declareAll ds))
  | .read document order => h.create (Schema.ofDocumentIn order (.issue h.issued) document).toOption
  | .copy i => h.keep h.values[i]?
  | .declare i d => h.keep (h.values[i]?.map (·.declare d))

def run (steps : List SchemaStep) : SchemaHistory := steps.foldl step start

/-- Both values have come from the same schema, by copies and later declarations. -/
def SameOrigin (h : SchemaHistory) (a b : Schema) : Prop :=
  ∃ o ∈ h.created, ∃ da db, a = o.declareAll da ∧ b = o.declareAll db

/-! ### What every step keeps -/

/-- The schemas made have the identities given out, each a different one, and every value has come from
one of them. -/
structure Sound (h : SchemaHistory) : Prop where
  ids : (h.created.map Schema.id).Sublist ((List.range h.issued).map SchemaId.issue)
  origin : ∀ a ∈ h.values, ∃ o ∈ h.created, ∃ ds, a = o.declareAll ds

theorem sound_start : start.Sound where
  ids := List.Sublist.refl []
  origin := nofun

theorem Sound.create {h : SchemaHistory} (hs : h.Sound) {made : Option Schema}
    (hid : ∀ s ∈ made, s.id = .issue h.issued) : (h.create made).Sound where
  ids := by
    have hnew : (made.toList.map Schema.id).Sublist [SchemaId.issue h.issued] := by
      cases made with
      | none => exact List.nil_sublist _
      | some s =>
        have hs : s.id = .issue h.issued := hid s rfl
        rw [Option.toList_some, List.map_singleton, hs]
    show ((h.created ++ made.toList).map Schema.id).Sublist
      ((List.range (h.issued + 1)).map SchemaId.issue)
    rw [List.map_append, List.range_succ, List.map_append, List.map_singleton]
    exact hs.ids.append hnew
  origin := by
    intro a ha
    rcases List.mem_append.mp ha with ha | ha
    · obtain ⟨o, ho, ds, hds⟩ := hs.origin a ha
      exact ⟨o, List.mem_append_left _ ho, ds, hds⟩
    · exact ⟨a, List.mem_append_right _ ha, [], rfl⟩

theorem Sound.keep {h : SchemaHistory} (hs : h.Sound) {made : Option Schema}
    (hmade : ∀ a ∈ made, ∃ o ∈ h.created, ∃ ds, a = o.declareAll ds) : (h.keep made).Sound where
  ids := hs.ids
  origin := by
    intro a ha
    rcases List.mem_append.mp ha with ha | ha
    · exact hs.origin a ha
    · exact hmade a (Option.mem_toList.mp ha)

/-- **Every step** keeps it. -/
theorem Sound.step {h : SchemaHistory} (hs : h.Sound) (st : SchemaStep) : (h.step st).Sound := by
  cases st with
  | new ds =>
    refine hs.create fun s hmade => ?_
    cases hmade
    exact Schema.id_declareAll _ ds
  | read document order =>
    refine hs.create fun s hmade => ?_
    cases hread : Schema.ofDocumentIn order (.issue h.issued) document with
    | error fault =>
      rw [hread] at hmade
      cases hmade
    | ok s' =>
      rw [hread] at hmade
      cases hmade
      exact Schema.id_of_ofDocumentIn hread
  | copy i => exact hs.keep fun a ha => hs.origin a (List.mem_of_getElem? ha)
  | declare i d =>
    refine hs.keep fun a ha => ?_
    obtain ⟨a', ha', rfl⟩ := Option.map_eq_some_iff.mp ha
    obtain ⟨o, ho, ds, rfl⟩ := hs.origin a' (List.mem_of_getElem? ha')
    exact ⟨o, ho, ds ++ [d], (o.declareAll_concat ds d).symm⟩

/-- **Every history** keeps it. -/
theorem sound_run (steps : List SchemaStep) : (run steps).Sound := by
  induction steps using List.reverseRecOn with
  | nil => exact sound_start
  | append_singleton steps st ih =>
    unfold run at ih ⊢
    rw [List.foldl_concat]
    exact ih.step st

/-- An identity belongs to one of the schemas that were made. -/
theorem Sound.eq_of_id_eq {h : SchemaHistory} (hs : h.Sound) (hissued : h.issued ≤ UInt64.size)
    {o o' : Schema} (ho : o ∈ h.created) (ho' : o' ∈ h.created) (hid : o.id = o'.id) : o = o' := by
  have hrange : ((List.range h.issued).map SchemaId.issue).Nodup := by
    refine List.Nodup.map_on ?_ List.nodup_range
    intro m hm n hn
    rw [List.mem_range] at hm hn
    exact issue_inj (by omega) (by omega)
  have hnodup : (h.created.map Schema.id).Nodup := hrange.sublist hs.ids
  exact List.inj_on_of_nodup_map hnodup ho ho' hid

theorem subset_create {h : SchemaHistory} (hsub : h.values ⊆ h.created) (made : Option Schema) :
    (h.create made).values ⊆ (h.create made).created := by
  have hold : h.values ⊆ h.created ++ made.toList := List.subset_append_of_subset_left _ hsub
  have hnew : made.toList ⊆ h.created ++ made.toList := List.subset_append_right _ _
  exact List.append_subset.mpr ⟨hold, hnew⟩

/-- Where nothing is declared later, every value is one of the schemas that were made. -/
theorem values_subset_created {steps : List SchemaStep} (h : ∀ i d, SchemaStep.declare i d ∉ steps) :
    (run steps).values ⊆ (run steps).created := by
  induction steps using List.reverseRecOn with
  | nil => exact List.Subset.refl []
  | append_singleton steps st ih =>
    have hrest := ih fun i d hmem => h i d (List.mem_append_left _ hmem)
    unfold run at hrest ⊢
    rw [List.foldl_concat]
    generalize steps.foldl SchemaHistory.step start = history at hrest
    cases st with
    | new ds => exact subset_create hrest _
    | read document order => exact subset_create hrest _
    | copy i =>
      refine List.append_subset.mpr ⟨hrest, fun a ha => ?_⟩
      exact hrest (List.mem_of_getElem? (Option.mem_toList.mp ha))
    | declare i d => exact absurd (by simp) (h i d)

end SchemaHistory

open SchemaHistory

/-- **What an identity tells.** Among all values of schemas in a history that has not given out all of its
identities, two have the same identity just if they have the same origin. So a cache that is asked about
any of them answers as the schemas declare, if those of the same origin that it is asked about agree;
and if nothing is declared later than a schema is made, then the identity stands for the schema, and the
answers are right whatever is asked. -/
theorem id_eq_iff_origin {steps : List SchemaStep} (hissued : (run steps).issued ≤ UInt64.size) :
    (∀ a ∈ (run steps).values, ∀ b ∈ (run steps).values,
      (a.id = b.id ↔ (run steps).SameOrigin a b)) ∧
    (∀ qs : List FieldQuestion, (∀ q ∈ qs, q.schema ∈ (run steps).values) →
      (∀ q ∈ qs, ∀ q' ∈ qs, (run steps).SameOrigin q.schema q'.schema → q.schema.Agree q'.schema) →
        (FieldCache.empty.askAll qs).1 = qs.map FieldQuestion.answer) ∧
    ((∀ i d, SchemaStep.declare i d ∉ steps) →
      (∀ a ∈ (run steps).values, ∀ b ∈ (run steps).values, a.id = b.id → a = b) ∧
      ∀ qs : List FieldQuestion, (∀ q ∈ qs, q.schema ∈ (run steps).values) →
        (FieldCache.empty.askAll qs).1 = qs.map FieldQuestion.answer) := by
  have hsound := sound_run steps
  have horigin : ∀ a ∈ (run steps).values, ∀ b ∈ (run steps).values,
      (a.id = b.id ↔ (run steps).SameOrigin a b) := by
    intro a ha b hb
    constructor
    · intro hid
      obtain ⟨o, ho, da, rfl⟩ := hsound.origin a ha
      obtain ⟨o', ho', db, rfl⟩ := hsound.origin b hb
      -- declarations keep the identity, so it is that of both origins
      rw [Schema.id_declareAll, Schema.id_declareAll] at hid
      have hsame := hsound.eq_of_id_eq hissued ho ho' hid
      exact ⟨o, ho, da, db, rfl, by rw [hsame]⟩
    · rintro ⟨o, -, da, db, rfl, rfl⟩
      rw [Schema.id_declareAll, Schema.id_declareAll]
  have hanswers : ∀ qs : List FieldQuestion, Consistent qs →
      (FieldCache.empty.askAll qs).1 = qs.map FieldQuestion.answer := by
    intro qs hcons
    exact (FieldCache.askAll_spec qs FieldCache.knows_empty List.nodup_nil hcons).1
  refine ⟨horigin, fun qs hqs hagree => hanswers qs ?_, fun hlater => ?_⟩
  · intro q hq q' hq' hid
    exact hagree q hq q' hq' ((horigin _ (hqs q hq) _ (hqs q' hq')).mp hid)
  · have hcreated := values_subset_created hlater
    have heq : ∀ a ∈ (run steps).values, ∀ b ∈ (run steps).values, a.id = b.id → a = b :=
      fun a ha b hb => hsound.eq_of_id_eq hissued (hcreated ha) (hcreated hb)
    refine ⟨heq, fun qs hqs => hanswers qs fun q hq q' hq' hid => ?_⟩
    rw [heq _ (hqs q hq) _ (hqs q' hq') hid]
    exact Schema.Agree.refl _

/-- Two schemas made from nothing and a copy of the first one, asked about through one cache. -/
theorem id_eq_iff_origin_two :
    let age (t : FieldType) : Declaration := .entity ⟨"Person", none, [⟨"age", t⟩]⟩
    let first : Schema := ⟨⟨1⟩, [⟨"Person", none, [⟨"age", .integer .w32⟩]⟩], []⟩
    let second : Schema := ⟨⟨2⟩, [⟨"Person", none, [⟨"age", .text⟩]⟩], []⟩
    let steps := [SchemaStep.new [age (.integer .w32)], .new [age .text], .copy 0]
    (run steps).issued ≤ UInt64.size ∧ (run steps).values = [first, second, first] ∧
      ¬ (run steps).SameOrigin first second ∧
      (FieldCache.empty.askAll [⟨first, "Person", "age"⟩, ⟨second, "Person", "age"⟩,
        ⟨first, "Person", "age"⟩]).1 = [some (.integer .w32), some .text, some (.integer .w32)] := by
  intro age first second steps
  have hissued : (run steps).issued ≤ UInt64.size := by decide
  have hvalues : (run steps).values = [first, second, first] := by decide
  obtain ⟨horigin, -, hlater⟩ := id_eq_iff_origin hissued
  have hfirst : first ∈ (run steps).values := by simp [hvalues]
  have hsecond : second ∈ (run steps).values := by simp [hvalues]
  have hids : first.id ≠ second.id := by decide
  refine ⟨hissued, hvalues, fun hsame => hids ((horigin _ hfirst _ hsecond).mpr hsame), ?_⟩
  obtain ⟨-, hanswers⟩ := hlater (by simp [steps])
  rw [hanswers _ (by simp [hvalues])]
  decide

/-- **A copy keeps its identity when more is declared on it**, and a cache that has been asked about the
schema gives the same answer for the copy. -/
theorem id_of_copy :
    let age (t : FieldType) : Declaration := .entity ⟨"Person", none, [⟨"age", t⟩]⟩
    let steps := [SchemaStep.new [age (.integer .w32)], .copy 0, .declare 1 (age .text)]
    ∃ a ∈ (run steps).values, ∃ b ∈ (run steps).values, a.id = b.id ∧
      a.fieldType? "Person" "age" = some (.integer .w32) ∧ b.fieldType? "Person" "age" = some .text ∧
      (FieldCache.empty.askAll [⟨a, "Person", "age"⟩, ⟨b, "Person", "age"⟩]).1 =
        [some (.integer .w32), some (.integer .w32)] := by
  intro age steps
  refine ⟨⟨⟨1⟩, [⟨"Person", none, [⟨"age", .integer .w32⟩]⟩], []⟩, by decide,
    ⟨⟨1⟩, [⟨"Person", none, [⟨"age", .text⟩]⟩], []⟩, by decide, rfl, ?_, ?_, ?_⟩
  · decide
  · decide
  · decide

end RecordFilter

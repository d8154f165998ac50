import RecordFilter.Proofs.Hierarchy
import RecordFilter.Proofs.Running
import RecordFilter.Schema.Document

/-!
# Descriptions of schemas

A `Description` says what a schema document is to say: entity types with their supertypes and fields, and
enumerations with their variants, every name once.  `Description.document` writes it down, each type of a
field in its canonical form.

A document that describes a schema is read to this schema (`ofDocument_document`), unless a supertype is not
declared.  All that can be refused is a supertype, because the document has the right form throughout
(`Description.readDeclarations_document`); what has been read is then told name by name from what was described, since no
name is declared twice (`Schema.entity?_foldl_withEntity`, `Schema.variants?_foldl_withEnum`).
-/

namespace RecordFilter

/-! ### Descriptions -/

/-- A finite map from names, as its entries in the order of their names. -/
structure Entries (α : Type) where
  list : List (String × α)
  sorted : list.Pairwise fun a b => a.1 < b.1

namespace Entries

variable {α : Type}

def get? (m : Entries α) (name : String) : Option α := m.list.lookup name

/-- The object with the entries as its members. -/
def toJson (m : Entries α) (write : α → Json) : Json :=
  .object (m.list.map fun e => (e.1, write e.2))

theorem nodup (m : Entries α) : (m.list.map Prod.fst).Nodup :=
  List.pairwise_map.mpr (m.sorted.imp fun h => String.ne_of_lt h)

/-- Every name has one entry at most, so what is looked up is the entry. -/
theorem get?_eq_some_iff {m : Entries α} {name : String} {a : α} :
    m.get? name = some a ↔ (name, a) ∈ m.list := by
  constructor
  · intro h
    obtain ⟨before, after, hlist, -⟩ := List.lookup_eq_some_iff.mp h
    rw [hlist]
    exact List.mem_append_right _ List.mem_cons_self
  · intro h
    obtain ⟨before, after, hlist⟩ := List.append_of_mem h
    have hnodup := m.nodup
    rw [hlist, List.map_append, List.map_cons, List.nodup_append] at hnodup
    refine List.lookup_eq_some_iff.mpr ⟨before, after, hlist, fun e he => ?_⟩
    rw [bne_iff_ne]
    exact (hnodup.2.2 _ (List.mem_map_of_mem he) _ List.mem_cons_self).symm

end Entries

/-- What is said of an entity type. -/
structure EntityDescription where
  parent : Option String
  fields : Entries FieldType

/-- What is said of a schema. -/
structure Description where
  entities : Entries EntityDescription
  enums : Entries (List String)

namespace EntityDescription

/-- The supertype, if there is one, and the fields with their types. -/
def toJson (e : EntityDescription) : Json :=
  .object ((e.parent.map fun p => ("extends", .string p)).toList ++
    [("fields", e.fields.toJson fun t => .string t.render)])

/-- The entity type with this name. -/
def entityType (name : String) (e : EntityDescription) : EntityType :=
  ⟨name, e.parent, e.fields.list.map fun f => ⟨f.1, f.2⟩⟩

end EntityDescription

namespace Description

/-- The schema document. -/
def document (d : Description) : Json :=
  .object [("entities", d.entities.toJson EntityDescription.toJson),
    ("enums", d.enums.toJson fun variants => .array (variants.map .string))]

/-- Every supertype is one of the entity types. -/
def ParentsDeclared (d : Description) : Prop :=
  ∀ name e p, d.entities.get? name = some e → e.parent = some p → (d.entities.get? p).isSome

/-- The entity types, in the order of their names. -/
def entityTypes (d : Description) : List EntityType :=
  d.entities.list.map fun e => e.2.entityType e.1

/-- The schema that is described, whether its supertypes are declared or not. -/
def schema (d : Description) (id : SchemaId) : Schema :=
  d.enums.list.foldl (fun s e => s.withEnum e.1 e.2) (d.entityTypes.foldl Schema.withEntity (.empty id))

end Description

/-- The schema declares what is described, and nothing else; the fields in the order of their names. -/
structure Schema.Follows (s : Schema) (d : Description) : Prop where
  hasEntity : ∀ name, s.hasEntity name = (d.entities.get? name).isSome
  parent : ∀ name, s.parent? name = (d.entities.get? name).bind EntityDescription.parent
  fields : ∀ name, (s.declaredFields name).map (fun f => (f.name, f.type)) =
    ((d.entities.get? name).map fun e => e.fields.list).getD []
  variants : ∀ name, s.variants? name = d.enums.get? name

/-! ### Reading what was written -/

/-- What is read from each item of a list. -/
theorem mapM_map_eq_ok {ε α β γ : Type} {f : β → Except ε γ} {g : α → β} {h : α → γ} {as : List α}
    (hf : ∀ a ∈ as, f (g a) = .ok (h a)) : (as.map g).mapM f = .ok (as.map h) := by
  rw [mapM_eq_ok_iff, List.forall₂_map_left_iff, List.forall₂_map_right_iff, List.forall₂_same]
  exact hf

theorem mapM_asString? (texts : List String) :
    (texts.map Json.string).mapM Json.asString? = some texts := by
  induction texts with
  | nil => rfl
  | cons text texts ih =>
    rw [List.map_cons, List.mapM_cons, ih]
    rfl

namespace Schema

theorem readField_render (entity field : String) (t : FieldType) :
    readField entity field (.string t.render) = .ok ⟨field, t⟩ := by
  rw [readField, FieldType.read, FieldType.read?_render]
  rfl

theorem readEntity_toJson (name : String) (e : EntityDescription) :
    readEntity name e.toJson = .ok (e.entityType name) := by
  have hparent : readParent name (e.toJson.get? "extends") = .ok e.parent := by
    unfold EntityDescription.toJson
    cases e.parent <;> rfl
  have hfields : e.toJson.get? "fields" = some (e.fields.toJson fun t => .string t.render) := by
    unfold EntityDescription.toJson
    cases e.parent <;> rfl
  unfold readEntity
  rw [hparent, hfields]
  refine bind_eq_ok.mpr ⟨_, rfl, bind_eq_ok.mpr ⟨_, rfl, bind_eq_ok.mpr ⟨_, ?_, rfl⟩⟩⟩
  exact mapM_map_eq_ok fun f _ => readField_render name f.1 f.2

theorem readEnum_array (name : String) (variants : List String) :
    readEnum name (.array (variants.map .string)) = .ok (name, variants) := by
  unfold readEnum
  rw [Json.asArray?, Option.bind_some, mapM_asString?]

end Schema

/-- **All that was written is declared.** -/
theorem Description.readDeclarations_document (d : Description) (id : SchemaId) :
    Schema.readDeclarations id d.document = .ok (d.schema id) := by
  have hentities : (d.entities.list.map fun e => (e.1, e.2.toJson)).mapM
      (fun m => Schema.readEntity m.1 m.2) = .ok d.entityTypes :=
    mapM_map_eq_ok fun e _ => Schema.readEntity_toJson e.1 e.2
  have henums : (d.enums.list.map fun e => (e.1, Json.array (e.2.map .string))).mapM
      (fun m => Schema.readEnum m.1 m.2) = .ok (d.enums.list.map fun e => e) :=
    mapM_map_eq_ok fun e _ => Schema.readEnum_array e.1 e.2
  have hdocument : Schema.readDeclarations id d.document =
      ((d.entities.list.map fun e => (e.1, e.2.toJson)).mapM
          fun m => Schema.readEntity m.1 m.2).bind fun es =>
        ((d.enums.list.map fun e => (e.1, Json.array (e.2.map .string))).mapM
            fun m => Schema.readEnum m.1 m.2).bind fun vs =>
          .ok (vs.foldl (fun s e => s.withEnum e.1 e.2) (es.foldl Schema.withEntity (.empty id))) := rfl
  rw [hdocument, hentities, henums, List.map_id']
  rfl

/-! ### What has been declared -/

namespace Schema

theorem entity?_foldl_withEntity {es : List EntityType} (h : (es.map EntityType.name).Nodup)
    (s : Schema) (name : String) :
    (es.foldl withEntity s).entity? name = (es.find? (·.name == name)).or (s.entity? name) := by
  induction es generalizing s with
  | nil => rfl
  | cons e es ih =>
    obtain ⟨hnew, hrest⟩ := List.nodup_cons.mp h
    rw [List.foldl_cons, ih hrest, entity?_withEntity, List.find?_cons]
    by_cases hname : e.name = name
    · -- the others have other names
      have hnone : es.find? (·.name == name) = none := by
        rw [List.find?_eq_none]
        intro e' he' hname'
        refine hnew (List.mem_map.mpr ⟨e', he', ?_⟩)
        rw [hname]
        simpa using hname'
      simp [hname, hnone]
    · simp [hname, beq_false_of_ne hname]

/-- What is looked up is not what has been left out. -/
theorem lookup_filter_ne {α : Type} {left name : String} (h : left ≠ name) (es : List (String × α)) :
    (es.filter (·.1 != left)).lookup name = es.lookup name := by
  induction es with
  | nil => rfl
  | cons e es ih =>
    by_cases hleft : e.1 = left
    · have hb : (name == e.1) = false := beq_false_of_ne fun h' => h (hleft.symm.trans h'.symm)
      rw [List.filter_cons_of_neg (by simpa using hleft), ih, List.lookup_cons, hb]
    · rw [List.filter_cons_of_pos (by simpa using hleft), List.lookup_cons, List.lookup_cons, ih]

theorem variants?_withEnum (s : Schema) (enum name : String) (variants : List String) :
    (s.withEnum enum variants).variants? name =
      if enum = name then some variants else s.variants? name := by
  unfold variants? withEnum
  by_cases h : enum = name
  · simp [h]
  · have hb : (name == enum) = false := beq_false_of_ne (Ne.symm h)
    rw [List.lookup_cons, hb, if_neg h]
    exact lookup_filter_ne h s.enums

theorem variants?_foldl_withEnum {es : List (String × List String)} (h : (es.map Prod.fst).Nodup)
    (s : Schema) (name : String) :
    (es.foldl (fun s e => s.withEnum e.1 e.2) s).variants? name =
      (es.lookup name).or (s.variants? name) := by
  induction es generalizing s with
  | nil => rfl
  | cons e es ih =>
    obtain ⟨hnew, hrest⟩ := List.nodup_cons.mp h
    rw [List.foldl_cons, ih hrest, variants?_withEnum, List.lookup_cons]
    by_cases hname : e.1 = name
    · have hnone : es.lookup name = none := by
        rw [List.lookup_eq_none_iff]
        intro e' he'
        rw [bne_iff_ne]
        exact fun hname' => hnew (List.mem_map.mpr ⟨e', he', hname'.symm.trans hname.symm⟩)
      simp [hname, hnone]
    · have hb : (name == e.1) = false := beq_false_of_ne (Ne.symm hname)
      simp [hname, hb]

theorem entities_foldl_withEnum (es : List (String × List String)) (s : Schema) :
    (es.foldl (fun s e => s.withEnum e.1 e.2) s).entities = s.entities := by
  induction es generalizing s with
  | nil => rfl
  | cons e es ih => exact ih (s.withEnum e.1 e.2)

theorem enums_foldl_withEntity (es : List EntityType) (s : Schema) :
    (es.foldl withEntity s).enums = s.enums := by
  induction es generalizing s with
  | nil => rfl
  | cons e es ih => exact ih (s.withEntity e)

theorem mem_entities_foldl_withEntity {es : List EntityType} {s : Schema} {e : EntityType}
    (h : e ∈ (es.foldl withEntity s).entities) : e ∈ es ∨ e ∈ s.entities := by
  induction es generalizing s with
  | nil => exact .inr h
  | cons e' es ih =>
    rcases ih h with h | h
    · exact .inl (List.mem_cons_of_mem e' h)
    · rcases List.mem_cons.mp h with rfl | h
      · exact .inl List.mem_cons_self
      · exact .inr (List.mem_of_mem_filter h)

end Schema

/-- What holds of all supertypes holds of all types above. -/
theorem Climb.forall_mem {parent? : String → Option String} {P : String → Prop}
    (hP : ∀ name p, parent? name = some p → P p) {passed above : List String} {name : String}
    (h : Climb parent? passed name above) : ∀ t ∈ above, P t := by
  induction h with
  | top => exact List.forall_mem_nil _
  | up parent _ _ ih => exact List.forall_mem_cons.mpr ⟨hP _ _ parent, ih⟩

namespace Schema

/-- **Where all supertypes are declared, a walk up from a declared type stays among declared types.** -/
theorem hasEntity_of_mem_hierarchy {s : Schema}
    (hparents : ∀ name p, s.parent? name = some p → s.hasEntity p = true) {name : String}
    (hname : s.hasEntity name = true) : ∀ t ∈ s.hierarchy name, s.hasEntity t = true := by
  obtain ⟨above, heq, hclimb⟩ := s.climb_hierarchy name
  rw [heq]
  exact List.forall_mem_cons.mpr ⟨hname, hclimb.forall_mem hparents⟩

end Schema

namespace Description

variable (d : Description) (id : SchemaId)

theorem nodup_entityTypes : (d.entityTypes.map EntityType.name).Nodup := by
  rw [entityTypes, List.map_map]
  exact d.entities.nodup

theorem find?_entityTypes (name : String) :
    d.entityTypes.find? (·.name == name) =
      (d.entities.get? name).map (EntityDescription.entityType name) := by
  unfold entityTypes Entries.get?
  induction d.entities.list with
  | nil => rfl
  | cons e es ih =>
    rw [List.map_cons, List.find?_cons, List.lookup_cons, ih]
    by_cases hname : e.1 = name
    · simp [hname, EntityDescription.entityType]
    · have hb : (name == e.1) = false := beq_false_of_ne (Ne.symm hname)
      simp [beq_false_of_ne hname, hb, EntityDescription.entityType]

/-- **An entity type of the schema is the one that is described.** -/
theorem entity?_schema (name : String) :
    (d.schema id).entity? name = (d.entities.get? name).map (EntityDescription.entityType name) := by
  have hentities : (d.schema id).entity? name =
      (d.entityTypes.foldl Schema.withEntity (.empty id)).entity? name := by
    unfold Schema.entity? schema
    rw [Schema.entities_foldl_withEnum]
  rw [hentities, Schema.entity?_foldl_withEntity d.nodup_entityTypes, find?_entityTypes]
  exact Option.or_none

theorem follows_schema : (d.schema id).Follows d where
  hasEntity name := by
    rw [Schema.hasEntity, entity?_schema, Option.isSome_map]
  parent name := by
    rw [Schema.parent?, entity?_schema, Option.bind_map]
    rfl
  fields name := by
    rw [Schema.declaredFields, entity?_schema]
    cases d.entities.get? name with
    | none => rfl
    | some e => simp [EntityDescription.entityType, Function.comp_def]
  variants name := by
    rw [schema, Schema.variants?_foldl_withEnum d.enums.nodup, Schema.variants?,
      Schema.enums_foldl_withEntity]
    exact Option.or_none

/-- A supertype that is not declared is not described, and the other way round. -/
theorem undeclared_schema_iff {fault : SchemaFault} :
    (d.schema id).Undeclared fault ↔
      ∃ child parent e, fault = .unknownParent child parent ∧ d.entities.get? child = some e ∧
        e.parent = some parent ∧ d.entities.get? parent = none := by
  have hdescribed : ∀ name, (d.schema id).hasEntity name = false ↔ d.entities.get? name = none := by
    intro name
    rw [(d.follows_schema id).hasEntity, Option.isSome_eq_false_iff, Option.isNone_iff_eq_none]
  constructor
  · rintro ⟨t, ht, parent, hparent, hundeclared, rfl⟩
    rw [schema, Schema.entities_foldl_withEnum] at ht
    have ht : t ∈ d.entityTypes := by simpa [Schema.empty] using Schema.mem_entities_foldl_withEntity ht
    obtain ⟨⟨child, e⟩, he, rfl⟩ := List.mem_map.mp ht
    exact ⟨child, parent, e, rfl, Entries.get?_eq_some_iff.mpr he, hparent, (hdescribed parent).mp hundeclared⟩
  · rintro ⟨child, parent, e, rfl, he, hparent, hundeclared⟩
    have hentity : (d.schema id).entity? child = some (e.entityType child) := by
      rw [entity?_schema, he]
      rfl
    exact ⟨e.entityType child, List.mem_of_find?_eq_some hentity, parent, hparent,
      (hdescribed parent).mpr hundeclared, rfl⟩

theorem parentsDeclared_iff : d.ParentsDeclared ↔ ∀ fault, ¬ (d.schema id).Undeclared fault := by
  constructor
  · rintro h fault hundeclared
    obtain ⟨child, parent, e, -, he, hparent, hnone⟩ := (d.undeclared_schema_iff id).mp hundeclared
    have hsome := h child e parent he hparent
    rw [hnone] at hsome
    cases hsome
  · intro h name e p he hp
    by_contra hnone
    rw [Option.not_isSome_iff_eq_none] at hnone
    exact h _ ((d.undeclared_schema_iff id).mpr ⟨name, p, e, rfl, he, hp, hnone⟩)

end Description

/-- **A schema document says what it describes**, in whatever order its types are gone through.  For every
description, the document is accepted if and only if every supertype is described as well.  If it is
accepted, then the schema declares what is described, name by name, and the hierarchy of a declared type has
declared types only; if it is refused, then for an entity type that is described with a supertype that is
not. -/
theorem ofDocument_document (d : Description) (id : SchemaId) (order : MapOrder) :
    ((∃ s, Schema.ofDocumentIn order id d.document = .ok s) ↔ d.ParentsDeclared) ∧
      (∀ s, Schema.ofDocumentIn order id d.document = .ok s → s.Follows d ∧
        ∀ name, s.hasEntity name = true → ∀ t ∈ s.hierarchy name, s.hasEntity t = true) ∧
      ∀ fault, Schema.ofDocumentIn order id d.document = .error fault →
        ∃ child parent e, fault = .unknownParent child parent ∧ d.entities.get? child = some e ∧
          e.parent = some parent ∧ d.entities.get? parent = none := by
  have hread := d.readDeclarations_document id
  have hfollows := d.follows_schema id
  refine ⟨⟨?_, fun hdeclared => ?_⟩, fun s hs => ?_, fun fault hfault => ?_⟩
  · rintro ⟨s, hs⟩
    obtain ⟨hs, hall⟩ := Schema.ofDocumentIn_eq_ok_iff.mp hs
    cases hread.symm.trans hs
    exact (d.parentsDeclared_iff id).mpr hall
  · exact ⟨_, Schema.ofDocumentIn_eq_ok_iff.mpr ⟨hread, (d.parentsDeclared_iff id).mp hdeclared⟩⟩
  · obtain ⟨hs, hall⟩ := Schema.ofDocumentIn_eq_ok_iff.mp hs
    cases hread.symm.trans hs
    refine ⟨hfollows, fun name => Schema.hasEntity_of_mem_hierarchy fun child p hp => ?_⟩
    rw [hfollows.parent] at hp
    obtain ⟨e, he, hp⟩ := Option.bind_eq_some_iff.mp hp
    rw [hfollows.hasEntity]
    exact (d.parentsDeclared_iff id).mpr hall child e p he hp
  · rw [Schema.ofDocumentIn_eq order hread] at hfault
    split at hfault
    · rename_i hreport
      cases hfault
      exact (d.undeclared_schema_iff id).mp (Schema.undeclared_of_undeclaredParent? hreport)
    · cases hfault

/-- Names may be anything, also with colons in them or empty, and a type may extend itself. -/
theorem ofDocument_document_names :
    let fields : Entries FieldType :=
      ⟨[("", .enum ""), ("a", .custom "b:c"), ("b", .collection ":")], by decide⟩
    let d : Description :=
      ⟨⟨[("", ⟨some "", fields⟩), (":", ⟨some "", ⟨[], .nil⟩⟩)], by decide⟩, ⟨[("", ["x", ""])], by decide⟩⟩
    let s : Schema := d.schema ⟨0⟩
    Schema.ofDocument ⟨0⟩ d.document = .ok s ∧ s.Follows d ∧
      ∀ name, s.hasEntity name = true → ∀ t ∈ s.hierarchy name, s.hasEntity t = true := by
  intro fields d s
  have hread : Schema.ofDocument ⟨0⟩ d.document = .ok s := by decide +kernel
  exact ⟨hread, (ofDocument_document d ⟨0⟩ .declared).2.1 s hread⟩

/-- A supertype that is not described is named with its child. -/
example : Schema.ofDocument ⟨0⟩ (Description.document
    ⟨⟨[("Author", ⟨some "Person", ⟨[], .nil⟩⟩)], by decide⟩, ⟨[], .nil⟩⟩) =
      .error (.unknownParent "Author" "Person") := by
  decide +kernel

end RecordFilter

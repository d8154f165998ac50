import Mathlib.Data.Finset.Card
import Mathlib.Data.List.Chain
import RecordFilter.Proofs.Hierarchy

/-!
# The lineage of a type

The supertypes of a type are found one after the other: the supertype of the last type is put behind it,
until there is none or one that is in the chain already (`Schema.GoesUp`).  Whoever declares the types may
have drawn circles or left types undeclared; the walk ends all the same.

What it ends with can be told without it.  `Schema.Lineage` says of a chain that it goes from type to
supertype, that it has no type twice and that it cannot be gone on with.  A type has just one lineage, its
hierarchy, and the steps from the type lead to the beginnings of this chain and to nothing else
(`hierarchy_walk`).  A chain that does not repeat itself leaves a declared type with every step, so it has at
most one type more than are declared (`Lineage.length_le`): the last one need not be declared.
-/

namespace RecordFilter

/-! ### Chains of related items -/

/-- All items of a chain but the last are related to another one. -/
theorem exists_of_mem_dropLast {α : Type} {R : α → α → Prop} {l : List α} (h : l.IsChain R) :
    ∀ a ∈ l.dropLast, ∃ b, R a b := by
  induction h with
  | nil => exact nofun
  | singleton a => exact nofun
  | @cons_cons a b l hab _ ih =>
    intro c hc
    rw [List.dropLast_cons_cons, List.mem_cons] at hc
    rcases hc with rfl | hc
    · exact ⟨b, hab⟩
    · exact ih c hc

namespace Schema

/-- The names of the declared types. -/
def declaredNames (s : Schema) : Finset String := (s.entities.map EntityType.name).toFinset

/-- The chain goes from the type to its supertypes, has no type twice, and cannot be gone on with. -/
structure Lineage (s : Schema) (name : String) (chain : List String) : Prop where
  first : chain.head? = some name
  climbs : chain.IsChain fun t p => s.parent? t = some p
  distinct : chain.Nodup
  ends : ∀ t ∈ chain.getLast?, ∀ p, s.parent? t = some p → p ∈ chain

/-- One step up: the supertype of the last type, which is not in the chain, is put behind it. -/
def GoesUp (s : Schema) (chain longer : List String) : Prop :=
  ∃ t p, t ∈ chain.getLast? ∧ s.parent? t = some p ∧ p ∉ chain ∧ longer = chain ++ [p]

/-- The first of these fields with the name. -/
def FirstField (field : String) (ds : List FieldDecl) (d : FieldDecl) : Prop :=
  ∃ before after, ds = before ++ d :: after ∧ (∀ e ∈ before, e.name ≠ field) ∧ d.name = field

/-- The first field with the name in the nearest type of the chain that declares one. -/
def NearestField (s : Schema) (field : String) (chain : List String) (d : FieldDecl) : Prop :=
  ∃ nearer t further, chain = nearer ++ t :: further ∧
    (∀ u ∈ nearer, ∀ e ∈ s.declaredFields u, e.name ≠ field) ∧
    FirstField field (s.declaredFields t) d

end Schema

/-! ### What a walk finds -/

section climb

variable {parent? : String → Option String} {passed above : List String} {name : String}

theorem Climb.isChain (h : Climb parent? passed name above) :
    (name :: above).IsChain fun t p => parent? t = some p := by
  induction h with
  | top => exact .singleton _
  | up parent _ _ ih => exact .cons_cons parent ih

/-- No type is found that has been passed, nor one twice. -/
theorem Climb.distinct (h : Climb parent? passed name above) :
    above.Nodup ∧ ∀ t ∈ above, t ∉ passed := by
  induction h with
  | top => exact ⟨List.nodup_nil, nofun⟩
  | @up passed above name p _ new _ ih =>
    obtain ⟨hnodup, hnew⟩ := ih
    have hp : p ∉ above := fun hp => hnew p hp List.mem_cons_self
    refine ⟨hnodup.cons hp, List.forall_mem_cons.mpr ⟨new, fun t ht hpassed => ?_⟩⟩
    exact hnew t ht (List.mem_cons_of_mem p hpassed)

/-- Above the last type there is none, or one that has been passed or found. -/
theorem Climb.ends (h : Climb parent? passed name above) :
    ∀ t ∈ (name :: above).getLast?, ∀ p, parent? t = some p → p ∈ passed ∨ p ∈ above := by
  induction h with
  | top stop =>
    rintro t ⟨⟩ p hp
    exact Or.inl (stop p hp)
  | @up passed above name p _ _ _ ih =>
    intro t ht q hq
    rw [List.getLast?_cons_cons] at ht
    rcases ih t ht q hq with hpassed | habove
    · rcases List.mem_cons.mp hpassed with rfl | hpassed
      · exact Or.inr List.mem_cons_self
      · exact Or.inl hpassed
    · exact Or.inr (List.mem_cons_of_mem p habove)

end climb

namespace Schema

variable {s : Schema} {name : String} {chain : List String}

theorem lineage_hierarchy (s : Schema) (name : String) : s.Lineage name (s.hierarchy name) := by
  obtain ⟨above, heq, hclimb⟩ := s.climb_hierarchy name
  obtain ⟨hnodup, hnew⟩ := hclimb.distinct
  rw [heq]
  refine ⟨rfl, hclimb.isChain, hnodup.cons fun h => hnew name h List.mem_cons_self, fun t ht p hp => ?_⟩
  rcases hclimb.ends t ht p hp with hpassed | habove
  · rw [List.mem_singleton.mp hpassed]
    exact List.mem_cons_self
  · exact List.mem_cons_of_mem name habove

/-! ### Step by step -/

/-- A step up from a beginning of the lineage leads to the next beginning. -/
theorem Lineage.prefix_of_goesUp (h : s.Lineage name chain) {x y : List String} (hx : x <+: chain)
    (hstep : s.GoesUp x y) : y <+: chain := by
  obtain ⟨t, p, ht, hp, hnew, rfl⟩ := hstep
  obtain ⟨rest, rfl⟩ := hx
  cases rest with
  | nil =>
    rw [List.append_nil] at h
    exact absurd (h.ends t ht p hp) hnew
  | cons q rest =>
    obtain ⟨-, -, hnext⟩ := List.isChain_append.mp h.climbs
    have hq : s.parent? t = some q := hnext t ht q rfl
    cases Option.some.inj (hp.symm.trans hq)
    exact ⟨rest, List.append_assoc x [p] rest⟩

/-- From the whole lineage no step leads on. -/
theorem Lineage.not_goesUp (h : s.Lineage name chain) (longer : List String) :
    ¬ s.GoesUp chain longer := by
  rintro ⟨t, p, ht, hp, hnew, -⟩
  exact hnew (h.ends t ht p hp)

/-- From a beginning of the lineage a step leads to the next beginning. -/
theorem Lineage.goesUp_concat (h : s.Lineage name chain) {x : List String} {p : String} (hne : x ≠ [])
    (hx : x ++ [p] <+: chain) : s.GoesUp x (x ++ [p]) := by
  have hclimbs := List.IsChain.prefix h.climbs hx
  obtain ⟨-, -, hnext⟩ := List.isChain_append.mp hclimbs
  obtain ⟨-, -, hapart⟩ := List.nodup_append.mp (h.distinct.sublist hx.sublist)
  have hlast := List.getLast?_eq_getLast_of_ne_nil hne
  have hp : p ∈ [p] := List.mem_singleton_self p
  exact ⟨x.getLast hne, p, hlast, hnext _ hlast p rfl, fun hmem => hapart p hmem p hp rfl, rfl⟩

/-- **The steps from the type** lead to the beginnings of its lineage and to nothing else. -/
theorem Lineage.goesUp_iff (h : s.Lineage name chain) {x : List String} :
    Relation.ReflTransGen s.GoesUp [name] x ↔ x ≠ [] ∧ x <+: chain := by
  have hfirst : [name] <+: chain := by
    obtain ⟨rest, rfl⟩ := List.head?_eq_some_iff.mp h.first
    exact ⟨rest, rfl⟩
  constructor
  · intro hwalk
    induction hwalk with
    | refl => exact ⟨List.cons_ne_nil name [], hfirst⟩
    | tail _ hstep ih =>
      have hprefix := h.prefix_of_goesUp ih.2 hstep
      obtain ⟨_, p, -, -, -, rfl⟩ := hstep
      exact ⟨List.concat_ne_nil p _, hprefix⟩
  · rintro ⟨hne, hx⟩
    induction x using List.reverseRecOn with
    | nil => exact absurd rfl hne
    | append_singleton x p ih =>
      by_cases hempty : x = []
      · subst hempty
        have hle : [p] <+: [name] := List.prefix_of_prefix_length_le hx hfirst le_rfl
        have hp : [p] = [name] := hle.eq_of_length rfl
        rw [List.nil_append, hp]
      · have hbefore : x <+: chain := (List.prefix_append x [p]).trans hx
        exact (ih hempty hbefore).tail (h.goesUp_concat hempty hx)

/-- A type has one lineage. -/
theorem Lineage.unique (h : s.Lineage name chain) {chain' : List String} (h' : s.Lineage name chain') :
    chain = chain' := by
  have hne : ∀ {c : List String}, s.Lineage name c → c ≠ [] := by
    rintro _ hc rfl
    cases hc.first
  have hpre : ∀ {c c' : List String}, s.Lineage name c → s.Lineage name c' → c <+: c' := by
    intro c c' hc hc'
    exact (hc'.goesUp_iff.mp (hc.goesUp_iff.mpr ⟨hne hc, List.prefix_rfl⟩)).2
  exact (hpre h h').eq_of_length_le (hpre h' h).length_le

/-- **A lineage has at most one type more than are declared.** -/
theorem Lineage.length_le (h : s.Lineage name chain) : chain.length ≤ s.declaredNames.card + 1 := by
  have hdeclared : chain.dropLast.toFinset ⊆ s.declaredNames := by
    intro t ht
    obtain ⟨p, hp⟩ := exists_of_mem_dropLast h.climbs t (List.mem_toFinset.mp ht)
    obtain ⟨e, he, rfl⟩ := exists_entity_of_parent? hp
    exact List.mem_toFinset.mpr (List.mem_map_of_mem he)
  have hnodup : chain.dropLast.Nodup := h.distinct.sublist (List.dropLast_sublist chain)
  have hcard := Finset.card_le_card hdeclared
  rw [List.toFinset_card_of_nodup hnodup, List.length_dropLast] at hcard
  omega

/-! ### Fields -/

theorem typeIn?_eq_some_iff {field : String} {ds : List FieldDecl} {type : FieldType} :
    typeIn? field ds = some type ↔ ∃ d, FirstField field ds d ∧ d.type = type := by
  rw [typeIn?, Option.map_eq_some_iff]
  refine exists_congr fun d => and_congr_left fun _ => ?_
  rw [List.find?_eq_some_iff_append, FirstField]
  constructor
  · rintro ⟨hd, before, after, rfl, hbefore⟩
    exact ⟨before, after, rfl, by simpa using hbefore, by simpa using hd⟩
  · rintro ⟨before, after, rfl, hbefore, hd⟩
    exact ⟨by simpa using hd, before, after, rfl, by simpa using hbefore⟩

/-- **The field that gives the type** is the first one of the nearest type that declares it. -/
theorem fieldType?_eq_some_iff {field : String} {type : FieldType} :
    s.fieldType? name field = some type ↔
      ∃ d, s.NearestField field (s.hierarchy name) d ∧ d.type = type := by
  unfold fieldType? NearestField
  rw [List.findSome?_eq_some_iff]
  simp only [typeIn?_eq_none_iff, typeIn?_eq_some_iff]
  constructor
  · rintro ⟨nearer, t, further, hsplit, ⟨d, hd, htype⟩, hnearer⟩
    exact ⟨d, ⟨nearer, t, further, hsplit, hnearer, hd⟩, htype⟩
  · rintro ⟨d, ⟨nearer, t, further, hsplit, hnearer, hd⟩, htype⟩
    exact ⟨nearer, t, further, hsplit, ⟨d, hd, htype⟩, hnearer⟩

/-- **The walk to the supertypes ends with the right chain**, whatever has been declared.  The hierarchy of a
type is its only lineage; the steps up from the type lead through the beginnings of the hierarchy, and from
the whole of it none leads on; it has at most one type more than are declared.  The type of a field is that
of the first field with the name in the nearest type of the hierarchy that declares one, and there is no type
if none does. -/
theorem hierarchy_walk (s : Schema) (name : String) :
    (∀ chain, s.Lineage name chain ↔ chain = s.hierarchy name) ∧
      (∀ chain, Relation.ReflTransGen s.GoesUp [name] chain ↔
        chain ≠ [] ∧ chain <+: s.hierarchy name) ∧
      (∀ longer, ¬ s.GoesUp (s.hierarchy name) longer) ∧
      (s.hierarchy name).length ≤ s.declaredNames.card + 1 ∧
      ∀ field, (∀ type, s.fieldType? name field = some type ↔
          ∃ d, s.NearestField field (s.hierarchy name) d ∧ d.type = type) ∧
        (s.fieldType? name field = none ↔
          ∀ t ∈ s.hierarchy name, ∀ d ∈ s.declaredFields t, d.name ≠ field) := by
  have hlineage := lineage_hierarchy s name
  refine ⟨fun chain => ⟨fun h => h.unique hlineage, ?_⟩, fun chain => hlineage.goesUp_iff,
    hlineage.not_goesUp, hlineage.length_le, fun field => ⟨fun type => fieldType?_eq_some_iff, ?_⟩⟩
  · rintro rfl
    exact hlineage
  · rw [← Option.not_isSome_iff_eq_none, isSome_fieldType?]
    push Not
    exact Iff.rfl

/-- A circle that is entered from outside, a type that extends itself, a type that extends an undeclared one,
and an undeclared type. -/
example :
    let s : Schema := ⟨⟨0⟩, [⟨"Novel", some "Book", []⟩, ⟨"Book", some "Item", []⟩,
      ⟨"Item", some "Book", []⟩, ⟨"Thing", some "Thing", []⟩, ⟨"Author", some "Person", []⟩], []⟩
    s.hierarchy "Novel" = ["Novel", "Book", "Item"] ∧ s.hierarchy "Thing" = ["Thing"] ∧
      s.hierarchy "Author" = ["Author", "Person"] ∧ s.hierarchy "Person" = ["Person"] := by
  decide

end Schema

end RecordFilter

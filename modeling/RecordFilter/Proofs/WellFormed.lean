import RecordFilter.Proofs.Derivation

/-!
# Groups that can be written

A group is well-formed if each of its predicates has a path that can be read, as many operands and of the
kind as its operator takes, and no number but such as can be read; its strings may be anything.  Every
group that is read is well-formed (`wellFormed_of_parse`).

`Group.mapPredicates` changes the predicates of a group and keeps the tree around them.  Without the
positions (`Group.unplaced`) two groups are equal if they are written alike, and without the strings
(`Group.withoutStrings`) if they differ in nothing but strings.
-/

namespace RecordFilter

/-! ### The predicates of a tree -/

namespace Group

mutual

/-- The same tree with other predicates. -/
def mapPredicates (f : Predicate → Predicate) : Group → Group
  | one c => .one (mapClause f c)
  | join g op c => .join (mapPredicates f g) op (mapClause f c)

def mapClause (f : Predicate → Predicate) : Clause → Clause
  | .predicate p => .predicate (f p)
  | .group g => .group (mapPredicates f g)

end

mutual

theorem predicates_mapPredicates (f : Predicate → Predicate) :
    ∀ g : Group, (g.mapPredicates f).predicates = g.predicates.map f
  | one c => predicates_mapClause f c
  | join g _ c => by
    rw [mapPredicates, predicates, predicates, List.map_append, predicates_mapPredicates f g,
      predicates_mapClause f c]

theorem predicates_mapClause (f : Predicate → Predicate) :
    ∀ c : Clause, clausePredicates (mapClause f c) = (clausePredicates c).map f
  | .predicate _ => rfl
  | .group g => predicates_mapPredicates f g

end

mutual

theorem mapPredicates_mapPredicates (f h : Predicate → Predicate) :
    ∀ g : Group, (g.mapPredicates f).mapPredicates h = g.mapPredicates (h ∘ f)
  | one c => congrArg Group.one (mapClause_mapClause f h c)
  | join g op c => by
    rw [mapPredicates, mapPredicates, mapPredicates, mapPredicates_mapPredicates f h g,
      mapClause_mapClause f h c]

theorem mapClause_mapClause (f h : Predicate → Predicate) :
    ∀ c : Clause, mapClause h (mapClause f c) = mapClause (h ∘ f) c
  | .predicate _ => rfl
  | .group g => congrArg Clause.group (mapPredicates_mapPredicates f h g)

end

end Group

/-- The predicate wherever it stands. -/
def Predicate.unplaced (p : Predicate) : Predicate := { p with position := .start }

/-- The group without the positions of its predicates. -/
def Group.unplaced (g : Group) : Group := g.mapPredicates Predicate.unplaced

def Operand.withoutString : Operand → Operand
  | string _ => .string ""
  | number n => .number n

def Predicate.withoutStrings (p : Predicate) : Predicate :=
  { p with operands := p.operands.map Operand.withoutString }

/-- The group with all of its strings empty. -/
def Group.withoutStrings (g : Group) : Group := g.mapPredicates Predicate.withoutStrings

/-- Positions and strings are apart. -/
theorem Group.unplaced_withoutStrings (g : Group) :
    g.withoutStrings.unplaced = g.unplaced.withoutStrings := by
  rw [withoutStrings, unplaced, withoutStrings, unplaced, mapPredicates_mapPredicates,
    mapPredicates_mapPredicates]
  rfl

/-! ### What can be written -/

/-- A number is one that can be read; a string may be anything. -/
def Operand.WellFormed : Operand → Prop
  | string _ => True
  | number n => NumberText n

/-- The operands are as many, and of the kind, as an operator takes. -/
def Arity.Takes : Arity → List Operand → Prop
  | none, xs => xs = []
  | one, xs => ∃ x, xs = [x]
  | pattern, xs => ∃ s, xs = [.string s]
  | list, xs => xs ≠ []
  | range, xs => ∃ x y, xs = [x, y]

structure Predicate.WellFormed (p : Predicate) : Prop where
  path : PathText p.path
  arity : p.operator.arity.Takes p.operands
  operands : ∀ x ∈ p.operands, x.WellFormed

def Group.WellFormed (g : Group) : Prop := ∀ p ∈ g.predicates, p.WellFormed

theorem Operand.wellFormed_withoutString {x : Operand} :
    x.withoutString.WellFormed ↔ x.WellFormed := by
  cases x <;> rfl

theorem Arity.takes_withoutString {a : Arity} {xs : List Operand} :
    a.Takes (xs.map Operand.withoutString) ↔ a.Takes xs := by
  cases a with
  | none => exact List.map_eq_nil_iff
  | list => exact not_congr List.map_eq_nil_iff
  | one =>
    rcases xs with _ | ⟨x, _ | ⟨y, xs⟩⟩ <;> simp [Takes]
  | pattern =>
    rcases xs with _ | ⟨_ | _, _ | ⟨y, xs⟩⟩ <;> simp [Takes, Operand.withoutString]
  | range =>
    rcases xs with _ | ⟨x, _ | ⟨y, _ | ⟨z, xs⟩⟩⟩ <;> simp [Takes]

theorem Predicate.wellFormed_withoutStrings {p : Predicate} :
    p.withoutStrings.WellFormed ↔ p.WellFormed := by
  have hx : (∀ x ∈ p.operands.map Operand.withoutString, x.WellFormed) ↔
      ∀ x ∈ p.operands, x.WellFormed := by
    simp [Operand.wellFormed_withoutString]
  constructor
  · rintro ⟨hp, ha, ho⟩
    exact ⟨hp, Arity.takes_withoutString.mp ha, hx.mp ho⟩
  · rintro ⟨hp, ha, ho⟩
    exact ⟨hp, Arity.takes_withoutString.mpr ha, hx.mpr ho⟩

/-- Whether a group is well-formed does not depend on its strings. -/
theorem Group.wellFormed_withoutStrings {g : Group} : g.withoutStrings.WellFormed ↔ g.WellFormed := by
  unfold WellFormed withoutStrings
  rw [predicates_mapPredicates, List.forall_mem_map]
  exact forall₂_congr fun p _ => Predicate.wellFormed_withoutStrings

/-! ### What has been read -/

theorem Operand.wellFormed_iff {x : Operand} : x.WellFormed ↔ x.token.Shaped := by
  cases x <;> rfl

/-- Every operand is read from a leaf. -/
theorem TailTree.exists_leaf {t : TailTree} {x : Operand} (h : x ∈ t.operands) :
    ∃ l ∈ t.leaves, l.token = x.token := by
  cases t with
  | compare op m v =>
    cases List.mem_singleton.mp h
    exact ⟨v.leaf, by simp [leaves], rfl⟩
  | test t m => cases h
  | like p n m s ms =>
    cases List.mem_singleton.mp h
    exact ⟨ms.lexeme (.string s), by simp [leaves], rfl⟩
  | member n m a v vs c =>
    rcases List.mem_cons.mp h with rfl | h
    · exact ⟨v.leaf, by simp [leaves], rfl⟩
    · obtain ⟨w, hw, rfl⟩ := List.mem_map.mp h
      have hl : w.2.leaf ∈ vs.leaves := List.mem_flatMap.mpr ⟨w, hw, by simp⟩
      exact ⟨w.2.leaf, by simp [leaves, hl], rfl⟩
  | between m low a high =>
    simp only [operands, List.mem_cons, List.not_mem_nil, or_false] at h
    rcases h with rfl | rfl
    · exact ⟨low.leaf, by simp [leaves], rfl⟩
    · exact ⟨high.leaf, by simp [leaves], rfl⟩

theorem TailTree.arity_takes (t : TailTree) : t.operator.arity.Takes t.operands := by
  cases t with
  | compare op m v => exact ⟨v.operand, rfl⟩
  | test t m => rfl
  | like p n m s ms => exact ⟨s, rfl⟩
  | member n m a v vs c => exact List.cons_ne_nil _ _
  | between m low a high => exact ⟨low.operand, high.operand, rfl⟩

mutual

theorem QueryTree.wellFormed : ∀ q : QueryTree,
    (∀ l ∈ q.leaves, l.token.Shaped) → q.group.WellFormed
  | .mk c ch, h => by
    rw [QueryTree.leaves, List.forall_mem_append] at h
    exact ch.wellFormed h.2 (c.wellFormed h.1)

theorem ChainTree.wellFormed : ∀ (ch : ChainTree) {g : Group}, (∀ l ∈ ch.leaves, l.token.Shaped) →
    g.WellFormed → (ch.onto g).WellFormed
  | .done, _, _, hg => hg
  | .more op m c ch, g, h, hg => by
    rw [ChainTree.leaves, List.forall_mem_cons, List.forall_mem_append] at h
    refine ch.wellFormed h.2.2 ?_
    exact List.forall_mem_append.mpr ⟨hg, c.wellFormed h.2.1⟩

theorem ClauseTree.wellFormed : ∀ c : ClauseTree, (∀ l ∈ c.leaves, l.token.Shaped) →
    ∀ p ∈ Group.clausePredicates c.clause, p.WellFormed
  | .predicate path m t, h, p, hp => by
    rw [ClauseTree.leaves, List.forall_mem_cons] at h
    cases List.mem_singleton.mp hp
    refine ⟨h.1, t.arity_takes, fun x hx => ?_⟩
    obtain ⟨l, hl, hlx⟩ := TailTree.exists_leaf hx
    rw [Operand.wellFormed_iff, ← hlx]
    exact h.2 l hl
  | .group a q c, h, p, hp => by
    rw [ClauseTree.leaves, List.forall_mem_cons, List.forall_mem_append] at h
    exact q.wellFormed h.2.1 p hp

end

/-- **What has been read can be written.** -/
theorem wellFormed_of_parse {text : String} {g : Group} (h : parse text = .ok g) : g.WellFormed := by
  obtain ⟨q, rfl, hq⟩ := exists_query_of_parse h
  exact q.wellFormed hq

/-- The path of a predicate of a group that has been read has no empty segment. -/
theorem named_of_parse {text : String} {g : Group} (h : parse text = .ok g) {p : Predicate}
    (hp : p ∈ g.predicates) : "" ∉ Text.pieces '.' p.path :=
  (wellFormed_of_parse h p hp).path.named

end RecordFilter

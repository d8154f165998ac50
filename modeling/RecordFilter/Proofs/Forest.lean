import RecordFilter.Proofs.Resolution

/-!
# Joins as a forest

The joins of a backend refer to each other by their places in the list.  In a `Forest` every join has
its place as its number, its parent stands before it, and it leads from the entity type of its parent along
its relationship to its own.  Following the parents of a place up to the root `Spells` the relationships
that lead there, and there is one such spelling only (`Spells.unique`).

A compilation keeps the joins a forest, in which the place of a beginning spells that beginning
(`Tracks.forest`, `Tracks.spells`): a beginning is used only behind the one it extends
(`PrefixClosed`), so that its parent is older.
-/

namespace RecordFilter

/-- The entity type at a place: the root, or a join. -/
def entityAt? (root : String) (joins : List JoinRecord) : Option Nat → Option String
  | none => some root
  | some k => joins[k]?.map JoinRecord.entity

/-- The joins are numbered by their places, parents stand before their children, and every join leads
from the entity type of its parent to its own. -/
structure Forest (s : Schema) (root : String) (joins : List JoinRecord) : Prop where
  id : ∀ (i : Nat) (r : JoinRecord), joins[i]? = some r → r.id = i
  parent : ∀ r ∈ joins, ∀ k, r.parent = some k → k < r.id
  entity : ∀ r ∈ joins, ∃ owner, entityAt? root joins r.parent = some owner ∧
    s.target? owner r.segment = some r.entity

/-- From the root these relationships lead to a place. -/
inductive Spells (joins : List JoinRecord) : Option Nat → List String → Prop
  | root : Spells joins none []
  | step {k : Nat} {r : JoinRecord} {q : List String} (record : joins[k]? = some r)
      (parent : Spells joins r.parent q) : Spells joins (some k) (q ++ [r.segment])

theorem Spells.unique {joins : List JoinRecord} {place : Option Nat} {q q' : List String}
    (h : Spells joins place q) (h' : Spells joins place q') : q = q' := by
  induction h generalizing q' with
  | root =>
    cases h'
    rfl
  | step record _ ih =>
    cases h' with
    | step record' parent' =>
      rw [record] at record'
      obtain rfl := Option.some.inj record'
      rw [ih parent']

/-- Only the root is reached along no relationship. -/
theorem Spells.eq_none_iff {joins : List JoinRecord} {place : Option Nat} {q : List String}
    (h : Spells joins place q) : place = none ↔ q = [] := by
  cases h with
  | root => simp
  | step => simp

theorem forest_nil (s : Schema) (root : String) : Forest s root [] := by
  constructor
  · intro i r hr
    simp at hr
  · intro r hr
    cases hr
  · intro r hr
    cases hr

/-! ### Beginnings in the order of their use -/

/-- Every beginning stands behind the one that it extends. -/
inductive PrefixClosed : List (List String) → Prop
  | nil : PrefixClosed []
  | snoc {uses : List (List String)} {q : List String} (h : PrefixClosed uses) (hne : q ≠ [])
      (hq : Met uses q.dropLast) : PrefixClosed (uses ++ [q])

theorem PrefixClosed.append_prefixesFrom {uses : List (List String)} (h : PrefixClosed uses)
    {q : List String} (hq : Met uses q) (rest : List String) :
    PrefixClosed (uses ++ prefixesFrom q rest) := by
  induction rest generalizing uses q with
  | nil => simpa [prefixesFrom] using h
  | cons x rest ih =>
    have hx : PrefixClosed (uses ++ [q ++ [x]]) :=
      h.snoc (by simp) (by rw [List.dropLast_concat]; exact hq)
    have hmet : Met (uses ++ [q ++ [x]]) (q ++ [x]) := Or.inr (by simp)
    have hrest := ih hx hmet
    rw [List.append_assoc] at hrest
    exact hrest

/-- The beginnings of several paths. -/
theorem prefixClosed_flatMap (s : Schema) (root : String) (paths : List String) :
    PrefixClosed (paths.flatMap (pathUses s root)) := by
  induction paths using List.reverseRecOn with
  | nil => exact .nil
  | append_singleton paths path ih =>
    rw [List.flatMap_append, List.flatMap_singleton]
    exact ih.append_prefixesFrom (Or.inl rfl) _

/-- What a beginning extends is used before it for the first time. -/
theorem PrefixClosed.idxOf_dropLast_lt {uses : List (List String)} (h : PrefixClosed uses)
    {q : List String} (hq : q ∈ uses) (hne : q.dropLast ≠ []) :
    uses.eraseDups.idxOf q.dropLast < uses.eraseDups.idxOf q := by
  induction h with
  | nil => cases hq
  | @snoc uses q₀ hclosed hne₀ hmet ih =>
    by_cases hold : q ∈ uses
    · have hlt := ih hold
      have hmem : q.dropLast ∈ uses := by
        have hpos : uses.eraseDups.idxOf q < uses.eraseDups.length :=
          List.idxOf_lt_length_iff.mpr (List.mem_eraseDups.mpr hold)
        exact List.mem_eraseDups.mp (List.idxOf_lt_length_iff.mp (by omega))
      rw [idxOf_eraseDups_append hmem, idxOf_eraseDups_append hold]
      exact hlt
    · have hq₀ : q = q₀ := by simpa [hold] using hq
      subst hq₀
      have hmem : q.dropLast ∈ uses := hmet.resolve_left hne
      rw [idxOf_eraseDups_append hmem, idxOf_eraseDups_new hold]
      exact List.idxOf_lt_length_iff.mpr (List.mem_eraseDups.mpr hmem)

/-- Its join is older. -/
theorem PrefixClosed.parent_recordOf_lt {uses : List (List String)} (h : PrefixClosed uses)
    {s : Schema} {root : String} {old k : Nat} {q : List String} (hq : q ∈ uses)
    (hk : (recordOf s root old uses q).parent = some k) : k < (recordOf s root old uses q).id := by
  unfold recordOf at hk ⊢
  dsimp only at hk ⊢
  by_cases hq0 : q.dropLast = []
  · rw [hq0] at hk
    cases hk
  · have hlt := h.idxOf_dropLast_lt hq hq0
    rw [joinId_of_ne_nil hq0] at hk
    obtain rfl := Option.some.inj hk
    omega

/-! ### The joins of a compilation -/

namespace Tracks

variable {s : Schema} {root : String} {old : List JoinRecord} {uses : List (List String)}
  {p : Progress (List JoinRecord) Join}

theorem getElem?_old (h : Tracks s root old uses p) {i : Nat} (hi : i < old.length) :
    p.backend[i]? = old[i]? := by
  rw [h.backend, List.getElem?_append_left hi]

/-- The new joins are those of the beginnings, in the order of their first use. -/
theorem getElem?_new (h : Tracks s root old uses p) (j : Nat) :
    p.backend[old.length + j]? = uses.eraseDups[j]?.map (recordOf s root old.length uses) := by
  rw [h.backend, List.getElem?_append_right (by omega), List.getElem?_map]
  congr 2
  omega

/-- The record of a beginning is at its place. -/
theorem getElem?_idxOf (h : Tracks s root old uses p) {q : List String} (hq : q ∈ uses) :
    p.backend[old.length + uses.eraseDups.idxOf q]? = some (recordOf s root old.length uses q) := by
  have hmem := List.mem_eraseDups.mpr hq
  rw [h.getElem?_new, List.getElem?_eq_getElem (List.idxOf_lt_length_iff.mpr hmem),
    List.getElem_idxOf]
  rfl

/-- **The place of a beginning spells it.** -/
theorem spells (h : Tracks s root old uses p) {q : List String} (hq : Met uses q) :
    Spells p.backend (joinId old.length uses q) q := by
  induction q using List.reverseRecOn with
  | nil => exact .root
  | append_singleton q x ih =>
    have hmem : q ++ [x] ∈ uses := hq.resolve_left (by simp)
    obtain ⟨-, -, hmet⟩ := h.met _ hmem
    rw [List.dropLast_concat] at hmet
    have hstep := Spells.step (h.getElem?_idxOf hmem)
      (by rw [recordOf, List.dropLast_concat]; exact ih hmet)
    have hx : (recordOf s root old.length uses (q ++ [x])).segment = x := by simp [recordOf]
    rw [hx] at hstep
    rw [joinId_of_ne_nil (by simp)]
    exact hstep

/-- The entity type at the place of a beginning is the one that it leads to. -/
theorem entityAt?_joinId (h : Tracks s root old uses p) {q : List String} (hq : Met uses q) :
    entityAt? root p.backend (joinId old.length uses q) = s.entityAlong? root q := by
  by_cases hq0 : q = []
  · subst hq0
    rfl
  · have hmem := hq.resolve_left hq0
    obtain ⟨e, he⟩ := h.entity q hmem
    rw [joinId_of_ne_nil hq0, entityAt?, h.getElem?_idxOf hmem, Option.map_some, recordOf, he]
    rfl

/-- Every join is an old one or that of a beginning. -/
theorem mem_backend (h : Tracks s root old uses p) {r : JoinRecord} (hr : r ∈ p.backend) :
    r ∈ old ∨ ∃ q ∈ uses, r = recordOf s root old.length uses q := by
  rw [h.backend, List.mem_append, List.mem_map] at hr
  refine hr.imp_right ?_
  rintro ⟨q, hq, rfl⟩
  exact ⟨q, List.mem_eraseDups.mp hq, rfl⟩

/-- The entity types at the old places stay. -/
theorem entityAt?_old (h : Tracks s root old uses p) {place : Option Nat} {owner : String}
    (ho : entityAt? root old place = some owner) : entityAt? root p.backend place = some owner := by
  cases place with
  | none => exact ho
  | some k =>
    obtain ⟨r, hr, rfl⟩ := Option.map_eq_some_iff.mp ho
    have hk : k < old.length := (List.getElem?_eq_some_iff.mp hr).1
    rw [entityAt?, h.getElem?_old hk, hr, Option.map_some]

/-- The join of a beginning leads from what the beginning extends to where it leads itself. -/
theorem entity_recordOf (h : Tracks s root old uses p) {q : List String} (hq : q ∈ uses) :
    ∃ owner, entityAt? root p.backend (recordOf s root old.length uses q).parent = some owner ∧
      s.target? owner (recordOf s root old.length uses q).segment =
        some (recordOf s root old.length uses q).entity := by
  obtain ⟨hq0, -, hmet⟩ := h.met q hq
  obtain ⟨e, he⟩ := h.entity q hq
  have hent : (recordOf s root old.length uses q).entity = e := by
    rw [recordOf, he]
    rfl
  have hseg : (recordOf s root old.length uses q).segment = q.getLast hq0 := by
    simp [recordOf, List.getLast?_eq_some_getLast hq0]
  rw [← List.dropLast_append_getLast hq0, Schema.entityAlong?_concat] at he
  obtain ⟨owner, ho, ht⟩ := Option.bind_eq_some_iff.mp he
  rw [hent, hseg]
  exact ⟨owner, (h.entityAt?_joinId hmet).trans ho, ht⟩

/-- **The joins stay a forest.** -/
theorem forest (h : Tracks s root old uses p) (hold : Forest s root old)
    (hclosed : PrefixClosed uses) : Forest s root p.backend := by
  constructor
  · intro i r hr
    by_cases hi : i < old.length
    · rw [h.getElem?_old hi] at hr
      exact hold.id i r hr
    · obtain ⟨j, rfl⟩ : ∃ j, i = old.length + j := ⟨i - old.length, by omega⟩
      rw [h.getElem?_new] at hr
      obtain ⟨q, hq, rfl⟩ := Option.map_eq_some_iff.mp hr
      obtain ⟨hj, rfl⟩ := List.getElem?_eq_some_iff.mp hq
      show old.length + uses.eraseDups.idxOf uses.eraseDups[j] = old.length + j
      rw [(nodup_eraseDups uses).idxOf_getElem]
  · intro r hr k hk
    rcases h.mem_backend hr with hr | ⟨q, hq, rfl⟩
    · exact hold.parent r hr k hk
    · exact hclosed.parent_recordOf_lt hq hk
  · intro r hr
    rcases h.mem_backend hr with hr | ⟨q, hq, rfl⟩
    · obtain ⟨owner, ho, ht⟩ := hold.entity r hr
      exact ⟨owner, h.entityAt?_old ho, ht⟩
    · exact h.entity_recordOf hq

end Tracks

end RecordFilter

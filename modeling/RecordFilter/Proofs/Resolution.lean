import RecordFilter.Condition.Backend
import RecordFilter.Proofs.FieldCache
import RecordFilter.Proofs.Running
import RecordFilter.Proofs.Trail
import Mathlib.Data.List.Basic

/-!
# Resolving paths to fields of conditions

A compilation makes one join for every beginning of a path that it meets for the first time.  `uses` is
the list of all beginnings met so far, in the order in which they were met and with repetitions; the
joins made are those of `uses.eraseDups`.  `Tracks` says that the progress of a compilation is exactly
that: the records of the backend behind the `old` ones, and the joins that are remembered.

`resolve_spec` says what resolving a path does from there: it adds the beginnings of the path as far as
they can be followed (`Schema.navigable`), and gives the field or the segment that leads nowhere.
-/

namespace RecordFilter

/-! ### Following relationships in a schema -/

namespace Schema

/-- The entity type that relationships lead to. -/
def entityAlong? (s : Schema) : String → List String → Option String
  | owner, [] => some owner
  | owner, x :: rest => (s.target? owner x).bind fun entity => s.entityAlong? entity rest

/-- The relationships as far as they lead somewhere. -/
def navigable (s : Schema) : String → List String → List String
  | _, [] => []
  | owner, x :: rest =>
    match s.target? owner x with
    | some entity => x :: s.navigable entity rest
    | none => []

theorem entityAlong?_concat (s : Schema) (owner : String) (q : List String) (x : String) :
    s.entityAlong? owner (q ++ [x]) = (s.entityAlong? owner q).bind fun e => s.target? e x := by
  induction q generalizing owner with
  | nil => simp [entityAlong?]
  | cons y q ih =>
    rw [List.cons_append, entityAlong?, entityAlong?, Option.bind_assoc]
    exact Option.bind_congr fun e _ => ih e

theorem navigable_of_entityAlong? {s : Schema} {owner e : String} {q : List String}
    (h : s.entityAlong? owner q = some e) : s.navigable owner q = q := by
  induction q generalizing owner with
  | nil => rfl
  | cons x q ih =>
    rw [entityAlong?] at h
    obtain ⟨t, ht, h⟩ := Option.bind_eq_some_iff.mp h
    rw [navigable, ht]
    exact congrArg (x :: ·) (ih h)

end Schema

/-- Authors and their books, for examples. -/
def library : Schema :=
  ⟨⟨0⟩, [⟨"Author", none, [⟨"name", .text⟩, ⟨"books", .collection "Book"⟩]⟩,
    ⟨"Book", none, [⟨"pages", .integer .w32⟩, ⟨"author", .entity "Author"⟩]⟩], []⟩

/-! ### First uses -/

section FirstUses

variable {α : Type} [BEq α] [LawfulBEq α]

theorem eraseDups_concat (l : List α) (a : α) :
    (l ++ [a]).eraseDups = if a ∈ l then l.eraseDups else l.eraseDups ++ [a] := by
  rw [List.eraseDups_append]
  by_cases h : a ∈ l
  · rw [if_pos h]
    simp [List.removeAll, h]
  · rw [if_neg h]
    simp [List.removeAll, h, List.eraseDups_cons]

theorem nodup_eraseDups (l : List α) : l.eraseDups.Nodup := by
  induction l using List.reverseRecOn with
  | nil => simp
  | append_singleton l a ih =>
    rw [eraseDups_concat]
    split_ifs with h
    · exact ih
    · refine List.nodup_append.mpr ⟨ih, by simp, ?_⟩
      rintro b hb c hc rfl
      rw [List.mem_singleton] at hc
      subst hc
      exact h (List.mem_eraseDups.mp hb)

/-- The place of a first use does not change with what comes later. -/
theorem idxOf_eraseDups_append {l : List α} {a : α} (h : a ∈ l) (more : List α) :
    (l ++ more).eraseDups.idxOf a = l.eraseDups.idxOf a := by
  rw [List.eraseDups_append, List.idxOf_append_of_mem (List.mem_eraseDups.mpr h)]

theorem idxOf_eraseDups_new {l : List α} {a : α} (h : a ∉ l) :
    (l ++ [a]).eraseDups.idxOf a = l.eraseDups.length := by
  rw [eraseDups_concat, if_neg h, List.idxOf_append,
    if_neg (fun hm => h (List.mem_eraseDups.mp hm))]
  simp

end FirstUses

/-! ### The joins of beginnings -/

/-- The number of the join behind relationships, of which there is none at the root; `k` joins are
older. -/
def joinId (k : Nat) (uses : List (List String)) (q : List String) : Option Nat :=
  if q = [] then none else some (k + uses.eraseDups.idxOf q)

/-- The place behind relationships. -/
def placeOf (s : Schema) (root : String) (k : Nat) (uses : List (List String)) (q : List String) :
    Join :=
  ⟨joinId k uses q, (s.entityAlong? root q).getD "", q⟩

/-- What is recorded of the join behind relationships. -/
def recordOf (s : Schema) (root : String) (k : Nat) (uses : List (List String)) (q : List String) :
    JoinRecord :=
  ⟨k + uses.eraseDups.idxOf q, joinId k uses q.dropLast, q.getLast?.getD "",
    (s.entityAlong? root q).getD ""⟩

/-- The root, or a place that has been met. -/
def Met (uses : List (List String)) (q : List String) : Prop := q = [] ∨ q ∈ uses

theorem Met.append {uses : List (List String)} {q : List String} (h : Met uses q)
    (more : List (List String)) : Met (uses ++ more) q :=
  h.imp_right (List.mem_append_left more)

theorem joinId_of_ne_nil {q : List String} (h : q ≠ []) (k : Nat) (uses : List (List String)) :
    joinId k uses q = some (k + uses.eraseDups.idxOf q) :=
  if_neg h

theorem joinId_append {uses : List (List String)} {q : List String} (h : Met uses q) (k : Nat)
    (more : List (List String)) : joinId k (uses ++ more) q = joinId k uses q := by
  unfold joinId
  rcases h with rfl | h
  · rfl
  · rw [idxOf_eraseDups_append h]

theorem placeOf_append {uses : List (List String)} {q : List String} (h : Met uses q) (s : Schema)
    (root : String) (k : Nat) (more : List (List String)) :
    placeOf s root k (uses ++ more) q = placeOf s root k uses q := by
  unfold placeOf
  rw [joinId_append h]

theorem recordOf_append {uses : List (List String)} {q : List String} (hq : q ∈ uses)
    (h : Met uses q.dropLast) (s : Schema) (root : String) (k : Nat) (more : List (List String)) :
    recordOf s root k (uses ++ more) q = recordOf s root k uses q := by
  unfold recordOf
  rw [joinId_append h, idxOf_eraseDups_append hq]

theorem placeOf_nil (s : Schema) (root : String) (k : Nat) (uses : List (List String)) :
    placeOf s root k uses [] = (Condition.backend s root).root := rfl

/-! ### Progress -/

/-- **The progress of a compilation** that has met the beginnings `uses`, on top of the `old` joins. -/
structure Tracks (s : Schema) (root : String) (old : List JoinRecord) (uses : List (List String))
    (p : Progress (List JoinRecord) Join) : Prop where
  backend : p.backend = old ++ uses.eraseDups.map (recordOf s root old.length uses)
  lookup : ∀ q, q ≠ [] → Named q → p.joins.lookup (trailOf q) =
    if q ∈ uses then some (placeOf s root old.length uses q) else none
  entity : ∀ q ∈ uses, ∃ e, s.entityAlong? root q = some e
  met : ∀ q ∈ uses, q ≠ [] ∧ Named q ∧ Met uses q.dropLast

namespace Tracks

variable {s : Schema} {root : String} {old : List JoinRecord} {uses : List (List String)}
  {p : Progress (List JoinRecord) Join}

/-- Nothing has been met. -/
theorem start (s : Schema) (root : String) (old : List JoinRecord) (cache : FieldCache) :
    Tracks s root old [] ⟨old, [], cache⟩ where
  backend := by simp
  lookup q _ _ := rfl
  entity q hq := by cases hq
  met q hq := by cases hq

theorem with_cache (h : Tracks s root old uses p) (cache : FieldCache) :
    Tracks s root old uses { p with cache } :=
  ⟨h.backend, h.lookup, h.entity, h.met⟩

theorem length_backend (h : Tracks s root old uses p) :
    p.backend.length = old.length + uses.eraseDups.length := by
  rw [h.backend, List.length_append, List.length_map]

/-- A beginning that is met again changes nothing. -/
theorem again (h : Tracks s root old uses p) {q : List String} (hq : q ∈ uses) :
    Tracks s root old (uses ++ [q]) p := by
  have hd : (uses ++ [q]).eraseDups = uses.eraseDups := by rw [eraseDups_concat, if_pos hq]
  have hid : ∀ r, joinId old.length (uses ++ [q]) r = joinId old.length uses r := by
    intro r
    unfold joinId
    rw [hd]
  have hmem : ∀ r, r ∈ uses ++ [q] ↔ r ∈ uses := by
    intro r
    rw [List.mem_append, List.mem_singleton]
    exact ⟨fun hr => hr.elim id fun e => e ▸ hq, Or.inl⟩
  refine ⟨?_, fun r hr0 hr => ?_, fun r hr => h.entity r ((hmem r).mp hr), fun r hr => ?_⟩
  · rw [h.backend, hd]
    refine congrArg (old ++ ·) (List.map_congr_left fun r _ => ?_)
    simp only [recordOf, hid, hd]
  · rw [h.lookup r hr0 hr]
    simp only [hmem, placeOf, hid]
  · obtain ⟨hr0, hn, hm⟩ := h.met r ((hmem r).mp hr)
    exact ⟨hr0, hn, hm.append [q]⟩

theorem placeOf_new (h : Tracks s root old uses p) {q : List String} {e : String} (hq : q ≠ [])
    (hnew : q ∉ uses) (he : s.entityAlong? root q = some e) :
    placeOf s root old.length (uses ++ [q]) q = ⟨some p.backend.length, e, q⟩ := by
  unfold placeOf joinId
  rw [idxOf_eraseDups_new hnew, he, h.length_backend, if_neg hq]
  rfl

/-- A beginning that is met for the first time gets the next join. -/
theorem first (h : Tracks s root old uses p) {q : List String} {x e : String}
    (hq : Met uses q) (hn : Named (q ++ [x])) (hnew : q ++ [x] ∉ uses)
    (he : s.entityAlong? root (q ++ [x]) = some e) :
    Tracks s root old (uses ++ [q ++ [x]])
      { p with
        backend := p.backend ++ [⟨p.backend.length, joinId old.length uses q, x, e⟩]
        joins := (trailOf (q ++ [x]), ⟨some p.backend.length, e, q ++ [x]⟩) :: p.joins } := by
  have hd : (uses ++ [q ++ [x]]).eraseDups = uses.eraseDups ++ [q ++ [x]] := by
    rw [eraseDups_concat, if_neg hnew]
  refine ⟨?_, fun r hr0 hr => ?_, fun r hr => ?_, fun r hr => ?_⟩
  · have hold : uses.eraseDups.map (recordOf s root old.length (uses ++ [q ++ [x]])) =
        uses.eraseDups.map (recordOf s root old.length uses) := by
      refine List.map_congr_left fun r hr => ?_
      have hr := List.mem_eraseDups.mp hr
      exact recordOf_append hr (h.met r hr).2.2 s root old.length _
    have hrec : recordOf s root old.length (uses ++ [q ++ [x]]) (q ++ [x]) =
        ⟨p.backend.length, joinId old.length uses q, x, e⟩ := by
      unfold recordOf
      rw [idxOf_eraseDups_new hnew, List.dropLast_concat, joinId_append hq, he, h.length_backend]
      simp
    rw [hd, List.map_append, hold, List.map_singleton, hrec, ← List.append_assoc, ← h.backend]
  · rw [List.lookup_cons]
    by_cases hrx : r = q ++ [x]
    · subst hrx
      rw [beq_self_eq_true, if_pos (by simp)]
      exact congrArg some (h.placeOf_new hr0 hnew he).symm
    · have hne : trailOf r ≠ trailOf (q ++ [x]) := fun ht =>
        hrx (trailOf_inj hr hn ht)
      rw [beq_false_of_ne hne, h.lookup r hr0 hr]
      by_cases hru : r ∈ uses
      · rw [if_pos hru, if_pos (List.mem_append_left _ hru), placeOf_append (Or.inr hru)]
      · rw [if_neg hru, if_neg (by simp [hru, hrx])]
  · rcases List.mem_append.mp hr with hr | hr
    · exact h.entity r hr
    · rw [List.mem_singleton.mp hr]
      exact ⟨e, he⟩
  · rcases List.mem_append.mp hr with hr | hr
    · obtain ⟨hr0, hrn, hm⟩ := h.met r hr
      exact ⟨hr0, hrn, hm.append _⟩
    · rw [List.mem_singleton.mp hr, List.dropLast_concat]
      exact ⟨by simp, hn, hq.append _⟩

end Tracks

/-! ### Steps along a path -/

section Steps

open Compilation

variable {s : Schema} {root : String} {old : List JoinRecord} {uses : List (List String)}
  {p : Progress (List JoinRecord) Join}

/-- A relationship whose join is not remembered: the backend makes the join, or cannot. -/
theorem runFrom_joinOnce {trail : String} (hl : p.joins.lookup trail = none) (s : Schema)
    (root path segment : String) (j : Join) :
    ((Condition.backend s root).joinOnce path trail j segment).runFrom p =
      match Condition.makeJoin s j segment p.backend with
      | (some j', joins) => (.ok j', { p with backend := joins, joins := (trail, j') :: p.joins })
      | (none, joins) => (.error (.unresolved path segment), { p with backend := joins }) := by
  unfold Backend.joinOnce
  rw [runFrom_bind_ok (runFrom_joinAt? _ p), hl]
  change (_ >>= _ : Compilation _ _ _).runFrom p = _
  rw [runFrom_bind_ok (runFrom_build _ p)]
  change (resolved path segment (Condition.makeJoin s j segment p.backend).1 >>= _ :
    Compilation _ _ _).runFrom { p with backend := (Condition.makeJoin s j segment p.backend).2 } = _
  rcases Condition.makeJoin s j segment p.backend with ⟨_ | j', joins⟩
  · rw [runFrom_bind_error (runFrom_resolved_none path segment _)]
  · rw [runFrom_bind_ok (runFrom_resolved_some path segment _ _),
      runFrom_bind_ok (runFrom_rememberJoin _ _ _), runFrom_pure]

/-- **One relationship further**, where it leads to an entity type. -/
theorem joinOnce_some (h : Tracks s root old uses p) {q : List String} {owner x e : String}
    (hq : Met uses q) (hn : Named (q ++ [x])) (ho : s.entityAlong? root q = some owner)
    (he : s.target? owner x = some e) (path : String) :
    ∃ p', (((Condition.backend s root).joinOnce path (trailOf (q ++ [x]))
        (placeOf s root old.length uses q) x).runFrom p =
          (.ok (placeOf s root old.length (uses ++ [q ++ [x]]) (q ++ [x])), p')) ∧
      Tracks s root old (uses ++ [q ++ [x]]) p' ∧ p'.cache = p.cache := by
  have hent : s.entityAlong? root (q ++ [x]) = some e := by
    rw [Schema.entityAlong?_concat, ho]
    exact he
  by_cases hold : q ++ [x] ∈ uses
  · have hl := h.lookup (q ++ [x]) (by simp) hn
    rw [if_pos hold] at hl
    refine ⟨p, ?_, h.again hold, rfl⟩
    unfold Backend.joinOnce
    rw [runFrom_bind_ok (runFrom_joinAt? _ p), hl, placeOf_append (Or.inr hold)]
    rfl
  · have hl := h.lookup (q ++ [x]) (by simp) hn
    rw [if_neg hold] at hl
    refine ⟨_, ?_, h.first hq hn hold hent, rfl⟩
    have hmake : Condition.makeJoin s (placeOf s root old.length uses q) x p.backend =
        (some ⟨some p.backend.length, e, q ++ [x]⟩,
          p.backend ++ [⟨p.backend.length, joinId old.length uses q, x, e⟩]) := by
      unfold Condition.makeJoin placeOf
      rw [ho, Option.getD_some, he]
    rw [runFrom_joinOnce hl, hmake, h.placeOf_new (by simp) hold hent]

/-- A relationship that leads nowhere. -/
theorem joinOnce_none (h : Tracks s root old uses p) {q : List String} {owner x : String}
    (hn : Named (q ++ [x])) (ho : s.entityAlong? root q = some owner)
    (he : s.target? owner x = none) (path : String) :
    ((Condition.backend s root).joinOnce path (trailOf (q ++ [x]))
        (placeOf s root old.length uses q) x).runFrom p = (.error (.unresolved path x), p) := by
  have hnew : q ++ [x] ∉ uses := by
    intro hm
    obtain ⟨e, hent⟩ := h.entity _ hm
    rw [Schema.entityAlong?_concat, ho, Option.bind_some, he] at hent
    cases hent
  have hl := h.lookup (q ++ [x]) (by simp) hn
  rw [if_neg hnew] at hl
  have hmake : Condition.makeJoin s (placeOf s root old.length uses q) x p.backend =
      (none, p.backend) := by
    unfold Condition.makeJoin placeOf
    rw [ho, Option.getD_some, he]
  rw [runFrom_joinOnce hl, hmake]

/-- **All relationships of a path**, from a place that has been met.  They add their beginnings as far
as they can be followed; then either the last join is the place behind all of them, or the first
relationship that cannot be followed is reported. -/
theorem joinAlong_spec (path : String) (rest : List String) {q : List String} {owner : String}
    (h : Tracks s root old uses p) (hq : Met uses q) (hn : Named (q ++ rest))
    (ho : s.entityAlong? root q = some owner) :
    ∃ p', Tracks s root old (uses ++ prefixesFrom q (s.navigable owner rest)) p' ∧
      p'.cache = p.cache ∧
      ((∃ js, ((Condition.backend s root).joinAlong path (trailOf q)
            (placeOf s root old.length uses q) rest).runFrom p = (.ok js, p') ∧
          s.navigable owner rest = rest ∧ (s.entityAlong? root (q ++ rest)).isSome ∧
          js.getLast?.getD (placeOf s root old.length uses q) =
            placeOf s root old.length (uses ++ prefixesFrom q rest) (q ++ rest)) ∨
        ∃ x more, ((Condition.backend s root).joinAlong path (trailOf q)
            (placeOf s root old.length uses q) rest).runFrom p = (.error (.unresolved path x), p') ∧
          rest = s.navigable owner rest ++ x :: more) := by
  induction rest generalizing q owner uses p with
  | nil =>
    refine ⟨p, by simpa [prefixesFrom, Schema.navigable] using h, rfl, Or.inl ⟨[], rfl, rfl, ?_, ?_⟩⟩
    · simp [ho]
    · simp [prefixesFrom]
  | cons x rest ih =>
    have hn' : Named (q ++ [x] ++ rest) := by simpa using hn
    unfold Backend.joinAlong
    dsimp only
    rw [← trailOf_concat]
    cases he : s.target? owner x with
    | none =>
      have hnav : s.navigable owner (x :: rest) = [] := by rw [Schema.navigable, he]
      refine ⟨p, by simpa [hnav, prefixesFrom] using h, rfl, Or.inr ⟨x, rest, ?_, by rw [hnav]; rfl⟩⟩
      rw [runFrom_bind_error (joinOnce_none h hn'.left ho he path)]
    | some e =>
      have hnav : s.navigable owner (x :: rest) = x :: s.navigable e rest := by
        rw [Schema.navigable, he]
      have hent : s.entityAlong? root (q ++ [x]) = some e := by
        rw [Schema.entityAlong?_concat, ho]
        exact he
      obtain ⟨p₁, hrun₁, h₁, hc₁⟩ := joinOnce_some h hq hn'.left ho he path
      obtain ⟨p₂, h₂, hc₂, hend⟩ := ih h₁ (Or.inr (by simp)) hn' hent
      rw [runFrom_bind_ok hrun₁]
      refine ⟨p₂, ?_, hc₂.trans hc₁, ?_⟩
      · rw [hnav, prefixesFrom]
        simpa using h₂
      · rcases hend with ⟨js, hrun₂, hall, hsome, hlast⟩ | ⟨y, more, hrun₂, hy⟩
        · left
          refine ⟨placeOf s root old.length (uses ++ [q ++ [x]]) (q ++ [x]) :: js, ?_,
            by rw [hnav, hall], by simpa using hsome, ?_⟩
          · rw [runFrom_bind_ok hrun₂]
            rfl
          · rw [List.getLast?_cons, Option.getD_some, hlast, prefixesFrom]
            simp
        · right
          refine ⟨y, more, ?_, by rw [hnav, List.cons_append, ← hy]⟩
          rw [runFrom_bind_error hrun₂]

/-- The beginnings that a path adds: those of its relationships as far as they can be followed. -/
def pathUses (s : Schema) (root path : String) : List (List String) :=
  prefixesFrom [] (s.navigable root (AttributePath.ofText path).relations)

/-- **What resolving a path gives:** its field, taken from the join with this number, with the type that
the cache knows; or a fault at the first relationship that cannot be followed, or at a name that is no
field. -/
inductive Resolution (s : Schema) (root path : String) (cache : FieldCache) (id : Option Nat) :
    Except CompileError (ResolvedPath Join FieldRef) → Prop
  | found {owner : String} {t : FieldType} {js : List Join}
      (entity : s.entityAlong? root (AttributePath.ofText path).relations = some owner)
      (declared : (s.fieldType? owner (AttributePath.ofText path).field).isSome)
      (known : (cache.lookup s owner (AttributePath.ofText path).field).1 = some t) :
      Resolution s root path cache id
        (.ok ⟨⟨(AttributePath.ofText path).relations, (AttributePath.ofText path).field, id⟩, owner,
          (AttributePath.ofText path).field, t, js⟩)
  | astray {x : String} {more : List String}
      (at_ : (AttributePath.ofText path).relations =
        s.navigable root (AttributePath.ofText path).relations ++ x :: more) :
      Resolution s root path cache id (.error (.unresolved path x))
  | noField {owner : String}
      (entity : s.entityAlong? root (AttributePath.ofText path).relations = some owner)
      (unknown : s.fieldType? owner (AttributePath.ofText path).field = none ∨
        (cache.lookup s owner (AttributePath.ofText path).field).1 = none) :
      Resolution s root path cache id
        (.error (.unresolved path (AttributePath.ofText path).field))

/-- Behind the joins of a path it remains to take the field and to ask for its type. -/
theorem resolve_of_joins {path owner : String} {js : List Join} {id : Option Nat}
    {p₁ : Progress (List JoinRecord) Join}
    (hrun : ((Condition.backend s root).joinAlong path "" (Condition.backend s root).root
      (AttributePath.ofText path).relations).runFrom p = (.ok js, p₁))
    (hlast : js.getLast?.getD (Condition.backend s root).root =
      ⟨id, owner, (AttributePath.ofText path).relations⟩) :
    ((Condition.backend s root).resolve path).runFrom p =
      match s.fieldType? owner (AttributePath.ofText path).field,
        p₁.cache.lookup s owner (AttributePath.ofText path).field with
      | none, _ => (.error (.unresolved path (AttributePath.ofText path).field), p₁)
      | some _, (none, cache) =>
        (.error (.unresolved path (AttributePath.ofText path).field), { p₁ with cache })
      | some _, (some t, cache) =>
        (.ok ⟨⟨(AttributePath.ofText path).relations, (AttributePath.ofText path).field, id⟩, owner,
          (AttributePath.ofText path).field, t, js⟩, { p₁ with cache }) := by
  have hfield : (Condition.backend s root).field
      ⟨id, owner, (AttributePath.ofText path).relations⟩ (AttributePath.ofText path).field =
        (s.fieldType? owner (AttributePath.ofText path).field).map fun _ =>
          ⟨(AttributePath.ofText path).relations, (AttributePath.ofText path).field, id⟩ := rfl
  have hask := runFrom_fieldType? (J := Join) s owner (AttributePath.ofText path).field p₁
  unfold Backend.resolve
  dsimp only
  rw [runFrom_bind_ok hrun, hlast, hfield]
  cases s.fieldType? owner (AttributePath.ofText path).field with
  | none => rw [Option.map_none, runFrom_bind_error (runFrom_resolved_none path _ p₁)]
  | some _ =>
    rw [Option.map_some, runFrom_bind_ok (runFrom_resolved_some path _ _ p₁)]
    change (fieldType? s owner _ >>= _ : Compilation _ _ _).runFrom p₁ = _
    rw [runFrom_bind_ok hask]
    rcases p₁.cache.lookup s owner (AttributePath.ofText path).field with ⟨_ | t, cache⟩
    · rw [runFrom_bind_error (runFrom_resolved_none path _ _)]
    · rw [runFrom_bind_ok (runFrom_resolved_some path _ _ _)]
      rfl

/-- **Resolving a path** adds its beginnings, keeps the cache coherent and gives its resolution. -/
theorem resolve_spec (h : Tracks s root old uses p) {path : String}
    (hn : "" ∉ Text.pieces '.' path) :
    Tracks s root old (uses ++ pathUses s root path)
        (((Condition.backend s root).resolve path).runFrom p).2 ∧
      (p.cache.Coherent s →
        (((Condition.backend s root).resolve path).runFrom p).2.cache.Coherent s) ∧
      Resolution s root path p.cache
        (joinId old.length (uses ++ pathUses s root path) (AttributePath.ofText path).relations)
        (((Condition.backend s root).resolve path).runFrom p).1 := by
  obtain ⟨p₁, h₁, hc₁, hend⟩ := joinAlong_spec path (AttributePath.ofText path).relations h
    (Or.inl rfl) (named_relations hn) (rfl : s.entityAlong? root [] = some root)
  rcases hend with ⟨js, hrun, hall, hsome, hlast⟩ | ⟨x, more, hrun, hx⟩
  · obtain ⟨owner, ho⟩ := Option.isSome_iff_exists.mp hsome
    rw [List.nil_append] at ho hlast
    have hplace : js.getLast?.getD (Condition.backend s root).root =
        ⟨joinId old.length (uses ++ pathUses s root path) (AttributePath.ofText path).relations,
          owner, (AttributePath.ofText path).relations⟩ := by
      have huses : pathUses s root path = prefixesFrom [] (AttributePath.ofText path).relations := by
        unfold pathUses
        rw [hall]
      rw [← placeOf_nil s root old.length uses, hlast, ← huses]
      unfold placeOf
      rw [ho]
      rfl
    have hcoh : p.cache.Coherent s →
        (p₁.cache.lookup s owner (AttributePath.ofText path).field).2.Coherent s := fun hc =>
      FieldCache.lookup_coherent (hc₁ ▸ hc) owner _
    rw [resolve_of_joins hrun hplace]
    rw [hc₁] at hcoh ⊢
    cases hf : s.fieldType? owner (AttributePath.ofText path).field with
    | none => exact ⟨h₁, fun hc => hc₁ ▸ hc, .noField ho (Or.inl hf)⟩
    | some t₀ =>
      rcases hl : p.cache.lookup s owner (AttributePath.ofText path).field with ⟨_ | t, cache⟩
      · rw [hl] at hcoh
        exact ⟨h₁.with_cache cache, hcoh, .noField ho (Or.inr (by rw [hl]))⟩
      · rw [hl] at hcoh
        exact ⟨h₁.with_cache cache, hcoh, .found ho (by rw [hf]; rfl) (by rw [hl])⟩
  · have hrun' : ((Condition.backend s root).resolve path).runFrom p =
        (.error (.unresolved path x), p₁) := by
      unfold Backend.resolve
      exact runFrom_bind_error hrun
    rw [hrun']
    exact ⟨h₁, fun hc => hc₁ ▸ hc, .astray hx⟩

end Steps

end RecordFilter

import RecordFilter.Proofs.Alone
import RecordFilter.Proofs.Lexing

/-!
# Many paths in a row

`Schema.navigate` follows the segments of a path one by one from the root.  A resolver that has resolved
other paths before remembers their joins under trails, and takes such a join instead of following a
relationship.  As long as no two different beginnings that it is asked for have the same trail
(`TrailsApart`), every path is resolved as if it were the first, and as it is navigated
(`resolveAll_navigate`).

Trails differ but for empty relationships at the beginning, so this holds of every row of paths if the root
has no relationship with the empty name, and of every schema if no path begins with a point
(`trailsApart_of`).  Where it does not hold, a path can get the join of another one
(`resolveAll_wrong_join`).
-/

namespace RecordFilter

open Compilation

/-! ### Navigating -/

/-- A join without its number. -/
def Join.unnumbered (j : Join) : Join := { j with id := none }

/-- A resolved path without the numbers of its joins. -/
def ResolvedPath.unnumbered (r : ResolvedPath Join FieldRef) : ResolvedPath Join FieldRef :=
  { r with field := r.field.unjoined, joins := r.joins.map Join.unnumbered }

namespace Schema

/-- The places along relationships from a place on, or the first relationship that leads nowhere. -/
def walk (s : Schema) (path : String) : Join → List String → Except CompileError (List Join)
  | _, [] => .ok []
  | j, x :: rest =>
    match s.target? j.entity x with
    | none => .error (.unresolved path x)
    | some e => do
      let js ← s.walk path ⟨none, e, j.path ++ [x]⟩ rest
      return ⟨none, e, j.path ++ [x]⟩ :: js

/-- Follows the segments of a path one by one from the root, up to the field at its end. -/
def navigate (s : Schema) (root path : String) : Except CompileError (ResolvedPath Join FieldRef) := do
  let p := AttributePath.ofText path
  let js ← s.walk path ⟨none, root, []⟩ p.relations
  let j := js.getLast?.getD ⟨none, root, []⟩
  match s.fieldType? j.entity p.field with
  | none => .error (.unresolved path p.field)
  | some t => return ⟨⟨j.path, p.field, none⟩, j.entity, p.field, t, js⟩

end Schema

/-- The outcomes of paths that are resolved one after the other, and the progress then. -/
def Backend.resolveAll {σ P J F : Type} (b : Backend σ P J F) (p : Progress σ J) :
    List String → List (Except CompileError (ResolvedPath J F)) × Progress σ J
  | [] => ([], p)
  | path :: rest =>
    let (outcome, p) := (b.resolve path).runFrom p
    let (outcomes, p) := b.resolveAll p rest
    (outcome :: outcomes, p)

/-- The outcome of a path that is the first one of its resolver. -/
def Schema.resolveFirst (s : Schema) (root path : String) :
    Except CompileError (ResolvedPath Join FieldRef) :=
  (((Condition.backend s root).resolve path).runFrom ⟨[], [], .empty⟩).1

/-! ### What the resolver is asked for -/

/-- The resolver of these paths looks for the join behind these relationships: they begin one of the
paths, and all but the last of them can be followed. -/
structure Asked (s : Schema) (root : String) (paths : List String) (q : List String) : Prop where
  some : q ≠ []
  begins : ∃ path ∈ paths, q <+: (AttributePath.ofText path).relations
  reached : (s.entityAlong? root q.dropLast).isSome

/-- **Trails are apart.**  Of all relationships that are looked for none has the trail of others that lead
somewhere. -/
def TrailsApart (s : Schema) (root : String) (paths : List String) : Prop :=
  ∀ q r, Asked s root paths q → Asked s root paths r → (s.entityAlong? root q).isSome →
    trailOf q = trailOf r → q = r

theorem Asked.pointless {s : Schema} {root : String} {paths q : List String}
    (h : Asked s root paths q) : Pointless q := by
  obtain ⟨path, -, hq⟩ := h.begins
  intro x hx
  refine not_mem_of_mem_pieces (s := path) ?_
  rw [AttributePath.pieces_eq]
  exact List.mem_append_left _ (hq.subset hx)

/-- A path that does not begin with a point has no empty relationship at its beginning. -/
theorem head_relations {path x : String} {q : List String} (hp : path.toList.head? ≠ some '.')
    (h : x :: q <+: (AttributePath.ofText path).relations) : x ≠ "" := by
  have hpieces : x :: q <+: Text.pieces '.' path := by
    rw [AttributePath.pieces_eq]
    exact h.trans (List.prefix_append _ _)
  have hne : path.toList ≠ [] := by
    intro hnil
    unfold AttributePath.ofText Text.pieces at h
    rw [hnil] at h
    exact absurd (List.prefix_nil.mp h) (List.cons_ne_nil x q)
  obtain ⟨c, cs, hcs⟩ := List.exists_cons_of_ne_nil hne
  have hc : c ≠ '.' := by
    rintro rfl
    exact hp (by rw [hcs]; rfl)
  obtain ⟨p, ps, -, hsplit⟩ := splitAt_cons_of_ne hc cs
  unfold Text.pieces at hpieces
  rw [hcs, hsplit, List.map_cons, List.cons_prefix_cons] at hpieces
  rw [hpieces.1, Ne, String.ofList_eq_empty_iff]
  exact List.cons_ne_nil c p

theorem Schema.entityAlong?_empty {s : Schema} {root : String} (h : s.target? root "" = none)
    (q : List String) : s.entityAlong? root ("" :: q) = none := by
  rw [entityAlong?, h]
  rfl

/-- **Trails are apart** if nothing leads from the root by the empty name, and if no path begins with a
point. -/
theorem trailsApart_of {s : Schema} {root : String} {paths : List String}
    (h : s.target? root "" = none ∨ ∀ path ∈ paths, path.toList.head? ≠ some '.') :
    TrailsApart s root paths := by
  intro q r hq hr hsome htrail
  rw [trailOf_eq_iff hq.pointless hr.pointless] at htrail
  obtain ⟨path, hpath, hbegins⟩ := hq.begins
  obtain ⟨path', hpath', hbegins'⟩ := hr.begins
  obtain ⟨x, q, rfl⟩ := List.exists_cons_of_ne_nil hq.some
  obtain ⟨y, r, rfl⟩ := List.exists_cons_of_ne_nil hr.some
  have hx : x ≠ "" := by
    rintro rfl
    rcases h with h | h
    · rw [Schema.entityAlong?_empty h] at hsome
      cases hsome
    · exact head_relations (h path hpath) hbegins rfl
  rw [stripped_of_ne hx] at htrail
  by_cases hy : y = ""
  · subst hy
    rcases h with h | h
    · -- only one empty name is looked for, and its trail is empty
      cases r with
      | nil => cases htrail
      | cons z r =>
        have hreached := hr.reached
        rw [List.dropLast_cons_of_ne_nil (List.cons_ne_nil z r), Schema.entityAlong?_empty h] at hreached
        cases hreached
    · exact absurd rfl (head_relations (h path' hpath') hbegins')
  · rwa [stripped_of_ne hy] at htrail

/-! ### What the resolver remembers -/

/-- Every join that is remembered is one that was looked for, and stands behind its own relationships. -/
structure Remembers (s : Schema) (root : String) (paths : List String)
    (p : Progress (List JoinRecord) Join) : Prop where
  joins : ∀ trail j, p.joins.lookup trail = some j → Asked s root paths j.path ∧
    trailOf j.path = trail ∧ s.entityAlong? root j.path = some j.entity
  cache : p.cache.Coherent s

theorem Remembers.start (s : Schema) (root : String) (paths : List String) (old : List JoinRecord)
    {cache : FieldCache} (hc : cache.Coherent s) : Remembers s root paths ⟨old, [], cache⟩ :=
  ⟨nofun, hc⟩

section resolve

variable {s : Schema} {root : String} {paths : List String} {p : Progress (List JoinRecord) Join}
  {j : Join}

/-- One relationship further, from a place to the place behind it. -/
theorem Remembers.joinOnce (h : Remembers s root paths p) (hapart : TrailsApart s root paths)
    (hj : s.entityAlong? root j.path = some j.entity) {x : String}
    (hasked : Asked s root paths (j.path ++ [x])) (path : String) :
    ∃ p', Remembers s root paths p' ∧
      ((s.target? j.entity x = none ∧ ((Condition.backend s root).joinOnce path
          (trailOf (j.path ++ [x])) j x).runFrom p = (.error (.unresolved path x), p')) ∨
        ∃ id e, s.target? j.entity x = some e ∧ ((Condition.backend s root).joinOnce path
          (trailOf (j.path ++ [x])) j x).runFrom p = (.ok ⟨id, e, j.path ++ [x]⟩, p')) := by
  have hnext : s.entityAlong? root (j.path ++ [x]) = s.target? j.entity x := by
    rw [Schema.entityAlong?_concat, hj, Option.bind_some]
  cases hl : p.joins.lookup (trailOf (j.path ++ [x])) with
  | some k =>
    obtain ⟨hk, htrail, hentity⟩ := h.joins _ _ hl
    have hpath : k.path = j.path ++ [x] := hapart _ _ hk hasked (by rw [hentity]; rfl) htrail
    rw [hpath, hnext] at hentity
    refine ⟨p, h, Or.inr ⟨k.id, k.entity, hentity, ?_⟩⟩
    unfold Backend.joinOnce
    rw [runFrom_bind_ok (runFrom_joinAt? _ p), hl, ← hpath]
    rfl
  | none =>
    rw [runFrom_joinOnce hl]
    unfold Condition.makeJoin
    cases he : s.target? j.entity x with
    | none => exact ⟨_, ⟨h.joins, h.cache⟩, Or.inl ⟨rfl, rfl⟩⟩
    | some e =>
      refine ⟨_, ?_, Or.inr ⟨_, e, rfl, rfl⟩⟩
      refine ⟨fun trail k hk => ?_, h.cache⟩
      rw [List.lookup_cons] at hk
      split at hk
      · rename_i htrail
        cases hk
        exact ⟨hasked, (beq_iff_eq.mp htrail).symm, hnext.trans he⟩
      · exact h.joins trail k hk

/-- All relationships of a path: the joins along them, but for their numbers, are the places of a walk. -/
theorem Remembers.joinAlong (hapart : TrailsApart s root paths) {path : String} (hpath : path ∈ paths)
    (rest : List String) (h : Remembers s root paths p)
    (hj : s.entityAlong? root j.path = some j.entity)
    (hrest : j.path ++ rest = (AttributePath.ofText path).relations) :
    Remembers s root paths
        (((Condition.backend s root).joinAlong path (trailOf j.path) j rest).runFrom p).2 ∧
      (((Condition.backend s root).joinAlong path (trailOf j.path) j rest).runFrom p).1.map
        (List.map Join.unnumbered) = s.walk path j.unnumbered rest := by
  induction rest generalizing j p with
  | nil => exact ⟨h, rfl⟩
  | cons x rest ih =>
    have hasked : Asked s root paths (j.path ++ [x]) := by
      refine ⟨List.append_ne_nil_of_right_ne_nil _ (List.cons_ne_nil x []), ⟨path, hpath, rest, ?_⟩, ?_⟩
      · rw [← hrest, List.append_assoc, List.singleton_append]
      · rw [List.dropLast_concat, hj]
        rfl
    unfold Backend.joinAlong Schema.walk
    dsimp only
    rw [← trailOf_concat]
    obtain ⟨p', h', ⟨hnone, hrun⟩ | ⟨id, e, hsome, hrun⟩⟩ := h.joinOnce hapart hj hasked path
    · have hwalk : s.target? j.unnumbered.entity x = none := hnone
      rw [runFrom_bind_error hrun, hwalk]
      exact ⟨h', rfl⟩
    · have hnext : s.entityAlong? root (j.path ++ [x]) = some e := by
        rw [Schema.entityAlong?_concat, hj, Option.bind_some, hsome]
      obtain ⟨h'', hwalk⟩ := ih (j := ⟨id, e, j.path ++ [x]⟩) h' hnext
        (by rw [← hrest, List.append_assoc, List.singleton_append])
      have htarget : s.target? j.unnumbered.entity x = some e := hsome
      rw [runFrom_bind_ok hrun, htarget, runFrom_bind]
      dsimp only at h'' hwalk ⊢
      change _ ∧ _ = (s.walk path (Join.unnumbered ⟨id, e, j.path ++ [x]⟩) rest >>= _)
      rw [← hwalk]
      generalize ((Condition.backend s root).joinAlong path (trailOf (j.path ++ [x]))
        ⟨id, e, j.path ++ [x]⟩ rest).runFrom p' = run at h''
      obtain ⟨f | js, p''⟩ := run
      · exact ⟨h'', rfl⟩
      · exact ⟨h'', rfl⟩

/-- A walk ends behind all relationships. -/
theorem Schema.walk_last {path : String} {rest : List String} {js : List Join}
    (h : s.walk path j rest = .ok js) : (js.getLast?.getD j).path = j.path ++ rest := by
  induction rest generalizing j js with
  | nil =>
    cases h
    exact (List.append_nil _).symm
  | cons x rest ih =>
    unfold walk at h
    split at h
    · cases h
    · rename_i e _
      obtain ⟨ks, hks, hjs⟩ := bind_eq_ok.mp h
      cases hjs
      rw [List.getLast?_cons, Option.getD_some, ih hks, List.append_assoc, List.singleton_append]

theorem getLast?_unnumbered (j : Join) (js : List Join) :
    ((js.map Join.unnumbered).getLast?.getD j.unnumbered) = (js.getLast?.getD j).unnumbered := by
  rw [List.getLast?_map]
  cases js.getLast? <;> rfl

theorem Schema.navigate_of_walk {path : String} {js : List Join}
    (h : s.walk path ⟨none, root, []⟩ (AttributePath.ofText path).relations = .ok js) :
    s.navigate root path =
      match s.fieldType? (js.getLast?.getD ⟨none, root, []⟩).entity (AttributePath.ofText path).field with
      | none => .error (.unresolved path (AttributePath.ofText path).field)
      | some t => .ok ⟨⟨(AttributePath.ofText path).relations, (AttributePath.ofText path).field, none⟩,
          (js.getLast?.getD ⟨none, root, []⟩).entity, (AttributePath.ofText path).field, t, js⟩ := by
  have hlast := walk_last h
  unfold navigate
  dsimp only
  rw [h, ← List.nil_append (AttributePath.ofText path).relations, ← hlast]
  rfl

/-- Behind the joins of a path, a coherent cache gives the field its declared type. -/
theorem Remembers.field (h : Remembers s root paths p) {path owner : String} {js : List Join}
    {id : Option Nat} {st : Progress (List JoinRecord) Join}
    (hrun : ((Condition.backend s root).joinAlong path "" (Condition.backend s root).root
      (AttributePath.ofText path).relations).runFrom st = (.ok js, p))
    (hlast : js.getLast?.getD (Condition.backend s root).root =
      ⟨id, owner, (AttributePath.ofText path).relations⟩) :
    Remembers s root paths (((Condition.backend s root).resolve path).runFrom st).2 ∧
      (((Condition.backend s root).resolve path).runFrom st).1.map ResolvedPath.unnumbered =
        match s.fieldType? owner (AttributePath.ofText path).field with
        | none => .error (.unresolved path (AttributePath.ofText path).field)
        | some t => .ok ⟨⟨(AttributePath.ofText path).relations, (AttributePath.ofText path).field, none⟩,
            owner, (AttributePath.ofText path).field, t, js.map Join.unnumbered⟩ := by
  have hknown := FieldCache.lookup_fst h.cache owner (AttributePath.ofText path).field
  have hcoherent := FieldCache.lookup_coherent h.cache owner (AttributePath.ofText path).field
  rw [resolve_of_joins hrun hlast]
  cases hfield : s.fieldType? owner (AttributePath.ofText path).field with
  | none => exact ⟨h, rfl⟩
  | some t =>
    rw [hfield] at hknown
    rcases hl : p.cache.lookup s owner (AttributePath.ofText path).field with ⟨u, cache⟩
    rw [hl] at hknown hcoherent
    cases hknown
    exact ⟨⟨h.joins, hcoherent⟩, rfl⟩

/-- **A path is resolved as it is navigated**, whatever is remembered, and what is remembered stays so. -/
theorem Remembers.resolve (h : Remembers s root paths p) (hapart : TrailsApart s root paths)
    {path : String} (hpath : path ∈ paths) :
    Remembers s root paths (((Condition.backend s root).resolve path).runFrom p).2 ∧
      (((Condition.backend s root).resolve path).runFrom p).1.map ResolvedPath.unnumbered =
        s.navigate root path := by
  obtain ⟨h', hwalk⟩ := h.joinAlong hapart hpath (AttributePath.ofText path).relations
    (j := (Condition.backend s root).root) rfl rfl
  change _ = s.walk path ⟨none, root, []⟩ (AttributePath.ofText path).relations at hwalk
  rcases hrun : ((Condition.backend s root).joinAlong path (trailOf (Condition.backend s root).root.path)
    (Condition.backend s root).root (AttributePath.ofText path).relations).runFrom p with ⟨f | js, p₁⟩
  · have hresolve : ((Condition.backend s root).resolve path).runFrom p = (.error f, p₁) := by
      unfold Backend.resolve
      exact runFrom_bind_error hrun
    rw [hrun] at h' hwalk
    unfold Schema.navigate
    dsimp only
    rw [hresolve, ← hwalk]
    exact ⟨h', rfl⟩
  · rw [hrun] at h' hwalk
    have hend : (js.map Join.unnumbered).getLast?.getD ⟨none, root, []⟩ =
        (js.getLast?.getD (Condition.backend s root).root).unnumbered :=
      getLast?_unnumbered (Condition.backend s root).root js
    have hnavigate := Schema.navigate_of_walk hwalk.symm
    have hlast := Schema.walk_last hwalk.symm
    rw [hend] at hnavigate hlast
    rw [hnavigate]
    have hplace : js.getLast?.getD (Condition.backend s root).root =
        ⟨(js.getLast?.getD (Condition.backend s root).root).id,
          (js.getLast?.getD (Condition.backend s root).root).entity,
          (AttributePath.ofText path).relations⟩ := by
      rw [← List.nil_append (AttributePath.ofText path).relations, ← hlast]
      rfl
    exact h'.field hrun hplace

/-! ### Many paths -/

/-- A row of paths, some of the paths that the trails are apart for. -/
theorem Remembers.resolveAll (hapart : TrailsApart s root paths) (h : Remembers s root paths p)
    {row : List String} (hrow : ∀ path ∈ row, path ∈ paths) :
    Remembers s root paths ((Condition.backend s root).resolveAll p row).2 ∧
      ((Condition.backend s root).resolveAll p row).1.map (Except.map ResolvedPath.unnumbered) =
        row.map (s.navigate root) := by
  induction row generalizing p with
  | nil => exact ⟨h, rfl⟩
  | cons path row ih =>
    obtain ⟨hpath, hrow⟩ := List.forall_mem_cons.mp hrow
    obtain ⟨h', hhead⟩ := h.resolve hapart hpath
    obtain ⟨h'', htail⟩ := ih h' hrow
    exact ⟨h'', congrArg₂ List.cons hhead htail⟩

theorem resolveFirst_navigate (hapart : TrailsApart s root paths) {path : String} (hpath : path ∈ paths) :
    (s.resolveFirst root path).map ResolvedPath.unnumbered = s.navigate root path :=
  ((Remembers.start s root paths [] (FieldCache.empty_coherent s)).resolve hapart hpath).2

end resolve

/-- **Resolving does not depend on what was resolved before** as long as trails are apart: then every path
of a row has the outcome that it has as the first one, which is what navigating gives, and a join that is
remembered for relationships is the one behind them.  Trails are apart if nothing leads from the root by
the empty name, and if no path begins with a point; and two trails are the same text just if the
relationships are the same but for empty ones at the beginning. -/
theorem resolveAll_navigate {s : Schema} {root : String} {cache : FieldCache} (hc : cache.Coherent s)
    (old : List JoinRecord) (paths : List String) :
    (TrailsApart s root paths →
      ((Condition.backend s root).resolveAll ⟨old, [], cache⟩ paths).1.map
          (Except.map ResolvedPath.unnumbered) =
        paths.map (fun path => (s.resolveFirst root path).map ResolvedPath.unnumbered) ∧
      (∀ path ∈ paths, (s.resolveFirst root path).map ResolvedPath.unnumbered = s.navigate root path) ∧
      ∀ q j, Asked s root paths q → ((Condition.backend s root).resolveAll ⟨old, [], cache⟩
        paths).2.joins.lookup (trailOf q) = some j → j.path = q) ∧
      ((s.target? root "" = none ∨ ∀ path ∈ paths, path.toList.head? ≠ some '.') →
        TrailsApart s root paths) ∧
      ∀ q r, Pointless q → Pointless r → (trailOf q = trailOf r ↔ stripped q = stripped r) := by
  refine ⟨fun hapart => ?_, trailsApart_of, fun q r => trailOf_eq_iff⟩
  have hall : ∀ path ∈ paths, path ∈ paths := fun _ h => h
  obtain ⟨hend, hrow⟩ := (Remembers.start s root paths old hc).resolveAll hapart hall
  refine ⟨?_, fun path => resolveFirst_navigate hapart, fun q j hq hj => ?_⟩
  · rw [hrow]
    exact List.map_congr_left fun path hpath => (resolveFirst_navigate hapart hpath).symm
  · obtain ⟨hasked, htrail, hentity⟩ := hend.joins _ _ hj
    exact hapart _ _ hasked hq (by rw [hentity]; rfl) htrail

/-- Paths of the library that share joins, one with an empty segment in it and one that begins with one. -/
theorem resolveAll_navigate_library :
    let paths := ["books.pages", "books.author.name", "books..pages", ".name"]
    library.target? "Author" "" = none ∧
      ((Condition.backend library "Author").resolveAll ⟨[], [], .empty⟩ paths).1.map
          (Except.map ResolvedPath.unnumbered) = paths.map (library.navigate "Author") := by
  intro paths
  have hnone : library.target? "Author" "" = none := by decide +kernel
  obtain ⟨hall, hapart, -⟩ :=
    @resolveAll_navigate library "Author" _ (FieldCache.empty_coherent library) [] paths
  obtain ⟨hrow, hfirst, -⟩ := hall (hapart (Or.inl hnone))
  exact ⟨hnone, hrow.trans (List.map_congr_left hfirst)⟩

/-- A schema in which two ways from the root have the same trail. -/
def crossing : Schema :=
  ⟨⟨0⟩, [⟨"P", none, [⟨"", .entity "Q"⟩, ⟨"b", .entity "R"⟩]⟩, ⟨"Q", none, [⟨"b", .entity "S"⟩]⟩,
    ⟨"R", none, [⟨"x", .integer .w32⟩]⟩, ⟨"S", none, [⟨"x", .text⟩]⟩], []⟩

/-- Behind `b.x` the path `.b.x` gets the join and the field of that path; as the first one it gets its
own. -/
theorem resolveAll_wrong_join :
    let typesOf := List.map (Except.map (ε := CompileError) (ResolvedPath.type (J := Join) (F := FieldRef)))
    typesOf ((Condition.backend crossing "P").resolveAll ⟨[], [], .empty⟩ ["b.x", ".b.x"]).1 =
        [.ok (.integer .w32), .ok (.integer .w32)] ∧
      typesOf (["b.x", ".b.x"].map (crossing.resolveFirst "P")) = [.ok (.integer .w32), .ok .text] ∧
      typesOf (["b.x", ".b.x"].map (crossing.navigate "P")) = [.ok (.integer .w32), .ok .text] := by
  refine ⟨?_, ?_, ?_⟩ <;> decide +kernel

end RecordFilter

import RecordFilter.Proofs.JoinCalls

/-!
# Conditions stand for all predicates

Compilation never looks into a predicate.  So what it makes with any backend can be had from the condition
that it makes for the same group: an interpretation has one operation for every kind of condition, and
`Condition.interpret` puts these operations in the place of the conditions.

A backend navigates like that of conditions if its joins and fields are images of those
(`Backend.Navigates`).  It fails where conditions fail, and otherwise gives the interpretation of the
condition; and the joins that it is asked for are the images of those that conditions are asked for, of
which there is one for each trail, in the order of first use (`reduce_interpret`).
-/

namespace RecordFilter

open Compilation

/-! ### Interpretations -/

/-- One operation for every kind of condition. -/
structure Interpretation (F P : Type) where
  compare : F → Comparison → Value → P
  test : F → Test → P
  like : F → String → Bool → P
  member : F → List Value → P
  between : F → Value → Value → P
  not : P → P
  combine : Connective → P → P → P

variable {σ P J F : Type}

/-- The operations in the place of the conditions, on the images of their fields. -/
def Condition.interpret (I : Interpretation F P) (image : FieldRef → F) : Condition → P
  | compare f op v => I.compare (image f) op v
  | test f t => I.test (image f) t
  | like f pattern negated => I.like (image f) pattern negated
  | member f vs => I.member (image f) vs
  | between f low high => I.between (image f) low high
  | not c => I.not (c.interpret I image)
  | and l r => I.combine .and (l.interpret I image) (r.interpret I image)
  | or l r => I.combine .or (l.interpret I image) (r.interpret I image)

theorem Condition.interpret_combine (I : Interpretation F P) (image : FieldRef → F) (op : Connective)
    (l r : Condition) :
    (Condition.combine op l r).interpret I image =
      I.combine op (l.interpret I image) (r.interpret I image) := by
  cases op <;> rfl

/-! ### Backends that navigate alike -/

/-- **The backend navigates like that of conditions**, as long as its state is related to the joins made
there, and builds predicates by the operations of an interpretation. -/
structure Backend.Navigates (b : Backend σ P J F) (s : Schema) (root : String)
    (S : List JoinRecord → σ → Prop) (place : Join → J) (image : FieldRef → F)
    (I : Interpretation F P) : Prop where
  schema : b.schema = s
  root : b.root = place (Condition.backend s root).root
  entityOf : ∀ j, b.entityOf (place j) = j.entity
  join : ∀ j segment joins state, S joins state →
    (b.join (place j) segment state).1 = (Condition.makeJoin s j segment joins).1.map place ∧
      S (Condition.makeJoin s j segment joins).2 (b.join (place j) segment state).2
  field : ∀ j name, b.field (place j) name = (Condition.takeField s j name).map image
  compare : ∀ f op v, b.compare f op v = pure (I.compare f op v)
  test : ∀ f t, b.test f t = pure (I.test f t)
  like : ∀ f pattern negated, b.like f pattern negated = pure (I.like f pattern negated)
  member : ∀ f vs, b.member f vs = pure (I.member f vs)
  between : ∀ f low high, b.between f low high = pure (I.between f low high)
  not : ∀ p, b.not p = pure (I.not p)
  combine : ∀ op l r, b.combine op l r = pure (I.combine op l r)

theorem rel_map {α β : Type} (f : α → β) (a : Option α) :
    Option.Rel (fun a b => b = f a) a (a.map f) := by
  cases a with
  | none => exact .none
  | some a => exact .some rfl

theorem stepRel_pure {α α' σ' : Type} {S : σ → σ' → Prop} {R : α → α' → Prop} {a : α} {a' : α'}
    (h : R a a') : StepRel S R (pure a) (pure a') :=
  fun _ _ hs => ⟨h, hs⟩

variable {b : Backend σ P J F} {s : Schema} {root : String} {S : List JoinRecord → σ → Prop}
  {place : Join → J} {image : FieldRef → F} {I : Interpretation F P}

/-- **Its operations are images of those on conditions.** -/
theorem Backend.Navigates.simulation (hb : b.Navigates s root S place image I) :
    Simulation S (fun j j' => j' = place j) (fun f f' => f' = image f)
      (fun cond p => p = cond.interpret I image) (Condition.backend s root) b where
  schema := hb.schema.symm
  root := hb.root
  entityOf := by
    rintro j _ rfl
    exact (hb.entityOf j).symm
  join := by
    rintro j _ rfl segment joins state hs
    obtain ⟨hmade, hs'⟩ := hb.join j segment joins state hs
    rw [hmade]
    exact ⟨rel_map place _, hs'⟩
  field := by
    rintro j _ rfl name
    rw [hb.field]
    exact rel_map image _
  compare := by
    rintro f _ rfl op v
    rw [hb.compare]
    exact stepRel_pure rfl
  test := by
    rintro f _ rfl t
    rw [hb.test]
    exact stepRel_pure rfl
  like := by
    rintro f _ rfl pattern negated
    rw [hb.like]
    exact stepRel_pure rfl
  member := by
    rintro f _ rfl vs
    rw [hb.member]
    exact stepRel_pure rfl
  between := by
    rintro f _ rfl low high
    rw [hb.between]
    exact stepRel_pure rfl
  not := by
    rintro cond _ rfl
    rw [hb.not]
    exact stepRel_pure rfl
  combine := by
    rintro l _ r _ rfl rfl op
    rw [hb.combine, ← Condition.interpret_combine]
    exact stepRel_pure rfl

/-! ### What has been asked for -/

/-- The trail of the relationships behind which the join stands. -/
def Join.trail (j : Join) : String := trailOf j.path

/-- A join of conditions keeps the relationships that lead to it. -/
theorem traced_trail (s : Schema) (root : String) : (Condition.backend s root).Traced Join.trail where
  root := rfl
  join := by
    intro j k segment joins joins' h
    change Condition.makeJoin s j segment joins = _ at h
    unfold Condition.makeJoin at h
    split at h
    · cases h
    · cases h
      exact trailOf_concat j.path segment

theorem eq_map_of_forall₂ {calls : List (Join × String)} {calls' : List (J × String)}
    (h : List.Forall₂ (fun call call' => call'.1 = place call.1 ∧ call.2 = call'.2) calls calls') :
    calls' = calls.map fun call => (place call.1, call.2) := by
  induction h with
  | nil => rfl
  | cons hcall _ ih =>
    obtain ⟨hplace, hsegment⟩ := hcall
    rw [List.map_cons, ih, ← hplace, hsegment]

theorem eraseDups_prefix {l m : List String} (h : l <+: m) : l.eraseDups <+: m.eraseDups := by
  obtain ⟨r, rfl⟩ := h
  rw [List.eraseDups_append]
  exact List.prefix_append _ _

/-- **What any backend makes of a group** that navigates like that of conditions: it fails with the fault
with which conditions fail, and otherwise gives the interpretation of the condition.  In doing so it is
asked for at most one join for each trail, in the order of first use; if it succeeds, for all of them. -/
theorem reduce_interpret (hb : b.Navigates s root S place image I) (c : Compiler)
    {joins : List JoinRecord} {state : σ} (hs : S joins state) (cache : FieldCache) (g : Group) :
    (c.reduce b state cache g).result =
        (c.reduce (Condition.backend s root) joins cache g).result.map (Condition.interpret I image) ∧
      (c.reduce b state cache g).cache = (c.reduce (Condition.backend s root) joins cache g).cache ∧
      (c.reduce b.logged (state, []) cache g).result = (c.reduce b state cache g).result ∧
      ∃ calls : List (Join × String),
        (c.reduce b.logged (state, []) cache g).backend =
          ((c.reduce b state cache g).backend, calls.map fun call => (place call.1, call.2)) ∧
        (calls.map (callTrail Join.trail)).Nodup ∧
        calls.map (callTrail Join.trail) <+: (c.trails g).eraseDups ∧
        ∀ m, (c.reduce b state cache g).result = .ok m →
          calls.map (callTrail Join.trail) = (c.trails g).eraseDups := by
  obtain ⟨hresult, -, hcache⟩ := hb.simulation.reduce c hs cache g
  obtain ⟨hlogged, hstate⟩ := c.reduce_logged b state cache g
  have hstart : LoggedRel S (fun j j' => j' = place j) (joins, []) (state, []) := ⟨hs, .nil⟩
  -- The trail of a call cannot be told from the image of its join, so it is that of the call on the
  -- side of conditions.
  obtain ⟨-, ⟨-, hcalls⟩, -⟩ := hb.simulation.logged.reduce c hstart cache g
  obtain ⟨used, hused, htrails, hall⟩ := c.calls_of_reduce (traced_trail s root) joins cache g
  have hprefix := eraseDups_prefix hused
  refine ⟨hresult.eq_map, hcache.symm, hlogged,
    (c.reduce (Condition.backend s root).logged (joins, []) cache g).backend.2, ?_, ?_, ?_,
    fun m hm => ?_⟩
  · exact Prod.ext hstate (eq_map_of_forall₂ hcalls)
  · rw [htrails]
    exact nodup_eraseDups used
  · rw [htrails]
    exact hprefix
  · rw [hresult.eq_map] at hm
    obtain ⟨cond, hcond, -⟩ := map_eq_ok.mp hm
    have hreduced := (c.reduce_logged (Condition.backend s root) joins cache g).1
    rw [htrails, hall cond (hreduced.trans hcond)]

/-! ### A backend with numbered tables -/

/-- Predicates as texts. -/
def textual : Interpretation String String where
  compare f op v := f ++ " " ++ op.symbol ++ " " ++ v.render
  test f t := f ++ " " ++ t.capitals
  like f pattern negated := f ++ (if negated then " NOT LIKE " else " LIKE ") ++ pattern
  member f vs := f ++ " IN (" ++ ", ".intercalate (vs.map Value.render) ++ ")"
  between f low high := f ++ " BETWEEN " ++ low.render ++ " AND " ++ high.render
  not p := "NOT (" ++ p ++ ")"
  combine op l r := "(" ++ l ++ " " ++ op.symbol ++ " " ++ r ++ ")"

/-- The number of the table to which a join leads; that of the root is zero. -/
def tableOf : Option Nat → Nat
  | none => 0
  | some id => id + 1

/-- The field of a table. -/
def column (table : Nat) (name : String) : String := "t" ++ toString table ++ "." ++ name

/-- Every join is a table with the next number, and the state is the number of the last. -/
def tables (s : Schema) (root : String) : Backend Nat String (Nat × String) String where
  schema := s
  root := (0, root)
  entityOf := Prod.snd
  join j segment := fun last =>
    match s.target? j.2 segment with
    | none => (none, last)
    | some entity => (some (last + 1, entity), last + 1)
  field j name := (s.fieldType? j.2 name).map fun _ => column j.1 name
  compare f op v := pure (textual.compare f op v)
  test f t := pure (textual.test f t)
  like f pattern negated := pure (textual.like f pattern negated)
  member f vs := pure (textual.member f vs)
  between f low high := pure (textual.between f low high)
  not p := pure (textual.not p)
  combine op l r := pure (textual.combine op l r)

theorem navigates_tables (s : Schema) (root : String) :
    (tables s root).Navigates s root (fun joins last => joins.length = last)
      (fun j => (tableOf j.id, j.entity)) (fun f => column (tableOf f.join) f.name) textual where
  schema := rfl
  root := rfl
  entityOf _ := rfl
  join := by
    rintro j segment joins _ rfl
    unfold tables Condition.makeJoin
    dsimp only
    cases s.target? j.entity segment with
    | none => exact ⟨rfl, rfl⟩
    | some entity => exact ⟨rfl, List.length_append⟩
  field j name := by
    unfold tables Condition.takeField
    dsimp only
    cases s.fieldType? j.entity name <;> rfl
  compare _ _ _ := rfl
  test _ _ := rfl
  like _ _ _ := rfl
  member _ _ := rfl
  between _ _ _ := rfl
  not _ := rfl
  combine _ _ _ := rfl

/-- The table of the books is joined once for all three predicates, that of their authors behind it. -/
theorem reduce_interpret_tables :
    let pages : Predicate := ⟨"books.pages", .member true, [.number "100"], ⟨1, 1⟩⟩
    let name : Predicate := ⟨"books.author.name", .like .atStart false, [.string "a"], ⟨1, 1⟩⟩
    let g := Group.join (.join (.one (.predicate pages)) .and (.predicate name)) .or (.predicate pages)
    (Compiler.standard.reduce (tables library "Author") 0 .empty g).result =
        .ok "((NOT (t1.pages IN (100)) && t2.name LIKE A%) || NOT (t1.pages IN (100)))" ∧
      ∃ calls : List (Join × String),
        (Compiler.standard.reduce (tables library "Author").logged (0, []) .empty g).backend =
          ((Compiler.standard.reduce (tables library "Author") 0 .empty g).backend,
            calls.map fun call => ((tableOf call.1.id, call.1.entity), call.2)) ∧
        calls.map (callTrail Join.trail) = ["books", "books.author"] := by
  intro pages name g
  have hstart : ([] : List JoinRecord).length = 0 := rfl
  obtain ⟨hresult, -, -, calls, hlogged, -, -, hall⟩ :=
    reduce_interpret (navigates_tables library "Author") .standard hstart .empty g
  have hcond : (Compiler.standard.reduce (Condition.backend library "Author") [] .empty g).result =
      .ok (.or (.and (.not (.member ⟨["books"], "pages", some 0⟩ [.integer .w32 100]))
        (.like ⟨["books", "author"], "name", some 1⟩ "A%" false))
          (.not (.member ⟨["books"], "pages", some 0⟩ [.integer .w32 100]))) := by
    decide +kernel
  have htext : (Compiler.standard.reduce (tables library "Author") 0 .empty g).result =
      .ok "((NOT (t1.pages IN (100)) && t2.name LIKE A%) || NOT (t1.pages IN (100)))" := by
    rw [hresult, hcond]
    decide +kernel
  refine ⟨htext, calls, hlogged, ?_⟩
  rw [hall _ htext]
  decide +kernel

end RecordFilter

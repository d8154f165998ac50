import RecordFilter.Proofs.Alone
import RecordFilter.Proofs.Meaning
import RecordFilter.Proofs.Printing

/-!
# Filters of one predicate

A text that is a single predicate compiles to the condition of the predicate on the field at the end of
its path, if there is one (`Writes.exists_field`); for a comparison and for a range this is what the
evaluator then decides of the values that the path reaches (`Writes.compare`, `Writes.between`).
-/

namespace RecordFilter

/-- The text is one predicate, with this path, operator and literals. -/
def Writes (text path : String) (op : Operator) (xs : List Operand) : Prop :=
  ∃ position, parse text = .ok (.one (.predicate ⟨path, op, xs, position⟩))

/-- Every predicate that can be written is written so. -/
theorem writes_render {p : Predicate} (hp : p.WellFormed) :
    Writes p.render p.path p.operator p.operands := by
  have hg : (Group.one (.predicate p)).WellFormed := fun q hq => List.mem_singleton.mp hq ▸ hp
  obtain ⟨g, hparse, hg⟩ := hg.parse
  -- what is read differs from what was written in the position only
  cases g with
  | join => cases hg
  | one clause =>
    cases clause with
    | group => cases hg
    | predicate q =>
      obtain ⟨path, op, xs, position⟩ := q
      obtain ⟨path', op', xs', position'⟩ := p
      cases hg
      exact ⟨position, hparse⟩

/-! ### The field -/

section field

variable {c : Compiler} {s : Schema} {root path : String} {t : FieldType} {cache : FieldCache}

/-- In the schema a path is resolved to the field to which it leads. -/
theorem Schema.resolve_of_typeAlong? (htype : s.typeAlong? root (Text.pieces '.' path) = some t) :
    ∃ r, s.resolve root path = .ok r ∧ r.type = t ∧
      r.field.path ++ [r.field.name] = Text.pieces '.' path := by
  rw [AttributePath.pieces_eq, Schema.typeAlong?_concat] at htype
  obtain ⟨owner, howner, hfield⟩ := Option.bind_eq_some_iff.mp htype
  refine ⟨⟨⟨(AttributePath.ofText path).relations, (AttributePath.ofText path).field, none⟩, owner,
    (AttributePath.ofText path).field, t, []⟩, ?_, rfl, (AttributePath.pieces_eq path).symm⟩
  unfold Schema.resolve
  dsimp only
  rw [howner]
  dsimp only
  rw [hfield]

/-- A path that leads to a field of the type is resolved to it. -/
theorem Resolution.of_typeAlong? {id : Option Nat}
    {res : Except CompileError (ResolvedPath Join FieldRef)}
    (h : Resolution s root path cache id res) (hc : cache.Coherent s)
    (htype : s.typeAlong? root (Text.pieces '.' path) = some t) :
    ∃ r, res = .ok r ∧ r.type = t ∧ r.field.path ++ [r.field.name] = Text.pieces '.' path := by
  obtain ⟨r', hresolve, rfl, hpieces⟩ := Schema.resolve_of_typeAlong? htype
  obtain ⟨r, hr, rfl⟩ := map_eq_ok.mp ((h.eq_resolve hc).trans hresolve)
  exact ⟨r, hr, rfl, hpieces⟩

variable {text : String} {op : Operator} {xs : List Operand}

/-- **A single predicate has the condition of the field at the end of its path.** -/
theorem Writes.exists_field (h : Writes text path op xs) (hc : cache.Coherent s)
    (hn : "" ∉ Text.pieces '.' (c.mapPath path))
    (htype : s.typeAlong? root (Text.pieces '.' (c.mapPath path)) = some t) (old : List JoinRecord) :
    ∃ (r : ResolvedPath Join FieldRef) (position : Position), r.type = t ∧
      r.field.path ++ [r.field.name] = Text.pieces '.' (c.mapPath path) ∧
        (c.compile (Condition.backend s root) old cache text).result =
          c.conditionFor s r ⟨path, op, xs, position⟩ := by
  obtain ⟨position, hparse⟩ := h
  obtain ⟨-, -, hres⟩ := resolve_spec (Tracks.start s root old cache) hn
  obtain ⟨r, hr, hrt, hfield⟩ := hres.of_typeAlong? hc htype
  refine ⟨r, position, hrt, hfield, ?_⟩
  rw [Compiler.compile_of_parse hparse rfl, Compiler.reduce_eq, Compiler.reduceGroup,
    Compiler.reduceClause, Compiler.runFrom_reducePredicate]
  rcases hrun : ((Condition.backend s root).resolve (c.mapPath path)).runFrom ⟨old, [], cache⟩ with
    ⟨res, st⟩
  rw [hrun] at hr
  cases hr
  rfl

/-! ### Comparisons and ranges -/

theorem FieldRef.reach_of_pieces {f : FieldRef} (h : f.path ++ [f.name] = Text.pieces '.' path)
    (record : Json) : f.reach record = valuesAt (Text.pieces '.' path) record := by
  rw [reach_eq_valuesAt, h]

/-- **A comparison** with a literal that has a value compiles, and passes for the records in which a
value that the path reaches orders so against it. -/
theorem Writes.compare {comparison : Comparison} {x : Operand} {v : Value}
    (h : Writes text path (.compare comparison) [x]) (hc : cache.Coherent s)
    (hn : "" ∉ Text.pieces '.' (c.mapPath path))
    (htype : s.typeAlong? root (Text.pieces '.' (c.mapPath path)) = some t)
    (hread : c.registry.read s t x.text = .ok v) (old : List JoinRecord) :
    ∃ cond, (c.compile (Condition.backend s root) old cache text).result = .ok cond ∧
      ∀ (record : Json) (e : Evaluator), e.Faithful →
        ((Evaluator.holds record cond).run e).1 =
          (valuesAt (Text.pieces '.' (c.mapPath path)) record).any (ordersAs comparison v) := by
  obtain ⟨r, position, rfl, hfield, hresult⟩ := h.exists_field hc hn htype old
  refine ⟨.compare r.field comparison v, ?_, fun record e he => ?_⟩
  · rw [hresult, Compiler.conditionFor]
    dsimp only
    rw [List.getLast?_singleton]
    dsimp only
    rw [Registry.convertTo_eq_ok.mpr hread]
    rfl
  · rw [(Evaluator.holds_spec record _ he).1, Condition.holds, FieldRef.reach_of_pieces hfield,
      Comparison.passes_eq]

/-- **A range** with bounds that have values compiles, and passes for the records in which a value that the
path reaches orders so against both. -/
theorem Writes.between {low high : Operand} {v w : Value}
    (h : Writes text path .between [low, high]) (hc : cache.Coherent s)
    (hn : "" ∉ Text.pieces '.' (c.mapPath path))
    (htype : s.typeAlong? root (Text.pieces '.' (c.mapPath path)) = some t)
    (hlow : c.registry.read s t low.text = .ok v) (hhigh : c.registry.read s t high.text = .ok w)
    (old : List JoinRecord) :
    ∃ cond, (c.compile (Condition.backend s root) old cache text).result = .ok cond ∧
      ∀ (record : Json) (e : Evaluator), e.Faithful →
        ((Evaluator.holds record cond).run e).1 =
          (valuesAt (Text.pieces '.' (c.mapPath path)) record).any fun j =>
            ordersAs .greaterOrEqual v j && ordersAs .lessOrEqual w j := by
  obtain ⟨r, position, rfl, hfield, hresult⟩ := h.exists_field hc hn htype old
  refine ⟨.between r.field v w, ?_, fun record e he => ?_⟩
  · rw [hresult, Compiler.conditionFor]
    have hbounds : Predicate.bounds? ⟨path, .between, [low, high], position⟩ = some (low, high) := rfl
    dsimp only
    rw [hbounds]
    dsimp only
    rw [Registry.convertTo_eq_ok.mpr hlow, Registry.convertTo_eq_ok.mpr hhigh]
    rfl
  · rw [(Evaluator.holds_spec record _ he).1, Condition.holds, FieldRef.reach_of_pieces hfield,
      betweenPasses_eq]

end field

end RecordFilter

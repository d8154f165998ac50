import RecordFilter.Proofs.Alone

/-!
# Paths that are changed before they are resolved

A compiler may change paths before it resolves them.  This is the same as compiling, with paths as they are
written, the group in which all paths have been changed (`Group.mapPaths`): for every backend, from every
state and every cache, whether the compilation succeeds or fails (`reduce_mapPaths`).  So each path is
changed once, as a whole, and the changed path is the one that an error names; no other text of the group is
changed.
-/

namespace RecordFilter

/-- The predicate with its path changed. -/
def Predicate.mapPath (f : String → String) (p : Predicate) : Predicate := { p with path := f p.path }

/-- The group with all paths changed, at any depth. -/
def Group.mapPaths (f : String → String) (g : Group) : Group := g.mapPredicates (Predicate.mapPath f)

theorem Group.predicates_mapPaths (f : String → String) (g : Group) :
    (g.mapPaths f).predicates = g.predicates.map (Predicate.mapPath f) :=
  predicates_mapPredicates _ g

theorem Group.mapPaths_mapPaths (f h : String → String) (g : Group) :
    (g.mapPaths f).mapPaths h = g.mapPaths (h ∘ f) :=
  mapPredicates_mapPredicates _ _ g

namespace Compiler

/-- The compiler that takes paths as they are written. -/
def unmapped (c : Compiler) : Compiler := { c with mapPath := id }

variable {σ P J F : Type} (c : Compiler) (b : Backend σ P J F)

/-- **A predicate:** its path is read once, and everything else of it is the same. -/
theorem reducePredicate_mapPath (p : Predicate) :
    c.unmapped.reducePredicate b (p.mapPath c.mapPath) = c.reducePredicate b p := rfl

/-- **A group**, as one step of a compilation. -/
theorem reduceGroup_mapPaths (g : Group) :
    c.unmapped.reduceGroup b (g.mapPaths c.mapPath) = c.reduceGroup b g :=
  reduceGroup_congr fun p _ => reducePredicate_mapPath c b p

/-- The changed paths are all that is asked for: another way of changing paths that changes these alike
makes no difference. -/
theorem reduceGroup_of_mapPath_eq {f : String → String} {g : Group}
    (h : ∀ p ∈ g.predicates, f p.path = c.mapPath p.path) :
    reduceGroup { c with mapPath := f } b g = c.reduceGroup b g := by
  rw [← reduceGroup_mapPaths c b g]
  refine (reduceGroup_congr fun p hp => ?_).symm
  have hpath : p.mapPath c.mapPath = p.mapPath f := by
    rw [Predicate.mapPath, Predicate.mapPath, h p hp]
  rw [hpath]
  exact reducePredicate_mapPath { c with mapPath := f } b p

end Compiler

/-- **Changing paths is compiling another group.**  A compiler that changes paths does on a group what it
does, with paths as they are written, on the group in which each path has been changed: the result, be it a
predicate or an error, the state of the backend and what is remembered of field types are the same; and so it
is for a text that is read as the group.  Only what it makes of the paths of the group matters.  The changed
group has the same predicates in the same places but for their paths, of which each is changed once. -/
theorem reduce_mapPaths {σ P J F : Type} (c : Compiler) (b : Backend σ P J F) (state : σ)
    (cache : FieldCache) :
    (∀ g, c.reduce b state cache g = c.unmapped.reduce b state cache (g.mapPaths c.mapPath)) ∧
      (∀ text, c.compile b state cache text =
        match parse text with
        | .ok g => c.unmapped.reduce b state cache (g.mapPaths c.mapPath)
        | .error e => ⟨.error (.malformed e), state, cache⟩) ∧
      (∀ g f, (∀ p ∈ g.predicates, f p.path = c.mapPath p.path) →
        Compiler.reduce { c with mapPath := f } b state cache g = c.reduce b state cache g) ∧
      ∀ g : Group, (g.mapPaths c.mapPath).predicates = g.predicates.map (Predicate.mapPath c.mapPath) ∧
        (g.mapPaths c.mapPath).mapPaths (fun _ => "") = g.mapPaths fun _ => "" := by
  have hreduce : ∀ g, c.reduce b state cache g = c.unmapped.reduce b state cache (g.mapPaths c.mapPath) := by
    intro g
    rw [Compiler.reduce_eq, Compiler.reduce_eq, Compiler.reduceGroup_mapPaths]
  refine ⟨hreduce, fun text => ?_, fun g f h => ?_, fun g => ?_⟩
  · unfold Compiler.compile
    cases parse text with
    | ok g => exact hreduce g
    | error e => rfl
  · rw [Compiler.reduce_eq, Compiler.reduce_eq, Compiler.reduceGroup_of_mapPath_eq c b h]
  · exact ⟨g.predicates_mapPaths c.mapPath, g.mapPaths_mapPaths c.mapPath _⟩

/-- The short name stands for a path, in brackets as outside.  That the path itself would be changed to
another one plays no part, since no path of the group is that path. -/
theorem reduce_mapPaths_library :
    let short := fun path => if path = "size" then "books.pages" else path
    let twice := fun path => if path = "size" then "books.pages" else
      if path = "books.pages" then "name" else path
    let size := fun op n => Clause.predicate ⟨"size", .compare op, [.number n], ⟨1, 1⟩⟩
    let pages := fun op n => Clause.predicate ⟨"books.pages", .compare op, [.number n], ⟨1, 1⟩⟩
    let g := Group.join (.one (.group (.one (size .greater "9")))) .and (size .less "99")
    let field : FieldRef := ⟨["books"], "pages", some 0⟩
    let outcome := fun mapPath =>
      (Compiler.reduce ⟨.builtIn, mapPath⟩ (Condition.backend library "Author") [] .empty g).result
    g.mapPaths short = .join (.one (.group (.one (pages .greater "9")))) .and (pages .less "99") ∧
      (∀ p ∈ g.predicates, twice p.path = short p.path) ∧
      outcome short = .ok (.and (.compare field .greater (.integer .w32 9))
        (.compare field .less (.integer .w32 99))) ∧
      outcome twice = outcome short := by
  intro short twice size pages g field outcome
  have halike : ∀ p ∈ g.predicates, twice p.path = short p.path := by decide
  obtain ⟨hreduce, -, hagree, -⟩ := reduce_mapPaths ⟨.builtIn, short⟩ (Condition.backend library "Author")
    [] .empty
  have hshort : outcome short = .ok (.and (.compare field .greater (.integer .w32 9))
      (.compare field .less (.integer .w32 99))) := by
    refine (congrArg Compiler.Outcome.result (hreduce g)).trans ?_
    decide +kernel
  exact ⟨rfl, halike, hshort, congrArg Compiler.Outcome.result (hagree g twice halike)⟩

end RecordFilter

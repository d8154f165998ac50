import RecordFilter.Compile.Basic
import RecordFilter.Proofs.Pattern
import RecordFilter.Proofs.Reduction
import RecordFilter.Proofs.WellFormed

/-!
# What a filter means

The meaning of a group is told without conditions, joins and evaluators: `Group.verdict?` goes through the
group itself and looks at the record.  The values of a predicate are those that the record reaches along
its path (`valuesAt`), its literals are read as the type that the schema declares there
(`Schema.typeAlong?`), and its operator decides between them.  The connectives are taken from the left as
they stand, whatever they are.

A condition that a filter is compiled to holds for the records for which the filter has the verdict `true`
(`compile_meaning`).
-/

namespace RecordFilter

/-! ### Paths -/

/-- The declared type of the field at the end of a path. -/
def Schema.typeAlong? (s : Schema) : String → List String → Option FieldType
  | _, [] => none
  | owner, [name] => s.fieldType? owner name
  | owner, x :: y :: rest => (s.target? owner x).bind fun entity => s.typeAlong? entity (y :: rest)

/-- The values at the end of a path: every item of an array on the way is gone into, nothing is reached
through null or through what is not there, and a field that is absent at the end is null. -/
def valuesAt : List String → Json → List Json
  | [], j => [j]
  | [name], j => [(j.get? name).getD .null]
  | x :: y :: rest, j =>
    match j.get? x with
    | none => []
    | some .null => []
    | some (.array items) => items.flatMap (valuesAt (y :: rest))
    | some k => valuesAt (y :: rest) k

/-! ### Operators -/

/-- How a value has to order against the literal. -/
def Comparison.requires : Comparison → Ordering → Bool
  | .equal => Ordering.isEq
  | .notEqual => Ordering.isNe
  | .greater => Ordering.isGT
  | .greaterOrEqual => Ordering.isGE
  | .less => Ordering.isLT
  | .lessOrEqual => Ordering.isLE

/-- The value and the literal are comparable and order as required. -/
def ordersAs (op : Comparison) (v : Value) (j : Json) : Bool :=
  match v.order? j with
  | some o => op.requires o
  | none => false

/-- Whether a test passes on the values that are reached. -/
def testVerdict (reached : List Json) : Test → Bool
  | .isTrue => reached.any fun j => j.asBool? == some true
  | .isFalse => reached.any fun j => j.asBool? == some false
  | .isNull => reached.isEmpty || reached.any Json.isNull
  | .isNotNull => reached.any fun j => !j.isNull

/-- Whether a text that is reached fits the pattern, or does not if that is asked, in capitals; with a
pattern that is not usable neither is so. -/
def likeVerdict (pattern : String) (negated : Bool) (reached : List Json) : Bool :=
  (LikePattern.ofText? pattern).isSome && reached.any fun j =>
    j.likeText?.any fun text => fits pattern.toList (Text.upper text).toList != negated

section verdict

variable (registry : Registry) (s : Schema) (root : String) (record : Json)

/-- The truth of a predicate for the record, if its path leads to a field and its literals are values of
the type of that field. -/
def Predicate.verdict? (p : Predicate) : Option Bool := do
  let path := Text.pieces '.' p.path
  let type ← s.typeAlong? root path
  let reached := valuesAt path record
  let value (o : Operand) : Option Value := (registry.read s type o.text).toOption
  match p.operator with
  | .compare op =>
    let v ← value (← p.operands.getLast?)
    return reached.any (ordersAs op v)
  | .test t => return testVerdict reached t
  | .like placement negated =>
    match p.operands.getLast? with
    | some (.string text) =>
      return likeVerdict (Compiler.likePattern placement (Text.upper text)) negated reached
    | _ => none
  | .member negated =>
    let vs ← p.operands.mapM value
    return (reached.any fun j => vs.any fun v => ordersAs .equal v j) != negated
  | .between =>
    let (low, high) ← p.bounds?
    let low ← value low
    let high ← value high
    return reached.any fun j => ordersAs .greaterOrEqual low j && ordersAs .lessOrEqual high j

/-- The two connectives of truth values. -/
def Connective.apply : Connective → Bool → Bool → Bool
  | .and, a, b => a && b
  | .or, a, b => a || b

mutual

/-- The truth of a group for the record: that of its first clause, to which the others are joined one
after the other. -/
def Group.verdict? : Group → Option Bool
  | .one clause => Group.clauseVerdict? clause
  | .join group op clause => do
    let left ← group.verdict?
    let right ← Group.clauseVerdict? clause
    return op.apply left right

def Group.clauseVerdict? : Clause → Option Bool
  | .predicate p => p.verdict? registry s root record
  | .group group => group.verdict?

end

end verdict

/-! ### Paths lead to the same type and the same values -/

theorem Schema.typeAlong?_concat (s : Schema) (owner : String) (relations : List String)
    (name : String) :
    s.typeAlong? owner (relations ++ [name]) =
      (s.entityAlong? owner relations).bind fun entity => s.fieldType? entity name := by
  induction relations generalizing owner with
  | nil => rfl
  | cons x rest ih =>
    have hx : s.typeAlong? owner (x :: (rest ++ [name])) =
        (s.target? owner x).bind fun entity => s.typeAlong? entity (rest ++ [name]) := by
      cases rest <;> rfl
    rw [List.cons_append, hx, entityAlong?, Option.bind_assoc]
    exact congrArg (Option.bind _) (funext fun entity => ih entity)

theorem valuesAt_cons (x name : String) (rest : List String) (j : Json) :
    valuesAt (x :: (rest ++ [name])) j = (follow [j] x).flatMap (valuesAt (rest ++ [name])) := by
  have hx : valuesAt (x :: (rest ++ [name])) j =
      match j.get? x with
      | none => []
      | some .null => []
      | some (.array items) => items.flatMap (valuesAt (rest ++ [name]))
      | some k => valuesAt (rest ++ [name]) k := by
    cases rest <;> rfl
  rw [hx, follow, List.flatMap_singleton]
  rcases j.get? x with _ | _ | _ | _ | _ | _ | _ | _ <;> simp

/-- Following a path from several values is following it from each of them. -/
theorem map_foldl_follow (name : String) (relations : List String) (cs : List Json) :
    ((relations.foldl follow cs).map fun c => (c.get? name).getD .null) =
      cs.flatMap (valuesAt (relations ++ [name])) := by
  induction relations generalizing cs with
  | nil => exact List.map_eq_flatMap
  | cons x rest ih =>
    have hfollow : follow cs x = cs.flatMap fun c => follow [c] x := by simp [follow]
    rw [List.foldl_cons, ih, hfollow, List.flatMap_assoc]
    exact congrArg (List.flatMap · cs) (funext fun c => (valuesAt_cons x name rest c).symm)

theorem FieldRef.reach_eq_valuesAt (f : FieldRef) (record : Json) :
    f.reach record = valuesAt (f.path ++ [f.name]) record := by
  rw [reach, map_foldl_follow, List.flatMap_singleton]

/-! ### Operators decide the same -/

theorem Comparison.passes_eq (op : Comparison) (v : Value) : op.passes v = ordersAs op v := by
  funext j
  unfold passes ordersAs
  cases v.order? j with
  | none => rfl
  | some o => cases op <;> cases o <;> rfl

theorem memberPasses_eq (vs : List Value) :
    memberPasses vs = fun j => vs.any fun v => ordersAs .equal v j := by
  unfold memberPasses
  simp only [Comparison.passes_eq]

theorem betweenPasses_eq (low high : Value) :
    betweenPasses low high =
      fun j => ordersAs .greaterOrEqual low j && ordersAs .lessOrEqual high j := by
  unfold betweenPasses
  simp only [Comparison.passes_eq]

theorem Test.passes_eq (t : Test) (reached : List Json) : t.passes reached = testVerdict reached t := by
  cases t <;> rfl

theorem likePasses_eq (pattern : String) (negated : Bool) (reached : List Json) :
    likePasses (LikePattern.ofText? pattern) negated reached = likeVerdict pattern negated reached := by
  unfold likePasses likeVerdict
  cases hp : LikePattern.ofText? pattern with
  | none => rfl
  | some p =>
    rw [Option.isSome_some, Bool.true_and]
    refine congrArg (List.any reached) (funext fun j => ?_)
    unfold LikePattern.passes
    cases j.likeText? with
    | none => rfl
    | some text =>
      have hmatch : RegexLibrary.isMatch p (Text.upper text) =
          fits pattern.toList (Text.upper text).toList := by
        rw [Bool.eq_iff_iff, LikePattern.isMatch_iff_standsFor RegexProgram.documented hp,
          fits_iff_standsFor]
      rw [Option.any_some, ← hmatch]

/-! ### Predicates -/

section predicates

variable {registry : Registry} {mapPath : String → String} {s : Schema} {root : String}

/-- **The condition of a predicate means the predicate**, if its field is reached along the path of the
predicate and has the type that the schema declares there. -/
theorem verdict?_of_conditionFor {p : Predicate} {r : ResolvedPath Join FieldRef} {cond : Condition}
    (htype : s.typeAlong? root (Text.pieces '.' p.path) = some r.type)
    (hpath : r.field.path ++ [r.field.name] = Text.pieces '.' p.path)
    (h : Compiler.conditionFor ⟨registry, mapPath⟩ s r p = .ok cond) (record : Json) :
    p.verdict? registry s root record = some (cond.holds record) := by
  have hreach : r.field.reach record = valuesAt (Text.pieces '.' p.path) record := by
    rw [FieldRef.reach_eq_valuesAt, hpath]
  unfold Predicate.verdict?
  dsimp only
  rw [htype, ← hreach]
  cases Compiler.conditionOf_of_conditionFor h with
  | compare operator last value =>
    have hread := toOption_eq_some.mpr (Registry.convertTo_eq_ok.mp value)
    rw [operator, last]
    simp [hread, Condition.holds, Comparison.passes_eq]
  | test operator =>
    rw [operator]
    simp [Condition.holds, Test.passes_eq]
  | like operator last =>
    rw [operator, last]
    simp [Condition.holds, likePasses_eq]
  | @member negated vs operator values =>
    have hread := (Registry.toOption_mapM_convertTo r.name p.operands).symm.trans (toOption_eq_some.mpr values)
    rw [operator]
    cases negated <;> simp [hread, Condition.holds, memberPasses_eq]
  | between operator bounds lowValue highValue =>
    have hlow := toOption_eq_some.mpr (Registry.convertTo_eq_ok.mp lowValue)
    have hhigh := toOption_eq_some.mpr (Registry.convertTo_eq_ok.mp highValue)
    rw [operator, bounds]
    simp [hlow, hhigh, Condition.holds, betweenPasses_eq]

end predicates

/-! ### Groups -/

section groups

variable {registry : Registry} {s : Schema} {root : String} {record : Json}

theorem Condition.holds_combine (op : Connective) (l r : Condition) :
    (Condition.combine op l r).holds record = op.apply (l.holds record) (r.holds record) := by
  cases op <;> rfl

mutual

/-- **What each predicate means, the group means.** -/
theorem Group.verdict?_of_becomes : ∀ (g : Group) {cond : Condition},
    g.Becomes (fun p c => p.verdict? registry s root record = some (c.holds record)) cond →
      g.verdict? registry s root record = some (cond.holds record)
  | .one clause, _, h => Group.clauseVerdict?_of_becomes clause h
  | .join group op clause, _, h => by
    obtain ⟨l, r, hl, hr, rfl⟩ := h
    rw [Group.verdict?, Group.verdict?_of_becomes group hl, Group.clauseVerdict?_of_becomes clause hr,
      Condition.holds_combine]
    rfl

theorem Group.clauseVerdict?_of_becomes : ∀ (clause : Clause) {cond : Condition},
    Group.clauseBecomes (fun p c => p.verdict? registry s root record = some (c.holds record))
      clause cond → Group.clauseVerdict? registry s root record clause = some (cond.holds record)
  | .predicate _, _, h => h
  | .group group, _, h => Group.verdict?_of_becomes group h

end

/-- The clauses of a row are joined strictly from the left. -/
theorem Group.verdict?_ofClauses (first : Clause) (rest : List (Connective × Clause)) :
    (Group.ofClauses first rest).verdict? registry s root record =
      (Group.clauseVerdict? registry s root record first).bind fun b =>
        rest.foldlM (fun b r => (Group.clauseVerdict? registry s root record r.2).map (r.1.apply b))
          b := by
  have hjoin : ∀ g : Group,
      (rest.foldl (fun g r => Group.join g r.1 r.2) g).verdict? registry s root record =
        (g.verdict? registry s root record).bind fun b => rest.foldlM
          (fun b r => (Group.clauseVerdict? registry s root record r.2).map (r.1.apply b)) b := by
    induction rest with
    | nil => simp
    | cons r rest ih =>
      intro g
      rw [List.foldl_cons, ih, Group.verdict?]
      cases g.verdict? registry s root record with
      | none => rfl
      | some b =>
        cases hr : Group.clauseVerdict? registry s root record r.2 with
        | none => simp [hr]
        | some b' => simp [hr]
  exact hjoin (.one first)

end groups

/-- **A predicate becomes a condition that means it.** -/
theorem keptBy_verdict (registry : Registry) (s : Schema) (root : String) (old : List JoinRecord)
    (record : Json) {all : List Predicate} (hall : ∀ p ∈ all, "" ∉ Text.pieces '.' p.path) :
    KeptBy ⟨registry, id⟩ s root all
      (fun _ st => (∃ uses, Tracks s root old uses st) ∧ st.cache.Coherent s)
      (fun p c => p.verdict? registry s root record = some (c.holds record)) := by
  rintro done p st hp ⟨⟨uses, ht⟩, hc⟩
  have hn := hall p (hp.subset (List.mem_append_right _ (List.mem_singleton_self p)))
  obtain ⟨ht', hc', hcond⟩ := Compiler.reducePredicate_spec (c := ⟨registry, id⟩) ht hn
  refine ⟨⟨⟨_, ht'⟩, hc' hc⟩, fun cond h => ?_⟩
  obtain ⟨r, hres, hfor⟩ := hcond cond h
  cases hres with
  | @found owner t js entity declared known =>
    refine verdict?_of_conditionFor ?_ ?_ hfor record
    · rw [FieldCache.lookup_fst hc] at known
      rw [AttributePath.pieces_eq, Schema.typeAlong?_concat]
      exact (congrArg (Option.bind · _) entity).trans known
    · exact (AttributePath.pieces_eq p.path).symm

/-- **The meaning of a filter.**  If a text compiles, with its paths as they are written and with a cache
that knows nothing wrong, then it is a group, and an evaluator that remembers nothing wrong decides of
every record what the group means, and still remembers nothing wrong. -/
theorem compile_meaning {registry : Registry} {s : Schema} {root text : String}
    {old : List JoinRecord} {cache : FieldCache} {cond : Condition} (hcache : cache.Coherent s)
    (h : (Compiler.compile ⟨registry, id⟩ (Condition.backend s root) old cache text).result =
      .ok cond) :
    ∃ g, parse text = .ok g ∧ ∀ (record : Json) (e : Evaluator), e.Faithful →
      g.verdict? registry s root record = some ((Evaluator.holds record cond).run e).1 ∧
        ((Evaluator.holds record cond).run e).2.Faithful := by
  obtain ⟨g, st, hg, hrun, -⟩ := Compiler.compile_ok h
  refine ⟨g, hg, fun record e he => ?_⟩
  have hkept := keptBy_verdict registry s root old record fun p => named_of_parse hg (p := p)
  have hstart : (∃ uses, Tracks s root old uses ⟨old, [], cache⟩) ∧ cache.Coherent s :=
    ⟨⟨[], Tracks.start s root old cache⟩, hcache⟩
  obtain ⟨-, -, hb⟩ := reduceGroup_built hkept (List.prefix_refl _) hstart hrun
  obtain ⟨hholds, hfaithful⟩ := Evaluator.holds_spec record cond he
  rw [g.verdict?_of_becomes hb, hholds]
  exact ⟨rfl, hfaithful⟩

/-- The row is folded from the left: with `&&` before `||` the filter would hold of this author. -/
theorem compile_meaning_fold :
    let text := "name starts 'a' || books.pages > 200 && name is null"
    let record := Json.object [("books", .array [.object [("pages", .integer 120)]]),
      ("name", .string "Ada")]
    (Compiler.compile ⟨.builtIn, id⟩ (Condition.backend library "Author") [] .empty text).result =
        .ok (.and (.or (.like ⟨[], "name", none⟩ "A%" false)
          (.compare ⟨["books"], "pages", some 0⟩ .greater (.integer .w32 200)))
            (.test ⟨[], "name", none⟩ .isNull)) ∧
      ∃ g, parse text = .ok g ∧ g.verdict? .builtIn library "Author" record = some false := by
  intro text record
  have h : (Compiler.compile ⟨.builtIn, id⟩ (Condition.backend library "Author") [] .empty
      text).result = .ok (.and (.or (.like ⟨[], "name", none⟩ "A%" false)
        (.compare ⟨["books"], "pages", some 0⟩ .greater (.integer .w32 200)))
          (.test ⟨[], "name", none⟩ .isNull)) := by
    decide +kernel
  obtain ⟨g, hg, hm⟩ := compile_meaning (FieldCache.empty_coherent library) h
  refine ⟨h, g, hg, ?_⟩
  rw [(hm record .new Evaluator.faithful_new).1]
  decide

end RecordFilter

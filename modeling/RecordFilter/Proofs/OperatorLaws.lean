import RecordFilter.Proofs.Answers

/-!
# Laws of the operators

Some operators say no more than others that are joined: what is greater or equal is greater, or equal; a
member of a list equals one of the list.  Every comparison asks whether *some* value that is reached passes.
So a law of one value is a law of fields with many values as long as "or" joins its sides.  Where "and" joins
them, each side may be passed by another value, and one direction is left: a range implies its two bounds.

The laws are about the answers of filters (`AnswersRelate`), however the filters are written.  Of the two
filters of a law both compile or neither does.
-/

namespace RecordFilter

/-! ### Filters about one field -/

/-- A clause about the field at the end of a path, wherever it stands. -/
def onField (path : String) (op : Operator) (operands : List Operand) : Clause :=
  .predicate ⟨path, op, operands, .start⟩

def compares (path : String) (op : Comparison) (x : Operand) : Clause := onField path (.compare op) [x]

/-- A row of clauses with the same connective between all of them. -/
def joined (op : Connective) (first : Clause) (rest : List Clause) : Group :=
  Group.ofClauses first (rest.map fun clause => (op, clause))

/-! ### One value -/

theorem ordersAs_greaterOrEqual (v : Value) :
    ordersAs .greaterOrEqual v = fun j => ordersAs .greater v j || ordersAs .equal v j := by
  funext j
  unfold ordersAs
  rcases v.order? j with _ | _ | _ | _ <;> rfl

theorem ordersAs_lessOrEqual (v : Value) :
    ordersAs .lessOrEqual v = fun j => ordersAs .less v j || ordersAs .equal v j := by
  funext j
  unfold ordersAs
  rcases v.order? j with _ | _ | _ | _ <;> rfl

theorem ordersAs_notEqual (v : Value) :
    ordersAs .notEqual v = fun j => ordersAs .less v j || ordersAs .greater v j := by
  funext j
  unfold ordersAs
  rcases v.order? j with _ | _ | _ | _ <;> rfl

/-! ### Some value -/

/-- Of a field that reaches nothing, or a null, it holds that it is null, and of any other it holds that it
is not. -/
theorem isNull_or_isNotNull (reached : List Json) :
    (testVerdict reached .isNull || testVerdict reached .isNotNull) = true := by
  cases reached with
  | nil => rfl
  | cons j rest => cases hj : j.isNull <;> simp [testVerdict, hj]

section some_value

variable {α β : Type}

theorem any_or (p q : α → Bool) (l : List α) : (l.any fun a => p a || q a) = (l.any p || l.any q) := by
  induction l with
  | nil => rfl
  | cons a l ih =>
    simp only [List.any_cons, ih]
    ac_rfl

theorem any_swap (p : α → β → Bool) (l : List α) (m : List β) :
    (l.any fun a => m.any (p a)) = m.any fun b => l.any fun a => p a b := by
  induction l with
  | nil => simp
  | cons a l ih =>
    simp only [List.any_cons, ih]
    exact (any_or _ _ m).symm

/-- If some value passes both then some value passes the one and some value passes the other. -/
theorem any_and_imp {p q : α → Bool} {l : List α} (h : (l.any fun a => p a && q a) = true) :
    (l.any p && l.any q) = true := by
  obtain ⟨a, ha, hpq⟩ := List.any_eq_true.mp h
  have hboth := Bool.and_eq_true_iff.mp hpq
  exact Bool.and_eq_true_iff.mpr
    ⟨List.any_eq_true.mpr ⟨a, ha, hboth.1⟩, List.any_eq_true.mpr ⟨a, ha, hboth.2⟩⟩

theorem any_and_of_length_le_one (p q : α → Bool) {l : List α} (h : l.length ≤ 1) :
    (l.any fun a => p a && q a) = (l.any p && l.any q) := by
  match l, h with
  | [], _ => rfl
  | [a], _ => simp

/-- A row of tests, of which one has to be passed, after what has been found before. -/
theorem foldlM_or (read : α → Option β) (test : β → Bool) (xs : List α) (b : Bool) :
    (xs.foldlM (fun b x => ((read x).map test).map (Connective.or.apply b)) b) =
      (xs.mapM read).map fun vs => b || vs.any test := by
  induction xs generalizing b with
  | nil => simp
  | cons x xs ih =>
    rw [List.foldlM_cons, List.mapM_cons]
    cases read x with
    | none => rfl
    | some v =>
      show List.foldlM _ (b || test v) xs = _
      rw [ih (b || test v)]
      cases xs.mapM read with
      | none => rfl
      | some vs => exact congrArg some (Bool.or_assoc b (test v) (vs.any test))

end some_value

section laws

variable (registry : Registry) (s : Schema) (root : String) (record : Json)

/-- The value of a literal of the type of the field at the end of the path. -/
def literal? (path : String) (x : Operand) : Option Value :=
  (s.typeAlong? root (Text.pieces '.' path)).bind fun t => (registry.read s t x.text).toOption

/-- However the two filters are written, and whatever has been compiled and evaluated before: both compile
or neither does, and if they do then their answers are related. -/
def AnswersRelate (R : Bool → Bool → Prop) (g h : Group) : Prop :=
  ∀ (a b : String) (k k' : Circumstances s), Reads a g → Reads b h →
    Option.Rel R (answer? registry root k a record) (answer? registry root k' b record)

variable {registry s root record} {path : String}

theorem answersRelate_of_verdicts {R : Bool → Bool → Prop} {g h : Group}
    (hR : Option.Rel R (g.verdict? registry s root record) (h.verdict? registry s root record)) :
    AnswersRelate registry s root record R g h := by
  intro a b k k' ha hb
  rw [answer?_of_reads ha k, answer?_of_reads hb k']
  exact hR

theorem answersRelate_of_eq {g h : Group}
    (hgh : g.verdict? registry s root record = h.verdict? registry s root record) :
    AnswersRelate registry s root record (· = ·) g h := by
  apply answersRelate_of_verdicts
  rw [hgh]
  cases h.verdict? registry s root record with
  | none => exact .none
  | some b => exact .some rfl

/-! ### Verdicts about one field -/

theorem clauseVerdict?_compares (op : Comparison) (x : Operand) :
    Group.clauseVerdict? registry s root record (compares path op x) =
      (literal? registry s root path x).map fun v =>
        (valuesAt (Text.pieces '.' path) record).any (ordersAs op v) := by
  show Predicate.verdict? registry s root record ⟨path, .compare op, [x], .start⟩ = _
  unfold Predicate.verdict? literal?
  dsimp only
  cases s.typeAlong? root (Text.pieces '.' path) with
  | none => rfl
  | some t =>
    dsimp only [Option.bind_eq_bind, Option.bind_some, List.getLast?_singleton]
    cases (registry.read s t x.text).toOption <;> rfl

theorem clauseVerdict?_member (negated : Bool) (xs : List Operand) :
    Group.clauseVerdict? registry s root record (onField path (.member negated) xs) =
      (s.typeAlong? root (Text.pieces '.' path)).bind fun t =>
        (xs.mapM fun x => (registry.read s t x.text).toOption).map fun vs =>
          ((valuesAt (Text.pieces '.' path) record).any fun j => vs.any fun v => ordersAs .equal v j)
            != negated := by
  show Predicate.verdict? registry s root record ⟨path, .member negated, xs, .start⟩ = _
  unfold Predicate.verdict?
  dsimp only
  refine Option.bind_congr fun t _ => ?_
  cases xs.mapM fun x => (registry.read s t x.text).toOption <;> rfl

theorem clauseVerdict?_between (low high : Operand) :
    Group.clauseVerdict? registry s root record (onField path .between [low, high]) =
      (literal? registry s root path low).bind fun v => (literal? registry s root path high).map fun w =>
        (valuesAt (Text.pieces '.' path) record).any fun j =>
          ordersAs .greaterOrEqual v j && ordersAs .lessOrEqual w j := by
  show Predicate.verdict? registry s root record ⟨path, .between, [low, high], .start⟩ = _
  have hbounds : Predicate.bounds? ⟨path, .between, [low, high], .start⟩ = some (low, high) := rfl
  unfold Predicate.verdict? literal?
  dsimp only
  cases s.typeAlong? root (Text.pieces '.' path) with
  | none => rfl
  | some t =>
    simp only [hbounds, Option.bind_eq_bind, Option.bind_some]
    cases (registry.read s t low.text).toOption <;> cases (registry.read s t high.text).toOption <;> rfl

theorem clauseVerdict?_test (t : Test) :
    Group.clauseVerdict? registry s root record (onField path (.test t) []) =
      (s.typeAlong? root (Text.pieces '.' path)).map fun _ =>
        testVerdict (valuesAt (Text.pieces '.' path) record) t := by
  show Predicate.verdict? registry s root record ⟨path, .test t, [], .start⟩ = _
  unfold Predicate.verdict?
  dsimp only
  cases s.typeAlong? root (Text.pieces '.' path) <;> rfl

theorem verdict?_joined_pair (op : Connective) (c d : Clause) :
    (joined op c [d]).verdict? registry s root record =
      (Group.clauseVerdict? registry s root record c).bind fun b =>
        (Group.clauseVerdict? registry s root record d).map (op.apply b) := by
  unfold joined
  rw [Group.verdict?_ofClauses]
  simp

/-- Two comparisons with one literal, one of which has to hold. -/
theorem verdict?_either (op op' : Comparison) (x : Operand) :
    (joined .or (compares path op x) [compares path op' x]).verdict? registry s root record =
      (literal? registry s root path x).map fun v =>
        (valuesAt (Text.pieces '.' path) record).any fun j => ordersAs op v j || ordersAs op' v j := by
  rw [verdict?_joined_pair, clauseVerdict?_compares, clauseVerdict?_compares]
  cases literal? registry s root path x with
  | none => rfl
  | some v => exact congrArg some (any_or _ _ _).symm

/-- A comparison that is one of two others says the same as both joined. -/
theorem answersRelate_either {op op' op'' : Comparison}
    (h : ∀ v, ordersAs op v = fun j => ordersAs op' v j || ordersAs op'' v j) (x : Operand) :
    AnswersRelate registry s root record (· = ·) (.one (compares path op x))
      (joined .or (compares path op' x) [compares path op'' x]) := by
  apply answersRelate_of_eq
  rw [verdict?_either, Group.verdict?, clauseVerdict?_compares]
  simp only [h]

/-- The two bounds of a range, which may hold of two values. -/
theorem verdict?_bounds (low high : Operand) :
    (joined .and (compares path .greaterOrEqual low) [compares path .lessOrEqual high]).verdict?
        registry s root record =
      (literal? registry s root path low).bind fun v => (literal? registry s root path high).map fun w =>
        (valuesAt (Text.pieces '.' path) record).any (ordersAs .greaterOrEqual v) &&
          (valuesAt (Text.pieces '.' path) record).any (ordersAs .lessOrEqual w) := by
  rw [verdict?_joined_pair, clauseVerdict?_compares, clauseVerdict?_compares]
  cases literal? registry s root path low <;> cases literal? registry s root path high <;> rfl

/-- Equality with one literal after the other, of which one has to hold. -/
theorem verdict?_equalsOneOf (x : Operand) (xs : List Operand) :
    (joined .or (compares path .equal x) (xs.map (compares path .equal))).verdict? registry s root record =
      (s.typeAlong? root (Text.pieces '.' path)).bind fun t =>
        ((x :: xs).mapM fun x => (registry.read s t x.text).toOption).map fun vs =>
          vs.any fun v => (valuesAt (Text.pieces '.' path) record).any (ordersAs .equal v) := by
  unfold joined
  rw [Group.verdict?_ofClauses, clauseVerdict?_compares]
  simp only [List.foldlM_map, clauseVerdict?_compares, literal?]
  cases s.typeAlong? root (Text.pieces '.' path) with
  | none => rfl
  | some t =>
    simp only [Option.bind_some, foldlM_or, List.mapM_cons]
    cases (registry.read s t x.text).toOption with
    | none => rfl
    | some v => cases xs.mapM fun y => (registry.read s t y.text).toOption <;> rfl

/-! ### The laws -/

/-- **What the operators say of each other**, of fields with any number of values, null among them: "greater
or equal", "less or equal" and "not equal" are two comparisons of which one holds; membership is equality with
one of the list, and "not in" answers the opposite; a range implies its bounds, and is both of them where not
more than one value is reached; every record is null or not null at every field. -/
theorem operator_laws (registry : Registry) {s : Schema} (root path : String) (record : Json) :
    (∀ x, AnswersRelate registry s root record (· = ·)
      (.one (compares path .greaterOrEqual x))
      (joined .or (compares path .greater x) [compares path .equal x])) ∧
    (∀ x, AnswersRelate registry s root record (· = ·)
      (.one (compares path .lessOrEqual x))
      (joined .or (compares path .less x) [compares path .equal x])) ∧
    (∀ x, AnswersRelate registry s root record (· = ·)
      (.one (compares path .notEqual x))
      (joined .or (compares path .less x) [compares path .greater x])) ∧
    (∀ x xs, AnswersRelate registry s root record (· = ·)
      (.one (onField path (.member false) (x :: xs)))
      (joined .or (compares path .equal x) (xs.map (compares path .equal)))) ∧
    (∀ x xs, AnswersRelate registry s root record (fun b b' => b = !b')
      (.one (onField path (.member true) (x :: xs)))
      (.one (onField path (.member false) (x :: xs)))) ∧
    (∀ low high, AnswersRelate registry s root record (fun b b' => b = true → b' = true)
      (.one (onField path .between [low, high]))
      (joined .and (compares path .greaterOrEqual low) [compares path .lessOrEqual high])) ∧
    ((valuesAt (Text.pieces '.' path) record).length ≤ 1 →
      ∀ low high, AnswersRelate registry s root record (· = ·)
        (.one (onField path .between [low, high]))
        (joined .and (compares path .greaterOrEqual low) [compares path .lessOrEqual high])) ∧
    AnswersRelate registry s root record (fun _ b => b = true)
      (.one (onField path (.test .isNull) []))
      (joined .or (onField path (.test .isNull) []) [onField path (.test .isNotNull) []]) := by
  refine ⟨answersRelate_either ordersAs_greaterOrEqual, answersRelate_either ordersAs_lessOrEqual,
    answersRelate_either ordersAs_notEqual, fun x xs => answersRelate_of_eq ?_,
    fun x xs => answersRelate_of_verdicts ?_, fun low high => answersRelate_of_verdicts ?_,
    fun hone low high => answersRelate_of_eq ?_, answersRelate_of_verdicts ?_⟩
  · rw [verdict?_equalsOneOf, Group.verdict?, clauseVerdict?_member]
    refine Option.bind_congr fun t _ => Option.map_congr fun vs _ => ?_
    rw [Bool.bne_false, any_swap]
  · rw [Group.verdict?, Group.verdict?, clauseVerdict?_member, clauseVerdict?_member]
    cases s.typeAlong? root (Text.pieces '.' path) with
    | none => exact .none
    | some t =>
      rw [Option.bind_some, Option.bind_some]
      cases (x :: xs).mapM fun x => (registry.read s t x.text).toOption with
      | none => exact .none
      | some vs => exact .some (by simp)
  · rw [verdict?_bounds, Group.verdict?, clauseVerdict?_between]
    -- both sides need the values of both bounds, and only the reached values are asked about differently
    cases literal? registry s root path low with
    | none => exact .none
    | some v =>
      cases literal? registry s root path high with
      | none => exact .none
      | some w => exact .some any_and_imp
  · rw [verdict?_bounds, Group.verdict?, clauseVerdict?_between]
    simp only [any_and_of_length_le_one _ _ hone]
  · rw [verdict?_joined_pair, Group.verdict?, clauseVerdict?_test, clauseVerdict?_test]
    cases s.typeAlong? root (Text.pieces '.' path) with
    | none => exact .none
    | some t =>
      exact .some (isNull_or_isNotNull _)

end laws

/-- Of two books none is between the bounds, but each keeps to one of them; with one book, the range is the
same as its bounds. -/
theorem operator_laws_pages :
    let shelf (pages : List Int) :=
      Json.object [("books", .array (pages.map fun n => .object [("pages", .integer n)]))]
    let answer := fun record text => answer? .builtIn "Author" (.fresh library) text record
    let range := "books.pages between 1 and 9"
    let bounds := "books.pages >= 1 && books.pages <= 9"
    answer (shelf [0, 10]) range = some false ∧ answer (shelf [0, 10]) bounds = some true ∧
      Option.Rel (fun b b' => b = true → b' = true) (answer (shelf [0, 10]) range)
        (answer (shelf [0, 10]) bounds) ∧
      Option.Rel (· = ·) (answer (shelf [5]) range) (answer (shelf [5]) bounds) ∧
      Option.Rel (· = ·) (answer (shelf [0, 10]) "books.pages in (7, 10)")
        (answer (shelf [0, 10]) "books.pages = 7 || books.pages = 10") := by
  intro shelf answer range bounds
  have laws := @operator_laws .builtIn library "Author" "books.pages"
  obtain ⟨-, -, -, hmember, -, hrange, -⟩ := laws (shelf [0, 10])
  obtain ⟨-, -, -, -, -, -, hsingle, -⟩ := laws (shelf [5])
  have hreadsRange : Reads "books.pages between 1 and 9"
      (.one (onField "books.pages" .between [.number "1", .number "9"])) := by decide +kernel
  have hreadsBounds : Reads "books.pages >= 1 && books.pages <= 9"
      (joined .and (compares "books.pages" .greaterOrEqual (.number "1"))
        [compares "books.pages" .lessOrEqual (.number "9")]) := by decide +kernel
  have hreadsMember : Reads "books.pages in (7, 10)"
      (.one (onField "books.pages" (.member false) [.number "7", .number "10"])) := by decide +kernel
  have hreadsEquals : Reads "books.pages = 7 || books.pages = 10"
      (joined .or (compares "books.pages" .equal (.number "7"))
        ([.number "10"].map (compares "books.pages" .equal))) := by decide +kernel
  have hout : answer (shelf [0, 10]) range = some false := by
    subst answer shelf range
    decide +kernel
  have hkept : answer (shelf [0, 10]) bounds = some true := by
    subst answer shelf bounds
    decide +kernel
  have hone : (valuesAt (Text.pieces '.' "books.pages") (shelf [5])).length ≤ 1 := by
    subst shelf
    decide +kernel
  exact ⟨hout, hkept, hrange _ _ _ _ (.fresh _) (.fresh _) hreadsRange hreadsBounds,
    hsingle hone _ _ _ _ (.fresh _) (.fresh _) hreadsRange hreadsBounds,
    hmember _ _ _ _ (.fresh _) (.fresh _) hreadsMember hreadsEquals⟩

end RecordFilter

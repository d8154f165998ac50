import RecordFilter.Command.Basic
import RecordFilter.Proofs.Pattern
import RecordFilter.Proofs.Running

/-!
# Checking and filtering

Both commands compile the filter and do different things with the condition (`FilterRequest.compiled`), so they
fail alike.  There is one thing in which two runs may differ: each has a hashed map of its own for the entity
types, and of several supertypes that are not declared it reports the one that this map gives first
(`FilterRequest.compiled_orders`).

What `filter` keeps is told record by record: the evaluator that goes through the records remembers patterns,
but what it answers for a record does not depend on the records before it (`Evaluator.keep_spec`).  The loop of
the command does what the evaluator itself does with records (`Command.matching_eq_keep`).
-/

namespace RecordFilter

/-! ### Many records -/

/-- **An evaluator keeps the records that satisfy the condition**, whatever it has met before, and stays
faithful. -/
theorem Evaluator.keep_spec (c : Condition) (records : List Json) {e : Evaluator} (he : e.Faithful) :
    ((keep c records).run e).1 = records.filter (fun record => c.holds record) ∧
      ((keep c records).run e).2.Faithful := by
  induction records generalizing e with
  | nil => exact ⟨rfl, he⟩
  | cons record rest ih =>
    obtain ⟨hb, he'⟩ := holds_spec record c he
    obtain ⟨hrest, hf⟩ := ih he'
    refine ⟨?_, hf⟩
    have hrun : ((keep c (record :: rest)).run e).1 =
        if ((holds record c).run e).1 then
          record :: ((keep c rest).run ((holds record c).run e).2).1
        else ((keep c rest).run ((holds record c).run e).2).1 := rfl
    rw [hrun, hb, hrest, List.filter_cons]

/-- Of the records that an evaluator has kept it keeps all. -/
theorem Evaluator.keep_keep (c : Condition) (records : List Json) {e e' : Evaluator} (he : e.Faithful)
    (he' : e'.Faithful) :
    ((keep c ((keep c records).run e).1).run e').1 = ((keep c records).run e).1 := by
  rw [(keep_spec c _ he').1, (keep_spec c records he).1, List.filter_filter]
  simp only [Bool.and_self]

namespace Command

/-! ### Two loops -/

/-- What is kept is put in front of what has been kept before. -/
theorem filterAuxM_holds (c : Condition) (records kept : List Json) (e : Evaluator) :
    (records.filterAuxM (fun record => Evaluator.holds record c) kept).run e =
      (((Evaluator.keep c records).run e).1.reverse ++ kept, ((Evaluator.keep c records).run e).2) := by
  induction records generalizing kept e with
  | nil => rfl
  | cons record rest ih =>
    let after := ((Evaluator.holds record c).run e).2
    have hloop : ((record :: rest).filterAuxM (fun record => Evaluator.holds record c) kept).run e =
        (rest.filterAuxM (fun record => Evaluator.holds record c)
          (bif ((Evaluator.holds record c).run e).1 then record :: kept else kept)).run after := rfl
    have hkeep : (Evaluator.keep c (record :: rest)).run e =
        (if ((Evaluator.holds record c).run e).1 then record :: ((Evaluator.keep c rest).run after).1
          else ((Evaluator.keep c rest).run after).1, ((Evaluator.keep c rest).run after).2) := rfl
    rw [hloop, ih, hkeep]
    cases ((Evaluator.holds record c).run e).1 <;> simp

/-- **The loop of the command is that of the evaluator.** -/
theorem matching_eq_keep (c : Condition) (records : List Json) :
    matching c records = Evaluator.keep c records := by
  funext e
  have hloop : (matching c records).run e =
      (((records.filterAuxM (fun record => Evaluator.holds record c) []).run e).1.reverse,
        ((records.filterAuxM (fun record => Evaluator.holds record c) []).run e).2) := rfl
  rw [filterAuxM_holds, List.append_nil, List.reverse_reverse] at hloop
  exact hloop

/-! ### One compilation -/

/-- The check of the filter that the records are filtered by. -/
def FilterRequest.toCheck (r : FilterRequest) (syntaxOnly : Bool) : CheckRequest :=
  ⟨r.filter, some r.schema, r.entity, r.renames, syntaxOnly⟩

/-- What the filter compiles to for the records of the entity type, with the joins that it needs. -/
def FilterRequest.compiled (r : FilterRequest) (order : MapOrder) :
    Except CommandError (Condition × List JoinRecord) := do
  let s ← loadSchema order r.schema r.entity
  let k ← compiler r.renames
  let o := k.compile (Condition.backend s r.entity) [] .empty r.filter
  let condition ← o.result.mapError .compile
  .ok (condition, o.backend)

theorem check_eq (r : FilterRequest) (order : MapOrder) : checkIn order (r.toCheck false) =
    (r.compiled order).map fun c => .compiled c.1.toJson c.2.length := by
  have hcheck : checkIn order (r.toCheck false) =
      loadSchema order r.schema r.entity >>= fun s => compiler r.renames >>= fun k =>
        let o := k.compile (Condition.backend s r.entity) [] .empty r.filter
        o.result.mapError CommandError.compile >>= fun condition =>
          .ok (.compiled condition.toJson o.backend.length) := rfl
  rw [hcheck, FilterRequest.compiled]
  simp only [map_bind_eq]
  rfl

theorem filter_eq {r : FilterRequest} {input : String} {j : Json} (hin : r.input = some input)
    (hj : Json.read input = .ok j) (order : MapOrder) : filterIn order r =
      (r.compiled order).map fun c => ((Evaluator.keep c.1 (recordsOf j)).run .new).1 := by
  have hfilter : filterIn order r =
      loadSchema order r.schema r.entity >>= fun s => compiler r.renames >>= fun k =>
        let o := k.compile (Condition.backend s r.entity) [] .empty r.filter
        o.result.mapError CommandError.compile >>= fun condition =>
          .ok ((matching condition (recordsOf j)).run .new).1 := by
    unfold filterIn
    rw [hin]
    dsimp only
    rw [hj]
    rfl
  rw [hfilter, FilterRequest.compiled]
  simp only [map_bind_eq, matching_eq_keep]
  rfl

/-- A filter that compiles is well formed. -/
theorem parse_of_compiled {r : FilterRequest} {order : MapOrder} {c : Condition × List JoinRecord}
    (h : r.compiled order = .ok c) : ∃ g, parse r.filter = .ok g := by
  obtain ⟨s, -, h⟩ := bind_eq_ok.mp h
  obtain ⟨k, -, h⟩ := bind_eq_ok.mp h
  cases hp : parse r.filter with
  | ok g => exact ⟨g, rfl⟩
  | error e =>
    unfold Compiler.compile at h
    rw [hp] at h
    cases h

/-- The syntax alone is what `parse` says of the filter. -/
theorem check_syntaxOnly {r : FilterRequest} {g : Group} (h : parse r.filter = .ok g)
    (order : MapOrder) : checkIn order (r.toCheck true) = .ok .syntaxValid := by
  unfold checkIn FilterRequest.toCheck
  rw [if_pos rfl, h]

/-! ### Orders of the hashed map -/

/-- The error reports a supertype that the schema of the text does not declare. -/
def ReportsParent (text : String) (e : CommandError) : Prop :=
  ∃ document s fault, Json.read text = .ok document ∧
    Schema.readDeclarations ⟨0⟩ document = .ok s ∧ s.Undeclared fault ∧ e = .schema fault

theorem loadSchema_eq {text : String} {document : Json} (h : Json.read text = .ok document)
    (entity : String) (order : MapOrder) : loadSchema order text entity =
      (Schema.ofDocumentIn order ⟨0⟩ document).mapError CommandError.schema >>= fun s =>
        if s.hasEntity entity then .ok s else .error (.unknownEntity entity) := by
  unfold loadSchema
  rw [h]
  rfl

theorem loadSchema_orders (text entity : String) (order order' : MapOrder) :
    loadSchema order text entity = loadSchema order' text entity ∨
      ∃ e e', ReportsParent text e ∧ ReportsParent text e' ∧
        loadSchema order text entity = .error e ∧ loadSchema order' text entity = .error e' := by
  cases hread : Json.read text with
  | error f =>
    left
    unfold loadSchema
    rw [hread]
    rfl
  | ok document =>
    rw [loadSchema_eq hread, loadSchema_eq hread]
    obtain hsame | ⟨s, fault, fault', hs, hfault, hfault', h, h'⟩ :=
      Schema.ofDocumentIn_orders ⟨0⟩ document order order'
    · rw [hsame]
      exact .inl rfl
    · rw [h, h']
      exact .inr ⟨_, _, ⟨document, s, fault, hread, hs, hfault, rfl⟩,
        ⟨document, s, fault', hread, hs, hfault', rfl⟩, rfl, rfl⟩

/-- **Two orders** lead to the same, or each to a report of a supertype that is not declared. -/
theorem compiled_orders (r : FilterRequest) (order order' : MapOrder) :
    r.compiled order = r.compiled order' ∨
      ∃ e e', ReportsParent r.schema e ∧ ReportsParent r.schema e' ∧
        r.compiled order = .error e ∧ r.compiled order' = .error e' := by
  unfold FilterRequest.compiled
  obtain hsame | ⟨e, e', he, he', h, h'⟩ := loadSchema_orders r.schema r.entity order order'
  · left
    rw [hsame]
  · refine .inr ⟨e, e', he, he', ?_, ?_⟩
    · rw [h]
      rfl
    · rw [h']
      rfl

/-- What a filter compiles to does not depend on the order. -/
theorem compiled_eq_ok {r : FilterRequest} {order : MapOrder} {c : Condition × List JoinRecord}
    (h : r.compiled order = .ok c) (order' : MapOrder) : r.compiled order' = .ok c := by
  obtain hsame | ⟨e, -, -, -, he, -⟩ := compiled_orders r order order'
  · rw [← hsame, h]
  · rw [h] at he
    cases he

/-! ### The two commands -/

/-- **Checking and filtering agree**, for every input that is read as JSON and whatever the orders are in
which the two commands go through their maps of entity types.  The check fails just if the filter does, and
with the same error, unless the orders differ and both report a supertype that is not declared; if it does not
fail then the syntax is valid.  What the filter keeps are the records, in their order, that an evaluator which
has met nothing finds to satisfy the condition of which the check gives the JSON; it is what every evaluator
keeps, and of it all is kept. -/
theorem check_filter {r : FilterRequest} {input : String} {j : Json} (hin : r.input = some input)
    (hj : Json.read input = .ok j) (order order' : MapOrder) :
    ((∃ e, checkIn order (r.toCheck false) = .error e) ↔ ∃ e, filterIn order' r = .error e) ∧
      (∀ e e', checkIn order (r.toCheck false) = .error e → filterIn order' r = .error e' →
        e = e' ∨ order ≠ order' ∧ ReportsParent r.schema e ∧ ReportsParent r.schema e') ∧
      (∀ a, checkIn order (r.toCheck false) = .ok a → checkIn order' (r.toCheck true) = .ok .syntaxValid) ∧
      ∀ kept, filterIn order' r = .ok kept → ∃ c joins, r.compiled order = .ok (c, joins) ∧
        checkIn order (r.toCheck false) = .ok (.compiled c.toJson joins.length) ∧
        kept = (recordsOf j).filter (fun record => ((Evaluator.holds record c).run .new).1) ∧
        (∀ e : Evaluator, e.Faithful → ((Evaluator.keep c (recordsOf j)).run e).1 = kept) ∧
        ∀ again, Json.read again = .ok (.array kept) → ∀ order'',
          filterIn order'' { r with input := some again } = .ok kept := by
  simp only [check_eq, filter_eq hin hj, map_eq_error]
  refine ⟨?_, fun e e' he he' => ?_, fun a ha => ?_, fun kept hkept => ?_⟩
  · obtain hsame | ⟨e, e', -, -, he, he'⟩ := compiled_orders r order order'
    · rw [hsame]
    · exact iff_of_true ⟨e, he⟩ ⟨e', he'⟩
  · obtain hsame | ⟨f, f', hf, hf', h, h'⟩ := compiled_orders r order order'
    · rw [hsame, he'] at he
      exact .inl (Except.error.inj he).symm
    · cases he.symm.trans h
      cases he'.symm.trans h'
      by_cases horder : order = order'
      · subst horder
        exact .inl (Except.error.inj (he.symm.trans he'))
      · exact .inr ⟨horder, hf, hf'⟩
  · obtain ⟨c, hc, -⟩ := map_eq_ok.mp ha
    obtain ⟨g, hg⟩ := parse_of_compiled hc
    exact check_syntaxOnly hg order'
  · obtain ⟨⟨c, joins⟩, hc', rfl⟩ := map_eq_ok.mp hkept
    have hc := compiled_eq_ok hc' order
    have hkeep := (Evaluator.keep_spec c (recordsOf j) Evaluator.faithful_new).1
    refine ⟨c, joins, hc, by rw [hc]; rfl, ?_, fun e he => ?_, fun again hagain order'' => ?_⟩
    · rw [hkeep]
      refine List.filter_congr fun record _ => ?_
      rw [(Evaluator.holds_spec record c Evaluator.faithful_new).1]
    · rw [hkeep, (Evaluator.keep_spec c (recordsOf j) he).1]
    · have hfilter := filter_eq (r := { r with input := some again }) rfl hagain order''
      have hagain' : FilterRequest.compiled { r with input := some again } order'' = .ok (c, joins) :=
        compiled_eq_ok hc order''
      rw [hfilter, hagain']
      exact congrArg Except.ok
        (Evaluator.keep_keep c (recordsOf j) Evaluator.faithful_new Evaluator.faithful_new)

/-- Two records, of which one is kept, and kept again. -/
theorem check_filter_adult :
    let r : FilterRequest :=
      ⟨"age >= 18", "\x7b\"entities\":\x7b\"P\":\x7b\"fields\":\x7b\"age\":\"i32\"\x7d\x7d\x7d\x7d", "P", [],
        some "[\x7b\"age\":17\x7d,\x7b\"age\":18\x7d]"⟩
    let again := "[\x7b\"age\":18\x7d]"
    let person := fun age => Json.object [("age", .integer age)]
    (∃ input, r.input = some input ∧ Json.read input = .ok (.array [person 17, person 18])) ∧
      filter r = .ok [person 18] ∧ check (r.toCheck true) = .ok .syntaxValid ∧
        Json.read again = .ok (.array [person 18]) ∧
          filter { r with input := some again } = .ok [person 18] := by
  intro r again person
  have hj : Json.read "[\x7b\"age\":17\x7d,\x7b\"age\":18\x7d]" =
      .ok (.array [person 17, person 18]) := by decide +kernel
  have hagain : Json.read again = .ok (.array [person 18]) := by decide +kernel
  have hkept : filter r = .ok [person 18] := by decide +kernel
  obtain ⟨-, -, hsyntax, hfilter⟩ := check_filter (r := r) rfl hj .declared .declared
  obtain ⟨c, joins, -, hcheck, -, -, hfix⟩ := hfilter _ hkept
  exact ⟨⟨_, rfl, hj⟩, hkept, hsyntax _ hcheck, hagain, hfix again hagain .declared⟩

/-- Where two supertypes are not declared, two orders name different ones.  And a number that no double comes
near to is written as JSON has it, but not read: the check passes over such an input and the filter fails. -/
theorem check_filter_apart :
    let orphans : FilterRequest :=
      ⟨"age >= 18", "\x7b\"entities\":\x7b\"A\":\x7b\"extends\":\"X\"\x7d,\"B\":\x7b\"extends\":\"Y\"\x7d\x7d\x7d",
        "A", [], some "[]"⟩
    let large : FilterRequest :=
      ⟨"age >= 18", "\x7b\"entities\":\x7b\"P\":\x7b\"fields\":\x7b\"age\":\"i32\"\x7d\x7d\x7d\x7d", "P", [],
        some "[\x7b\"age\":1e400\x7d]"⟩
    (∃ order order' : MapOrder,
      checkIn order (orphans.toCheck false) = .error (.schema (.unknownParent "A" "X")) ∧
        filterIn order' orphans = .error (.schema (.unknownParent "B" "Y"))) ∧
      Json.read "[]" = .ok (.array []) ∧
      check (large.toCheck false) =
        .ok (.compiled (Condition.compare ⟨[], "age", none⟩ .greaterOrEqual (.integer .w32 18)).toJson 0) ∧
      filter large = .error (.json ⟨.numberOutOfRange, 1, 13⟩) := by
  intro orphans large
  refine ⟨⟨.declared, ⟨id, fun es => .refl es⟩, ?_, ?_⟩, ?_, ?_, ?_⟩
  · decide +kernel
  · decide +kernel
  · decide +kernel
  · decide +kernel
  · decide +kernel

end Command

end RecordFilter

import RecordFilter.Compile.Basic
import Mathlib.Data.List.Forall2

/-!
# Running a compilation

What a compilation gives from some progress on, and the progress then (`Compilation.runFrom`), with one
equation for each way of building a compilation: from here on no proof opens the monad.  The laws of
outcomes that come first say when something that can fail succeeds, and the same of a list
(`mapM_eq_ok_iff`) and of a literal (`Registry.convertTo_eq_ok`).
-/

namespace RecordFilter

/-! ### Outcomes -/

/-- A row of two succeeds just if both do. -/
theorem bind_eq_ok {ε α β : Type} {x : Except ε α} {f : α → Except ε β} {b : β} :
    x >>= f = .ok b ↔ ∃ a, x = .ok a ∧ f a = .ok b := by
  constructor
  · intro h
    cases x with
    | error e => cases h
    | ok a => exact ⟨a, rfl, h⟩
  · rintro ⟨a, rfl, h⟩
    exact h

/-- A row of two fails at the first or at the second. -/
theorem bind_eq_error {ε α β : Type} {x : Except ε α} {f : α → Except ε β} {e : ε} :
    x >>= f = .error e ↔ x = .error e ∨ ∃ a, x = .ok a ∧ f a = .error e := by
  cases x with
  | error e' =>
    constructor
    · rintro ⟨⟩
      exact Or.inl rfl
    · rintro (h | ⟨_, h, _⟩)
      · cases h
        rfl
      · cases h
  | ok a =>
    constructor
    · exact fun h => Or.inr ⟨a, rfl, h⟩
    · rintro (h | ⟨_, h, hf⟩)
      · cases h
      · cases h
        exact hf

/-- What is changed afterwards succeeds just if it did before. -/
theorem map_eq_ok {ε α β : Type} {x : Except ε α} {f : α → β} {b : β} :
    x.map f = .ok b ↔ ∃ a, x = .ok a ∧ f a = b := by
  constructor
  · intro h
    cases x with
    | error e => cases h
    | ok a =>
      cases h
      exact ⟨a, rfl, rfl⟩
  · rintro ⟨a, rfl, rfl⟩
    rfl

theorem map_eq_error {ε α β : Type} {x : Except ε α} {f : α → β} {e : ε} :
    x.map f = .error e ↔ x = .error e := by
  cases x with
  | error e' => exact ⟨fun h => congrArg _ (Except.error.inj h), fun h => congrArg _ (Except.error.inj h)⟩
  | ok a => exact iff_of_false nofun nofun

/-- A change of what two give in a row is one of what the second gives. -/
theorem map_bind_eq {ε α β γ : Type} (x : Except ε α) (f : α → Except ε β) (g : β → γ) :
    (x >>= f).map g = x >>= fun a => (f a).map g := by
  cases x <;> rfl

theorem toOption_eq_some {ε α : Type} {x : Except ε α} {a : α} : x.toOption = some a ↔ x = .ok a := by
  cases x with
  | error e => exact iff_of_false nofun nofun
  | ok b =>
    show some b = some a ↔ _
    simp

theorem toOption_mapError {ε ε' α : Type} (x : Except ε α) (f : ε → ε') :
    (x.mapError f).toOption = x.toOption := by
  cases x <;> rfl

/-- What is said of a fault in other words succeeds just if it did before. -/
theorem mapError_eq_ok {ε ε' α : Type} {x : Except ε α} {f : ε → ε'} {a : α} :
    x.mapError f = .ok a ↔ x = .ok a := by
  rw [← toOption_eq_some, toOption_mapError, toOption_eq_some]

theorem toOption_mapM {ε α β : Type} (f : α → Except ε β) (as : List α) :
    (as.mapM f).toOption = as.mapM fun a => (f a).toOption := by
  induction as with
  | nil => rfl
  | cons a as ih =>
    rw [List.mapM_cons, List.mapM_cons, ← ih]
    cases f a with
    | error e => rfl
    | ok b => cases as.mapM f <;> rfl

/-- A list succeeds just if each of its items does, and its results are theirs in the same order. -/
theorem mapM_eq_ok_iff {ε α β : Type} {f : α → Except ε β} {as : List α} {bs : List β} :
    as.mapM f = .ok bs ↔ List.Forall₂ (fun a b => f a = .ok b) as bs := by
  induction as generalizing bs with
  | nil =>
    rw [List.forall₂_nil_left_iff, eq_comm]
    exact ⟨Except.ok.inj, congrArg Except.ok⟩
  | cons a as ih =>
    rw [List.mapM_cons, bind_eq_ok, List.forall₂_cons_left_iff]
    constructor
    · rintro ⟨b, hb, hrest⟩
      obtain ⟨bs', hbs, ⟨⟩⟩ := bind_eq_ok.mp hrest
      exact ⟨b, bs', hb, ih.mp hbs, rfl⟩
    · rintro ⟨b, bs', hb, hbs, rfl⟩
      exact ⟨b, hb, bind_eq_ok.mpr ⟨bs', ih.mpr hbs, rfl⟩⟩

/-- Every result of a list comes from one of its items. -/
theorem exists_of_mapM_ok {ε α β : Type} {f : α → Except ε β} {as : List α} {bs : List β}
    (h : as.mapM f = .ok bs) : ∀ b ∈ bs, ∃ a ∈ as, f a = .ok b := by
  have hall := mapM_eq_ok_iff.mp h
  clear h
  induction hall with
  | nil => exact nofun
  | cons hb _ ih =>
    rw [List.forall_mem_cons]
    refine ⟨⟨_, List.mem_cons_self, hb⟩, fun c hc => ?_⟩
    obtain ⟨a, ha, hf⟩ := ih c hc
    exact ⟨a, List.mem_cons_of_mem _ ha, hf⟩

/-! ### Literals -/

namespace Registry

variable {registry : Registry} {s : Schema} {t : FieldType} {field literal : String}

/-- A literal has the value that the registry reads. -/
theorem convertTo_eq_ok {v : Value} :
    registry.convertTo s t field literal = .ok v ↔ registry.read s t literal = .ok v :=
  mapError_eq_ok

theorem toOption_convertTo : (registry.convertTo s t field literal).toOption =
    (registry.read s t literal).toOption :=
  toOption_mapError _ _

theorem toOption_mapM_convertTo (field : String) (os : List Operand) :
    (os.mapM fun o => registry.convertTo s t field o.text).toOption =
      os.mapM fun o => (registry.read s t o.text).toOption := by
  simp only [toOption_mapM, toOption_convertTo]

end Registry

/-! ### Compilations -/

namespace Compilation

variable {σ J α β : Type}

/-- The result of a compilation that starts from this progress, and the progress then. -/
def runFrom (x : Compilation σ J α) (p : Progress σ J) : Except CompileError α × Progress σ J :=
  x.run p

theorem runFrom_pure (a : α) (p : Progress σ J) :
    (pure a : Compilation σ J α).runFrom p = (.ok a, p) := rfl

/-- A fault ends the compilation, and what has been changed until then stays changed. -/
theorem runFrom_bind (x : Compilation σ J α) (f : α → Compilation σ J β) (p : Progress σ J) :
    (x >>= f).runFrom p =
      match x.runFrom p with
      | (.ok a, q) => (f a).runFrom q
      | (.error e, q) => (.error e, q) := by
  have hb : ∀ g : Except CompileError α → StateM (Progress σ J) (Except CompileError β),
      (x.run >>= g) p = g (x.run p).1 (x.run p).2 := fun _ => rfl
  unfold runFrom
  rw [ExceptT.run_bind, hb]
  rcases x.run p with ⟨e | a, q⟩ <;> rfl

theorem runFrom_bind_ok {x : Compilation σ J α} {f : α → Compilation σ J β} {p q : Progress σ J}
    {a : α} (h : x.runFrom p = (.ok a, q)) : (x >>= f).runFrom p = (f a).runFrom q := by
  rw [runFrom_bind, h]

theorem runFrom_bind_error {x : Compilation σ J α} {f : α → Compilation σ J β}
    {p q : Progress σ J} {e : CompileError} (h : x.runFrom p = (.error e, q)) :
    (x >>= f).runFrom p = (.error e, q) := by
  rw [runFrom_bind, h]

/-- What changes nothing can be run on its own. -/
theorem runFrom_bind_of {x : Compilation σ J α} {f : α → Compilation σ J β} {p : Progress σ J}
    {r : Except CompileError α} {g : α → Except CompileError β} (hx : x.runFrom p = (r, p))
    (hf : ∀ a, (f a).runFrom p = (g a, p)) : (x >>= f).runFrom p = (r >>= g, p) := by
  cases r with
  | error e => exact runFrom_bind_error hx
  | ok a => exact (runFrom_bind_ok hx).trans (hf a)

theorem runFrom_build (step : StateM σ α) (p : Progress σ J) :
    (build step : Compilation σ J α).runFrom p =
      (.ok (step p.backend).1, { p with backend := (step p.backend).2 }) := rfl

theorem runFrom_fieldType? (s : Schema) (owner field : String) (p : Progress σ J) :
    (fieldType? s owner field : Compilation σ J (Option FieldType)).runFrom p =
      (.ok (p.cache.lookup s owner field).1,
        { p with cache := (p.cache.lookup s owner field).2 }) := rfl

theorem runFrom_joinAt? (trail : String) (p : Progress σ J) :
    (joinAt? trail : Compilation σ J (Option J)).runFrom p = (.ok (p.joins.lookup trail), p) := rfl

theorem runFrom_rememberJoin (trail : String) (join : J) (p : Progress σ J) :
    (rememberJoin trail join : Compilation σ J Unit).runFrom p =
      (.ok (), { p with joins := (trail, join) :: p.joins }) := rfl

theorem runFrom_resolved_some (path segment : String) (a : α) (p : Progress σ J) :
    (resolved path segment (some a) : Compilation σ J α).runFrom p = (.ok a, p) := rfl

theorem runFrom_resolved_none (path segment : String) (p : Progress σ J) :
    (resolved path segment none : Compilation σ J α).runFrom p =
      (.error (.unresolved path segment), p) := rfl

end Compilation

/-- A reduction is a run that starts without joins. -/
theorem Compiler.reduce_eq {σ P J F : Type} (c : Compiler) (b : Backend σ P J F) (state : σ)
    (cache : FieldCache) (g : Group) :
    c.reduce b state cache g =
      ⟨((c.reduceGroup b g).runFrom ⟨state, [], cache⟩).1,
        ((c.reduceGroup b g).runFrom ⟨state, [], cache⟩).2.backend,
        ((c.reduceGroup b g).runFrom ⟨state, [], cache⟩).2.cache⟩ := rfl

end RecordFilter

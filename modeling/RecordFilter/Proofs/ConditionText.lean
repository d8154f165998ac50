import RecordFilter.Proofs.Alone
import RecordFilter.Proofs.Meaning
import RecordFilter.Proofs.ValueText

/-!
# Conditions in JSON

The JSON text of a condition leaves out the numbers of joins, writes a path and its field as one text and
has strings for values of many types. Nothing that matters is lost by this: two conditions that come from
texts and have the same JSON text are the same up to the numbers of joins (`Condition.unjoined_of_toJson`),
and so no record tells them apart (`compile_toJson_meaning`).

The operator of a node says of which kind it is (`NodeKind.op_inj`). A path that has been read has no empty
segment, so its points are where the segments end (`FieldRef.eq_of_dotted`); the path has one type in the
schema, and with the type a value can be told from its text.
-/

namespace RecordFilter

/-! ### Members of objects -/

namespace Json

theorem lookup_member_cons (k key : String) (value : Json) (ms : List (String × Json)) :
    ((key, value) :: ms).lookup k = if k = key then some value else ms.lookup k := by
  rw [List.lookup_cons]
  by_cases hk : k = key
  · rw [if_pos hk, beq_iff_eq.mpr hk]
  · rw [if_neg hk, beq_eq_false_iff_ne.mpr hk]

theorem lookup_insertMember (key k : String) (value : Json) (ms : List (String × Json)) :
    (insertMember key value ms).lookup k = if k = key then some value else ms.lookup k := by
  induction ms with
  | nil => exact lookup_member_cons k key value []
  | cons m ms ih =>
    obtain ⟨key', value'⟩ := m
    unfold insertMember
    by_cases heq : key = key'
    · subst heq
      rw [if_pos rfl, lookup_member_cons, lookup_member_cons]
      split <;> rfl
    · rw [if_neg heq]
      split
      · exact lookup_member_cons k key value _
      · rw [lookup_member_cons, lookup_member_cons, ih]
        by_cases hk : k = key
        · have hne : k ≠ key' := hk ▸ heq
          simp only [if_pos hk, if_neg hne]
        · simp only [if_neg hk]

/-- **A member of an object** is the last one with its key. -/
theorem get?_ofMembers (k : String) (ms : List (String × Json)) :
    (ofMembers ms).get? k = ms.reverse.lookup k := by
  have hfold : ∀ ms acc : List (String × Json),
      (ms.foldl (fun ms m => insertMember m.1 m.2 ms) acc).lookup k = (ms.reverse ++ acc).lookup k := by
    intro ms
    induction ms with
    | nil => exact fun _ => rfl
    | cons m ms ih =>
      intro acc
      rw [List.foldl_cons, ih, List.reverse_cons, List.append_assoc, List.lookup_append,
        List.lookup_append, lookup_insertMember, List.singleton_append, lookup_member_cons]
  have h := hfold ms []
  rwa [List.append_nil] at h

end Json

/-! ### Kinds of nodes -/

/-- What the operator of a node says of it. -/
inductive NodeKind
  | compare (op : Comparison)
  | test (t : Test)
  | like (negated : Bool)
  | member
  | between
  | not
  | and
  | or
deriving DecidableEq

namespace NodeKind

def op : NodeKind → String
  | compare op => op.symbol
  | test t => t.symbol
  | like negated => if negated then "not like" else "like"
  | member => "in"
  | between => "between"
  | not => "not"
  | and => "and"
  | or => "or"

def all : List NodeKind :=
  [compare .equal, compare .notEqual, compare .greater, compare .greaterOrEqual, compare .less,
    compare .lessOrEqual, test .isTrue, test .isFalse, test .isNull, test .isNotNull, like false,
    like true, member, between, not, and, or]

theorem mem_all (k : NodeKind) : k ∈ all := by
  cases k with
  | compare op => cases op <;> decide
  | test t => cases t <;> decide
  | like negated => cases negated <;> decide
  | _ => decide

/-- **Nodes of different kinds have different operators.** -/
theorem op_inj {k l : NodeKind} (h : k.op = l.op) : k = l := by
  have hall : ∀ k ∈ all, ∀ l ∈ all, k.op = l.op → k = l := by decide
  exact hall k (mem_all k) l (mem_all l) h

end NodeKind

namespace Condition

def kind : Condition → NodeKind
  | compare _ op _ => .compare op
  | test _ t => .test t
  | like _ _ negated => .like negated
  | member _ _ => .member
  | between _ _ _ => .between
  | not _ => .not
  | and _ _ => .and
  | or _ _ => .or

theorem get?_nodeJson (k op : String) (f : FieldRef) (rest : List (String × Json)) :
    (nodeJson op f rest).get? k =
      (rest.reverse ++ [("field", Json.string f.dotted), ("op", Json.string op)]).lookup k := by
  unfold nodeJson
  rw [Json.get?_ofMembers, List.reverse_append]
  rfl

theorem get?_op (c : Condition) : c.toJson.get? "op" = some (Json.string c.kind.op) := by
  cases c <;> simp [toJson, get?_nodeJson, Json.get?_ofMembers, kind, NodeKind.op, List.lookup_cons]

theorem kind_of_toJson {c d : Condition} (h : c.toJson = d.toJson) : c.kind = d.kind := by
  have hop := congrArg (Json.get? "op") h
  rw [get?_op, get?_op] at hop
  exact NodeKind.op_inj (Json.string.inj (Option.some.inj hop))

end Condition

/-! ### Fields -/

namespace FieldRef

theorem dotted_eq_trailOf {f : FieldRef} (h : Named f.path) : f.dotted = trailOf (f.path ++ [f.name]) := by
  have hpath : ".".intercalate f.path = trailOf f.path := by
    rw [← String.toList_inj, String.toList_intercalate, toList_trailOf, h.stripped]
    rfl
  unfold dotted
  dsimp only
  rw [hpath, trailOf_concat]
  rfl

/-- **The text of a field says where its segments end.** -/
theorem eq_of_dotted {f g : FieldRef} (hf : Named (f.path ++ [f.name]))
    (hg : Named (g.path ++ [g.name])) (h : f.dotted = g.dotted) : f.path = g.path ∧ f.name = g.name := by
  rw [dotted_eq_trailOf hf.left, dotted_eq_trailOf hg.left] at h
  obtain ⟨hpath, hname⟩ := List.append_inj' (trailOf_inj hf hg h) rfl
  exact ⟨hpath, List.singleton_inj.mp hname⟩

theorem unjoined_congr {f g : FieldRef} (hpath : f.path = g.path) (hname : f.name = g.name) :
    f.unjoined = g.unjoined := by
  unfold unjoined
  rw [hpath, hname]

end FieldRef

/-! ### Tests of fields -/

/-- The test is one that a text can ask for: its field has a path without empty segments and a type, and its
values have been read for the type. -/
structure Atom.Readable (s : Schema) (root : String) (a : Atom) : Prop where
  named : Named (a.field.path ++ [a.field.name])
  read : ∃ t, s.typeAlong? root (a.field.path ++ [a.field.name]) = some t ∧
    ∀ v ∈ a.values, ∃ literal, Registry.builtIn.read s t literal = .ok v

/-- No value is held against a field of binary floating point. -/
def Atom.Unfloating (s : Schema) (root : String) (a : Atom) : Prop :=
  a.values ≠ [] → ∀ t, s.typeAlong? root (a.field.path ++ [a.field.name]) = some t →
    t ≠ .single ∧ t ≠ .double

section atoms

variable {s : Schema} {root : String}

theorem eq_of_map_toJson {t : FieldType} (ht : t ≠ .single ∧ t ≠ .double) : ∀ {vs ws : List Value},
    (∀ v ∈ vs, ∃ literal, Registry.builtIn.read s t literal = .ok v) →
      (∀ w ∈ ws, ∃ literal, Registry.builtIn.read s t literal = .ok w) →
        vs.map Value.toJson = ws.map Value.toJson → vs = ws
  | [], [], _, _, _ => rfl
  | [], _ :: _, _, _, h => by cases h
  | _ :: _, [], _, _, h => by cases h
  | v :: vs, w :: ws, hv, hw, h => by
    rw [List.forall_mem_cons] at hv hw
    obtain ⟨hhead, htail⟩ := List.cons.inj h
    obtain ⟨⟨literal, hread⟩, hvs⟩ := hv
    obtain ⟨⟨literal', hread'⟩, hws⟩ := hw
    have hvtype := (Registry.belongsTo_of_read hread).type
    have hwtype := (Registry.belongsTo_of_read hread').type
    have hsame : v = w := Value.toJson_inj (Registry.regular_of_read hread)
      (Registry.regular_of_read hread') (hvtype.trans hwtype.symm) (hvtype ▸ ht) hhead
    rw [hsame, eq_of_map_toJson ht hvs hws htail]

/-- **A test is told from the texts of its field and its values.** -/
theorem Atom.Readable.eq_of_texts {a b : Atom} (ha : a.Readable s root) (hb : b.Readable s root)
    (hf : a.Unfloating s root) (hfield : a.field.dotted = b.field.dotted)
    (hvalues : a.values.map Value.toJson = b.values.map Value.toJson) :
    a.field.unjoined = b.field.unjoined ∧ a.values = b.values := by
  obtain ⟨hpath, hname⟩ := FieldRef.eq_of_dotted ha.named hb.named hfield
  refine ⟨FieldRef.unjoined_congr hpath hname, ?_⟩
  obtain ⟨t, ht, hread⟩ := ha.read
  obtain ⟨t', ht', hread'⟩ := hb.read
  rw [← hpath, ← hname, ht] at ht'
  cases ht'
  by_cases hne : a.values = []
  · rw [hne] at hvalues ⊢
    exact (List.map_eq_nil_iff.mp hvalues.symm).symm
  · exact eq_of_map_toJson (hf hne t ht) hread hread' hvalues

end atoms

/-! ### Conditions -/

namespace Condition

/-- The test of a node that is no connective. -/
def test? : Condition → Option Atom
  | compare f _ v => some ⟨f, [v]⟩
  | test f _ => some ⟨f, []⟩
  | like f _ _ => some ⟨f, []⟩
  | member f vs => some ⟨f, vs⟩
  | between f low high => some ⟨f, [low, high]⟩
  | _ => none

theorem mem_atoms_of_test? {c : Condition} {a : Atom} (h : c.test? = some a) : a ∈ c.atoms := by
  cases c <;> cases h <;> exact List.mem_singleton_self _

theorem get?_field {c : Condition} {a : Atom} (h : c.test? = some a) :
    c.toJson.get? "field" = some (Json.string a.field.dotted) := by
  cases c <;> cases h <;> simp [toJson, get?_nodeJson, List.lookup_cons]

/-- The texts of the field and of the values are in the node. -/
theorem texts_of_toJson {c d : Condition} {a b : Atom} (ha : c.test? = some a) (hb : d.test? = some b)
    (h : c.toJson = d.toJson) :
    a.field.dotted = b.field.dotted ∧ a.values.map Value.toJson = b.values.map Value.toJson := by
  have hget := fun key => congrArg (Json.get? key) h
  have hfield := hget "field"
  rw [get?_field ha, get?_field hb] at hfield
  refine ⟨Json.string.inj (Option.some.inj hfield), ?_⟩
  have hkind := kind_of_toJson h
  cases c with
  | compare f op v =>
    cases d with
    | compare g op' w =>
      cases ha
      cases hb
      have hvalue : v.toJson = w.toJson := by
        simpa [toJson, get?_nodeJson, List.lookup_cons] using hget "value"
      exact congrArg (fun j => [j]) hvalue
    | _ => cases hkind
  | test f t =>
    cases d with
    | test g t' =>
      cases ha
      cases hb
      rfl
    | _ => cases hkind
  | like f pattern negated =>
    cases d with
    | like g pattern' negated' =>
      cases ha
      cases hb
      rfl
    | _ => cases hkind
  | member f vs =>
    cases d with
    | member g ws =>
      cases ha
      cases hb
      have hvalues := hget "values"
      simp only [toJson, get?_nodeJson] at hvalues
      exact Json.array.inj (Option.some.inj hvalues)
    | _ => cases hkind
  | between f low high =>
    cases d with
    | between g low' high' =>
      cases ha
      cases hb
      have hlow : low.toJson = low'.toJson := by
        simpa [toJson, get?_nodeJson, List.lookup_cons] using hget "low"
      have hhigh : high.toJson = high'.toJson := by
        simpa [toJson, get?_nodeJson, List.lookup_cons] using hget "high"
      exact congrArg₂ (fun j k => [j, k]) hlow hhigh
    | _ => cases hkind
  | _ => cases ha

/-- Both sides of a connective are in the node. -/
theorem sides_of_toJson {op : Connective} {l r l' r' : Condition}
    (h : (combine op l r).toJson = (combine op l' r').toJson) :
    l.toJson = l'.toJson ∧ r.toJson = r'.toJson := by
  have hleft := congrArg (Json.get? "left") h
  have hright := congrArg (Json.get? "right") h
  cases op with
  | and =>
    exact ⟨by simpa [combine, toJson, Json.get?_ofMembers, List.lookup_cons] using hleft,
      by simpa [combine, toJson, Json.get?_ofMembers, List.lookup_cons] using hright⟩
  | or =>
    exact ⟨by simpa [combine, toJson, Json.get?_ofMembers, List.lookup_cons] using hleft,
      by simpa [combine, toJson, Json.get?_ofMembers, List.lookup_cons] using hright⟩

variable {s : Schema} {root : String}

/-- Two nodes with the same JSON text test the same field for the same values. -/
theorem test_of_toJson {c d : Condition} (hc : ∀ a ∈ c.atoms, a.Readable s root)
    (hd : ∀ a ∈ d.atoms, a.Readable s root) (hf : ∀ a ∈ c.atoms, a.Unfloating s root)
    (h : c.toJson = d.toJson) {a b : Atom} (ha : c.test? = some a) (hb : d.test? = some b) :
    a.field.unjoined = b.field.unjoined ∧ a.values = b.values := by
  obtain ⟨hfield, hvalues⟩ := texts_of_toJson ha hb h
  have hac := mem_atoms_of_test? ha
  exact (hc a hac).eq_of_texts (hd b (mem_atoms_of_test? hb)) (hf a hac) hfield hvalues

/-- **A condition is told from its JSON text**, up to the numbers of joins. -/
theorem unjoined_of_toJson {c d : Condition} (hc : ∀ a ∈ c.atoms, a.Readable s root)
    (hd : ∀ a ∈ d.atoms, a.Readable s root) (hf : ∀ a ∈ c.atoms, a.Unfloating s root)
    (h : c.toJson = d.toJson) : c.unjoined = d.unjoined := by
  induction c generalizing d with
  | compare f op v =>
    cases d with
    | compare g op' w =>
      cases kind_of_toJson h
      obtain ⟨hfield, hvalues⟩ := test_of_toJson hc hd hf h rfl rfl
      exact congrArg₂ (compare · op ·) hfield (List.singleton_inj.mp hvalues)
    | _ => cases kind_of_toJson h
  | test f t =>
    cases d with
    | test g t' =>
      cases kind_of_toJson h
      obtain ⟨hfield, -⟩ := test_of_toJson hc hd hf h rfl rfl
      exact congrArg (test · t) hfield
    | _ => cases kind_of_toJson h
  | like f pattern negated =>
    cases d with
    | like g pattern' negated' =>
      cases kind_of_toJson h
      obtain ⟨hfield, -⟩ := test_of_toJson hc hd hf h rfl rfl
      have hpattern : pattern = pattern' := by
        simpa [toJson, get?_nodeJson, List.lookup_cons] using congrArg (Json.get? "pattern") h
      exact congrArg₂ (like · · negated) hfield hpattern
    | _ => cases kind_of_toJson h
  | member f vs =>
    cases d with
    | member g ws =>
      obtain ⟨hfield, hvalues⟩ := test_of_toJson hc hd hf h rfl rfl
      exact congrArg₂ member hfield hvalues
    | _ => cases kind_of_toJson h
  | between f low high =>
    cases d with
    | between g low' high' =>
      obtain ⟨hfield, hvalues⟩ := test_of_toJson hc hd hf h rfl rfl
      cases hvalues
      exact congrArg (between · low high) hfield
    | _ => cases kind_of_toJson h
  | not c ih =>
    cases d with
    | not d =>
      have hinner : c.toJson = d.toJson := by
        simpa [toJson, Json.get?_ofMembers, List.lookup_cons] using congrArg (Json.get? "condition") h
      exact congrArg not (ih hc hd hf hinner)
    | _ => cases kind_of_toJson h
  | and l r ihl ihr =>
    cases d with
    | and l' r' =>
      obtain ⟨hleft, hright⟩ := @sides_of_toJson .and l r l' r' h
      obtain ⟨hcl, hcr⟩ := List.forall_mem_append.mp hc
      obtain ⟨hdl, hdr⟩ := List.forall_mem_append.mp hd
      obtain ⟨hfl, hfr⟩ := List.forall_mem_append.mp hf
      exact congrArg₂ and (ihl hcl hdl hfl hleft) (ihr hcr hdr hfr hright)
    | _ => cases kind_of_toJson h
  | or l r ihl ihr =>
    cases d with
    | or l' r' =>
      obtain ⟨hleft, hright⟩ := @sides_of_toJson .or l r l' r' h
      obtain ⟨hcl, hcr⟩ := List.forall_mem_append.mp hc
      obtain ⟨hdl, hdr⟩ := List.forall_mem_append.mp hd
      obtain ⟨hfl, hfr⟩ := List.forall_mem_append.mp hf
      exact congrArg₂ or (ihl hcl hdl hfl hleft) (ihr hcr hdr hfr hright)
    | _ => cases kind_of_toJson h

/-- A record is not asked for the numbers of joins. -/
theorem holds_unjoined (record : Json) (c : Condition) : c.unjoined.holds record = c.holds record := by
  induction c with
  | not c ih => exact congrArg Bool.not ih
  | and l r ihl ihr => exact congrArg₂ Bool.and ihl ihr
  | or l r ihl ihr => exact congrArg₂ Bool.or ihl ihr
  | _ => rfl

theorem atoms_unjoined (c : Condition) :
    c.unjoined.atoms = c.atoms.map fun a => ⟨a.field.unjoined, a.values⟩ := by
  induction c with
  | not c ih => exact ih
  | and l r ihl ihr => exact (congrArg₂ _ ihl ihr).trans List.map_append.symm
  | or l r ihl ihr => exact (congrArg₂ _ ihl ihr).trans List.map_append.symm
  | _ => rfl

end Condition

/-! ### Texts -/

/-- A path that is resolved has the type that the schema declares at its end. -/
theorem Schema.pieces_of_resolve {s : Schema} {root path : String} {r : ResolvedPath Join FieldRef}
    (h : s.resolve root path = .ok r) :
    r.field.path ++ [r.field.name] = Text.pieces '.' path ∧
      s.typeAlong? root (r.field.path ++ [r.field.name]) = some r.type := by
  unfold Schema.resolve at h
  dsimp only at h
  split at h
  · cases h
  · next owner howner =>
    split at h
    · cases h
    · next t ht =>
      cases h
      refine ⟨(AttributePath.pieces_eq path).symm, ?_⟩
      dsimp only
      rw [Schema.typeAlong?_concat, howner]
      exact ht

namespace Compiler

variable {s : Schema} {root : String}

/-- What a predicate becomes tests its path for values that are read for the type at the end of it. -/
theorem readable_of_conditionAlone {p : Predicate} {cond : Condition}
    (hn : "" ∉ Text.pieces '.' p.path) (h : standard.conditionAlone s root p = .ok cond) :
    ∀ a ∈ cond.atoms, a.Readable s root := by
  obtain ⟨r, hr, hcond⟩ := bind_eq_ok.mp h
  obtain ⟨hpieces, htype⟩ := Schema.pieces_of_resolve hr
  have hnamed : Named (r.field.path ++ [r.field.name]) := hpieces ▸ named_pieces hn
  have hreadable : ∀ vs : List Value,
      (∀ v ∈ vs, ∃ literal, Registry.builtIn.read s r.type literal = .ok v) →
        ∀ a ∈ [(⟨r.field, vs⟩ : Atom)], a.Readable s root := by
    intro vs hvs a ha
    rw [List.mem_singleton.mp ha]
    exact ⟨hnamed, r.type, htype, hvs⟩
  cases conditionOf_of_conditionFor hcond with
  | compare operator last value =>
    refine hreadable _ ?_
    simpa using ⟨_, Registry.convertTo_eq_ok.mp value⟩
  | test => exact hreadable [] nofun
  | like => exact hreadable [] nofun
  | @member negated vs operator values =>
    have hvs : ∀ v ∈ vs, ∃ literal, Registry.builtIn.read s r.type literal = .ok v := by
      intro v hv
      obtain ⟨o, -, ho⟩ := exists_of_mapM_ok values v hv
      exact ⟨o.text, Registry.convertTo_eq_ok.mp ho⟩
    cases negated <;> exact hreadable vs hvs
  | between operator bounds lowValue highValue =>
    refine hreadable _ ?_
    simpa using ⟨⟨_, Registry.convertTo_eq_ok.mp lowValue⟩, _, Registry.convertTo_eq_ok.mp highValue⟩

/-- **The tests of what a text compiles to** can be told from their texts. -/
theorem readable_of_compile {old : List JoinRecord} {cache : FieldCache} {text : String}
    {cond : Condition} (hcache : cache.Coherent s)
    (h : (standard.compile (Condition.backend s root) old cache text).result = .ok cond) :
    ∀ a ∈ cond.atoms, a.Readable s root := by
  obtain ⟨g, st, hg, hrun, -⟩ := compile_ok h
  have hall : AllNamed standard g.predicates := allNamed_of_parse rfl hg
  obtain ⟨-, -, hbecomes⟩ := reduceGroup_built (keptBy_behind hall old) (List.prefix_refl _)
    (Behind.start hcache standard root old) hrun
  intro a ha
  obtain ⟨p, hp, c, hc, hac⟩ := hbecomes.exists_predicate ha
  have hunjoined := readable_of_conditionAlone (hall p hp) hc ⟨a.field.unjoined, a.values⟩ (by
    rw [Condition.atoms_unjoined]
    exact List.mem_map.mpr ⟨a, hac, rfl⟩)
  exact ⟨hunjoined.named, hunjoined.read⟩

end Compiler

/-- **The JSON text of a condition says what the condition means.** If two texts compile with the built-in
readers and without a change of paths, no value of the first one is held against a field of binary floating
point, and the conditions have the same JSON text, then the same records satisfy them. It does not matter
which joins there were before, what the caches know of the schema, and which patterns the evaluators have
met. -/
theorem compile_toJson_meaning {s : Schema} {root text text' : String} {old old' : List JoinRecord}
    {cache cache' : FieldCache} {cond cond' : Condition} (hcache : cache.Coherent s)
    (hcache' : cache'.Coherent s)
    (h : (Compiler.standard.compile (Condition.backend s root) old cache text).result = .ok cond)
    (h' : (Compiler.standard.compile (Condition.backend s root) old' cache' text').result = .ok cond')
    (hf : ∀ a ∈ cond.atoms, a.Unfloating s root) (hjson : cond.toJson = cond'.toJson) (record : Json)
    {e e' : Evaluator} (he : e.Faithful) (he' : e'.Faithful) :
    ((Evaluator.holds record cond).run e).1 = ((Evaluator.holds record cond').run e').1 := by
  have hsame : cond.unjoined = cond'.unjoined := Condition.unjoined_of_toJson
    (Compiler.readable_of_compile hcache h) (Compiler.readable_of_compile hcache' h') hf hjson
  calc ((Evaluator.holds record cond).run e).1
      = cond.holds record := (Evaluator.holds_spec record cond he).1
    _ = cond.unjoined.holds record := (cond.holds_unjoined record).symm
    _ = cond'.unjoined.holds record := by rw [hsame]
    _ = cond'.holds record := cond'.holds_unjoined record
    _ = ((Evaluator.holds record cond').run e').1 := (Evaluator.holds_spec record cond' he').1.symm

/-- The same JSON text from differently written literals; the first text has made a join before the second is
compiled. -/
theorem compile_toJson_meaning_second :
    let s : Schema := ⟨⟨0⟩, [⟨"Book", none, [⟨"printed", .date⟩, ⟨"author", .entity "Author"⟩]⟩,
      ⟨"Author", none, [⟨"debt", .decimal⟩]⟩], []⟩
    let joins : List JoinRecord := [⟨0, none, "author", "Author"⟩]
    let first := "author.debt > '1.50' && printed != '1999-01-02'"
    let second := "(author.debt > '+1.5_0') and printed != ' 1999-1-2'"
    ∃ cond cond', (Compiler.standard.compile (Condition.backend s "Book") [] .empty first).result =
        .ok cond ∧
      (Compiler.standard.compile (Condition.backend s "Book") joins .empty second).result =
        .ok cond' ∧ cond ≠ cond' ∧ cond.toJson = cond'.toJson ∧
      ∀ record, ((Evaluator.holds record cond).run .new).1 =
        ((Evaluator.holds record cond').run .new).1 := by
  intro s joins first second
  have hfirst : (Compiler.standard.compile (Condition.backend s "Book") [] .empty first).result =
      .ok (.and (.compare ⟨["author"], "debt", some 0⟩ .greater (.decimal ⟨false, 150, 2⟩))
        (.compare ⟨[], "printed", none⟩ .notEqual (.date ⟨1999, 1, 2⟩))) := by
    decide +kernel
  have hsecond : (Compiler.standard.compile (Condition.backend s "Book") joins .empty second).result =
      .ok (.and (.compare ⟨["author"], "debt", some 1⟩ .greater (.decimal ⟨false, 150, 2⟩))
        (.compare ⟨[], "printed", none⟩ .notEqual (.date ⟨1999, 1, 2⟩))) := by
    decide +kernel
  refine ⟨_, _, hfirst, hsecond, by decide, rfl, fun record => ?_⟩
  refine compile_toJson_meaning (FieldCache.empty_coherent s) (FieldCache.empty_coherent s) hfirst hsecond
    ?_ rfl record Evaluator.faithful_new Evaluator.faithful_new
  intro a ha _ t ht
  rcases List.mem_pair.mp ha with rfl | rfl
  · cases ht
    decide
  · cases ht
    decide

end RecordFilter

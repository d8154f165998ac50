import RecordFilter.Compile.Path
import Mathlib.Data.List.Infix

/-!
# Trails

Joins are remembered under a text, the trail (`extendTrail`), but what they stand for is a list of
relationships.  As long as no relationship is empty or has a point in it, the two are the same thing:
`trailOf_inj`.  The relationships of a path never have a point in them, and those of a path without an
empty segment are named (`named_relations`).  Empty ones at the beginning are lost in the text, and nothing
else is: `trailOf_eq_iff`.

`prefixesFrom q rest` are the relationships up to each place of `rest` behind `q`, the shorter first;
from the start of a path they are its non-empty beginnings (`prefixesFrom_nil`).
-/

namespace RecordFilter

/-! ### Named relationships -/

/-- None of the relationships is empty or has a point in it. -/
def Named (q : List String) : Prop := ∀ x ∈ q, x ≠ "" ∧ '.' ∉ x.toList

theorem Named.left {q r : List String} (h : Named (q ++ r)) : Named q := fun x hx =>
  h x (List.mem_append_left r hx)

theorem not_mem_of_mem_pieces {sep : Char} {s x : String} (h : x ∈ Text.pieces sep s) :
    sep ∉ x.toList := by
  unfold Text.pieces at h
  obtain ⟨cs, hcs, rfl⟩ := List.mem_map.mp h
  rw [String.toList_ofList]
  exact Text.not_mem_of_mem_splitAt hcs

/-- A path is its relationships and its field. -/
theorem AttributePath.pieces_eq (path : String) :
    Text.pieces '.' path = (ofText path).relations ++ [(ofText path).field] := by
  have hne : Text.pieces '.' path ≠ [] := by
    unfold Text.pieces
    simp [Text.splitAt_ne_nil]
  have hlast : (ofText path).field = (Text.pieces '.' path).getLast hne := by
    simp only [ofText, List.getLast?_eq_some_getLast hne, Option.getD_some]
  rw [hlast]
  exact (List.dropLast_append_getLast hne).symm

theorem named_pieces {path : String} (h : "" ∉ Text.pieces '.' path) :
    Named (Text.pieces '.' path) := fun _ hx =>
  ⟨fun he => h (he ▸ hx), not_mem_of_mem_pieces hx⟩

/-- **The relationships of a path without an empty segment are named.** -/
theorem named_relations {path : String} (h : "" ∉ Text.pieces '.' path) :
    Named (AttributePath.ofText path).relations := by
  have hnamed := named_pieces h
  rw [AttributePath.pieces_eq] at hnamed
  exact hnamed.left

/-! ### The text of a trail -/

/-- The text under which the join behind these relationships is remembered. -/
def trailOf (q : List String) : String := q.foldl extendTrail ""

theorem trailOf_concat (q : List String) (x : String) :
    trailOf (q ++ [x]) = extendTrail (trailOf q) x := by
  unfold trailOf
  rw [List.foldl_concat]

theorem extendTrail_empty (x : String) : extendTrail "" x = x := by
  unfold extendTrail
  rw [if_pos rfl]

theorem toList_extendTrail {trail : String} (h : trail ≠ "") (x : String) :
    (extendTrail trail x).toList = trail.toList ++ '.' :: x.toList := by
  unfold extendTrail
  rw [if_neg h]
  simp

theorem extendTrail_ne_empty {trail : String} (h : trail ≠ "") (x : String) :
    extendTrail trail x ≠ "" := by
  intro he
  have := congrArg String.toList he
  rw [toList_extendTrail h] at this
  simp at this

theorem toList_foldl_extendTrail (rest : List String) {trail : String} (h : trail ≠ "") :
    (rest.foldl extendTrail trail).toList =
      trail.toList ++ rest.flatMap fun x => '.' :: x.toList := by
  induction rest generalizing trail with
  | nil => simp
  | cons x rest ih =>
    rw [List.foldl_cons, ih (extendTrail_ne_empty h x), toList_extendTrail h]
    simp

theorem intercalate_cons_eq (sep : Char) (cs : List Char) (ps : List (List Char)) :
    List.intercalate [sep] (cs :: ps) = cs ++ ps.flatMap (sep :: ·) := by
  induction ps generalizing cs with
  | nil => simp [List.intercalate]
  | cons p ps ih =>
    rw [List.intercalate_cons_cons, ih p]
    simp

/-- No relationship has a point in it. -/
def Pointless (q : List String) : Prop := ∀ x ∈ q, '.' ∉ x.toList

theorem Named.pointless {q : List String} (h : Named q) : Pointless q := fun x hx => (h x hx).2

/-- The relationships from the first one on that is not empty. -/
def stripped (q : List String) : List String := q.dropWhile (· == "")

theorem stripped_of_ne {x : String} (hx : x ≠ "") (q : List String) : stripped (x :: q) = x :: q := by
  rw [stripped, List.dropWhile_cons_of_neg (by simpa using hx)]

theorem stripped_empty (q : List String) : stripped ("" :: q) = stripped q :=
  List.dropWhile_cons_of_pos rfl

theorem Named.stripped {q : List String} (h : Named q) : RecordFilter.stripped q = q := by
  cases q with
  | nil => rfl
  | cons x q => exact stripped_of_ne (h x List.mem_cons_self).1 q

theorem head_stripped {q rest : List String} {x : String} (h : stripped q = x :: rest) : x ≠ "" := by
  have hx := List.head?_dropWhile_not (· == "") q
  rw [show q.dropWhile (· == "") = x :: rest from h] at hx
  simpa using hx

/-- Empty relationships at the beginning leave no mark in a trail; the others have a point between each
two of them. -/
theorem toList_trailOf (q : List String) :
    (trailOf q).toList = List.intercalate ['.'] ((stripped q).map String.toList) := by
  induction q with
  | nil => rfl
  | cons x q ih =>
    by_cases hx : x = ""
    · subst hx
      rw [stripped_empty, ← ih]
      rfl
    · rw [stripped_of_ne hx, trailOf, List.foldl_cons, extendTrail_empty,
        toList_foldl_extendTrail q hx, List.map_cons, intercalate_cons_eq, List.flatMap_map]

theorem trailOf_eq_empty_iff {q : List String} : trailOf q = "" ↔ stripped q = [] := by
  rw [← String.toList_eq_nil_iff, toList_trailOf]
  constructor
  · intro h
    cases hq : stripped q with
    | nil => rfl
    | cons x rest =>
      rw [hq, List.map_cons, intercalate_cons_eq] at h
      exact absurd (String.toList_eq_nil_iff.mp (List.append_eq_nil_iff.mp h).1) (head_stripped hq)
  · intro h
    rw [h]
    rfl

theorem splitAt_trailOf {q : List String} (h : Pointless q) (hne : stripped q ≠ []) :
    Text.splitAt '.' (trailOf q).toList = (stripped q).map String.toList := by
  rw [toList_trailOf]
  refine Text.splitAt_intercalate (by simpa using hne) fun p hp => ?_
  obtain ⟨x, hx, rfl⟩ := List.mem_map.mp hp
  exact h x ((List.dropWhile_suffix _).subset hx)

/-- **Two trails are the same text just if the relationships are the same from the first one on that is not
empty.** -/
theorem trailOf_eq_iff {q r : List String} (hq : Pointless q) (hr : Pointless r) :
    trailOf q = trailOf r ↔ stripped q = stripped r := by
  constructor
  · intro h
    by_cases hne : stripped q = []
    · rw [hne, eq_comm, ← trailOf_eq_empty_iff, ← h, trailOf_eq_empty_iff, hne]
    · have hne' : stripped r ≠ [] := by
        rwa [Ne, ← trailOf_eq_empty_iff, ← h, trailOf_eq_empty_iff]
      have hm : (stripped q).map String.toList = (stripped r).map String.toList := by
        rw [← splitAt_trailOf hq hne, ← splitAt_trailOf hr hne', h]
      exact List.map_injective_iff.mpr (fun _ _ => String.toList_inj.mp) hm
  · intro h
    rw [← String.toList_inj, toList_trailOf, toList_trailOf, h]

/-- **Different named relationships have different trails.** -/
theorem trailOf_inj {q r : List String} (hq : Named q) (hr : Named r) (h : trailOf q = trailOf r) :
    q = r := by
  rwa [trailOf_eq_iff hq.pointless hr.pointless, hq.stripped, hr.stripped] at h

/-! ### Beginnings -/

/-- The relationships up to each place of `rest`, behind those of `q`. -/
def prefixesFrom : List String → List String → List (List String)
  | _, [] => []
  | q, x :: rest => (q ++ [x]) :: prefixesFrom (q ++ [x]) rest

theorem prefixesFrom_eq (q rest : List String) :
    prefixesFrom q rest = rest.inits.tail.map (q ++ ·) := by
  induction rest generalizing q with
  | nil => rfl
  | cons x rest ih =>
    rw [prefixesFrom, ih]
    cases rest with
    | nil => simp
    | cons y rest => simp [Function.comp_def]

/-- **From the start, they are the non-empty beginnings.** -/
theorem prefixesFrom_nil (rest : List String) : prefixesFrom [] rest = rest.inits.tail := by
  rw [prefixesFrom_eq]
  simp

theorem mem_prefixesFrom {q rest r : List String} :
    r ∈ prefixesFrom q rest ↔ ∃ p, p ≠ [] ∧ p <+: rest ∧ r = q ++ p := by
  induction rest generalizing q with
  | nil =>
    constructor
    · intro h
      cases h
    · rintro ⟨p, hp, hpre, -⟩
      exact absurd (List.prefix_nil.mp hpre) hp
  | cons x rest ih =>
    rw [prefixesFrom, List.mem_cons, ih]
    constructor
    · rintro (rfl | ⟨p, -, hpre, rfl⟩)
      · exact ⟨[x], by simp, by simp, rfl⟩
      · exact ⟨x :: p, by simp, List.cons_prefix_cons.mpr ⟨rfl, hpre⟩, by simp⟩
    · rintro ⟨p, hp, hpre, rfl⟩
      cases p with
      | nil => exact absurd rfl hp
      | cons y p =>
        obtain ⟨rfl, hrest⟩ := List.cons_prefix_cons.mp hpre
        by_cases hp0 : p = []
        · subst hp0
          exact Or.inl rfl
        · exact Or.inr ⟨p, hp0, hrest, by simp⟩

end RecordFilter

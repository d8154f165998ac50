import RecordFilter.Command.Basic
import RecordFilter.Proofs.Lexing
import RecordFilter.Proofs.Running

/-!
# Renamed paths

A rename is applied to texts, of which nothing is split: it looks whether the path is the old one, or has the
old one at its beginning and then a point.  This is so just if the segments of the old path are the first ones
of the path, wherever the two have their points (`Rename.applies_iff`), as a point behind a text ends its last
segment and leaves the segments before it alone.

So a list of renames stands for a list of rules on segments.  The first one that applies puts the segments of
its new path in the place of those of its old path, and no other one has a say in the matter
(`renamePath_wholeSegments`).
-/

namespace RecordFilter

/-! ### One rename -/

namespace Rename

/-- How a rename is written: both of its paths with an equals sign between them.  Neither is empty, and there
is no equals sign in the old one. -/
structure Written (text : String) (r : Rename) : Prop where
  text_eq : text = r.old ++ "=" ++ r.new
  first : '=' ∉ r.old.toList
  old_ne : r.old ≠ ""
  new_ne : r.new ≠ ""

/-- **The rename applies to the path:** the segments of the old path are the first ones of the path. -/
def Applies (r : Rename) (path : String) : Prop := Text.pieces '.' r.old <+: Text.pieces '.' path

instance (r : Rename) (path : String) : Decidable (r.Applies path) :=
  inferInstanceAs (Decidable (_ <+: _))

variable {r : Rename} {path text : String}

theorem written_of_read? (h : read? text = some r) : Written text r := by
  unfold read? at h
  dsimp only at h
  split at h
  · cases h
  · rename_i c new hbehind
    have hc := stopsAt_dropWhile (· != '=') text.toList c (by rw [hbehind]; rfl)
    rw [bne_eq_false_iff_eq] at hc
    subst hc
    split_ifs at h with hempty
    cases h
    rw [not_or] at hempty
    refine ⟨?_, fun hmem => ?_, mt String.ofList_eq_empty_iff.mp hempty.1,
      mt String.ofList_eq_empty_iff.mp hempty.2⟩
    · have htext : text.toList = text.toList.takeWhile (· != '=') ++ '=' :: new := by
        rw [← hbehind, List.takeWhile_append_dropWhile]
      rw [← String.toList_inj]
      simpa using htext
    · rw [String.toList_ofList] at hmem
      have hne := List.mem_takeWhile_imp hmem
      exact bne_iff_ne.mp hne rfl

theorem Written.read? (h : Written text r) : Rename.read? text = some r := by
  have htext : text.toList = r.old.toList ++ '=' :: r.new.toList := by
    rw [h.text_eq]
    simp
  have hstops : StopsAt (· != '=') ('=' :: r.new.toList) := by
    rintro c ⟨⟩
    rfl
  have hold : ∀ c ∈ r.old.toList, (c != '=') = true := fun c hc =>
    bne_iff_ne.mpr fun heq => h.first (heq ▸ hc)
  have hne : ¬ (r.old.toList = [] ∨ r.new.toList = []) := by
    rw [String.toList_eq_nil_iff, String.toList_eq_nil_iff]
    exact not_or.mpr ⟨h.old_ne, h.new_ne⟩
  obtain ⟨htake, hdrop⟩ := takeWhile_of_stopsAt hold hstops
  unfold Rename.read?
  dsimp only
  rw [htext, htake, hdrop]
  dsimp only
  rw [if_neg hne, String.ofList_toList, String.ofList_toList]

/-- The old path itself, and every path that goes on from it with a point. -/
theorem applies_iff : r.Applies path ↔ path = r.old ∨ ∃ rest, path = r.old ++ "." ++ rest := by
  constructor
  · rintro ⟨segments, h⟩
    rcases Text.pieces_eq_append_iff.mp h.symm with ⟨hpath, -⟩ | ⟨rest, hpath, -⟩
    · exact Or.inl hpath
    · exact Or.inr ⟨rest, hpath⟩
  · rintro (rfl | ⟨rest, rfl⟩)
    · exact List.prefix_refl _
    · exact ⟨Text.pieces '.' rest, (Text.pieces_eq_append_iff.mpr (Or.inr ⟨rest, rfl, rfl⟩)).symm⟩

/-- A path that goes on from the old one in the same segment is another path. -/
theorem not_applies_of_ne {c : Char} (hc : c ≠ '.') (rest : String) :
    ¬ r.Applies (r.old ++ String.singleton c ++ rest) := by
  intro h
  rcases applies_iff.mp h with hpath | ⟨behind, hpath⟩
  · have hlist := congrArg String.toList hpath
    simp at hlist
  · have hlist := congrArg String.toList hpath
    simp [hc] at hlist

theorem newPath?_old (r : Rename) : r.newPath? r.old = some r.new := by
  unfold newPath?
  rw [if_pos (by simp), List.drop_length]

theorem newPath?_behind (r : Rename) (rest : String) :
    r.newPath? (r.old ++ "." ++ rest) = some (r.new ++ "." ++ rest) := by
  have hpath : (r.old ++ "." ++ rest).toList = r.old.toList ++ '.' :: rest.toList := by simp
  unfold newPath?
  rw [hpath, if_pos (by simp), List.drop_left]
  refine congrArg some (String.toList_inj.mp ?_)
  simp

/-- Only a rename that applies gives a new path. -/
theorem applies_of_newPath? {new : String} (h : r.newPath? path = some new) : r.Applies path := by
  unfold newPath? at h
  split_ifs at h with hbegins
  obtain ⟨behind, hbehind⟩ := List.isPrefixOf_iff_prefix.mp hbegins
  rw [← hbehind, List.drop_left] at h
  rw [applies_iff]
  -- behind the old path comes nothing, a point, or a character that refuses the rename
  split at h
  · rw [List.append_nil] at hbehind
    exact Or.inl (String.toList_inj.mp hbehind.symm)
  · rename_i rest
    refine Or.inr ⟨String.ofList rest, String.toList_inj.mp ?_⟩
    rw [← hbehind]
    simp
  · cases h

/-- **One rename:** the new segments stand in the place of the old ones. -/
theorem newPath?_of_pieces {rest : List String} (h : Text.pieces '.' path = Text.pieces '.' r.old ++ rest) :
    ∃ new, r.newPath? path = some new ∧ Text.pieces '.' new = Text.pieces '.' r.new ++ rest := by
  rcases Text.pieces_eq_append_iff.mp h with ⟨rfl, rfl⟩ | ⟨behind, rfl, rfl⟩
  · exact ⟨r.new, r.newPath?_old, (List.append_nil _).symm⟩
  · exact ⟨_, r.newPath?_behind behind, Text.pieces_eq_append_iff.mpr (Or.inr ⟨behind, rfl, rfl⟩)⟩

theorem newPath?_eq_none_iff : r.newPath? path = none ↔ ¬ r.Applies path := by
  constructor
  · rintro h ⟨rest, hrest⟩
    obtain ⟨new, hnew, -⟩ := newPath?_of_pieces hrest.symm
    rw [h] at hnew
    cases hnew
  · intro h
    rw [Option.eq_none_iff_forall_ne_some]
    exact fun new hnew => h (applies_of_newPath? hnew)

end Rename

/-! ### Lists of renames -/

/-- The lists of renames that are accepted. -/
theorem Command.readRenames_eq_ok_iff {texts : List String} {renames : List Rename} :
    readRenames texts = .ok renames ↔ List.Forall₂ Rename.Written texts renames := by
  have hone : ∀ text r, readRename text = .ok r ↔ Rename.Written text r := by
    intro text r
    unfold readRename
    constructor
    · intro h
      split at h
      · rename_i hread
        cases h
        exact Rename.written_of_read? hread
      · cases h
    · intro h
      rw [h.read?]
  unfold readRenames
  rw [mapM_eq_ok_iff]
  simp only [hone]

section renamePath

variable {before after : List Rename} {r : Rename} {path : String}

/-- Renames that do not apply are passed over, at the beginning of a list. -/
theorem renamePath_append (h : ∀ q ∈ before, ¬ q.Applies path) (after : List Rename) :
    renamePath (before ++ after) path = renamePath after path := by
  have hnone : (before.findSome? fun q => q.newPath? path) = none :=
    List.findSome?_eq_none_iff.mpr fun q hq => Rename.newPath?_eq_none_iff.mpr (h q hq)
  unfold renamePath
  rw [List.findSome?_append, hnone, Option.none_or]

theorem renamePath_of_forall_not (h : ∀ q ∈ before, ¬ q.Applies path) :
    renamePath before path = path := by
  rw [← List.append_nil before, renamePath_append h]
  rfl

/-- One that does not apply is passed over anywhere. -/
theorem renamePath_of_not (h : ¬ r.Applies path) :
    renamePath (before ++ r :: after) path = renamePath (before ++ after) path := by
  unfold renamePath
  rw [List.findSome?_append, List.findSome?_cons, Rename.newPath?_eq_none_iff.mpr h,
    ← List.findSome?_append]

theorem renamePath_cons {new : String} (h : r.newPath? path = some new) :
    renamePath (r :: after) path = new := by
  rw [renamePath, List.findSome?_cons, h, Option.getD_some]

/-- Behind one that applies, no other one is looked at. -/
theorem renamePath_of_applies (h : r.Applies path) :
    renamePath (before ++ r :: after) path = renamePath (before ++ [r]) path := by
  obtain ⟨rest, hrest⟩ := h
  obtain ⟨new, hnew, -⟩ := Rename.newPath?_of_pieces hrest.symm
  unfold renamePath
  rw [List.findSome?_append, List.findSome?_append, List.findSome?_cons, List.findSome?_cons, hnew]

end renamePath

/-- **Whole segments are renamed**, for every list of renames, and so for those that are accepted, which are
the lists of what is written as `OLD=NEW`.  If the segments of an old path are the first ones of the path, and
those of no old path before it in the list are, then the segments of its new path come in their place and the
others stay; if there is no such rename, the path stays as it is.  A rename plays no part where a path goes on
from the old one with anything but a point, and none where one before it applies, neither for the path nor
for what the path has become. -/
theorem renamePath_wholeSegments (renames : List Rename) (path : String) :
    (∀ texts, Command.readRenames texts = .ok renames ↔ List.Forall₂ Rename.Written texts renames) ∧
      (∀ before r after rest, renames = before ++ r :: after → (∀ q ∈ before, ¬ q.Applies path) →
        Text.pieces '.' path = Text.pieces '.' r.old ++ rest →
          Text.pieces '.' (renamePath renames path) = Text.pieces '.' r.new ++ rest) ∧
      ((∀ r ∈ renames, ¬ r.Applies path) → renamePath renames path = path) ∧
      ∀ before r after, renames = before ++ r :: after →
        (∀ c rest, c ≠ '.' → path = r.old ++ String.singleton c ++ rest →
          renamePath renames path = renamePath (before ++ after) path) ∧
        (r.Applies path → renamePath renames path = renamePath (before ++ [r]) path) := by
  refine ⟨fun texts => Command.readRenames_eq_ok_iff, fun before r after rest hrenames hbefore hrest => ?_,
    renamePath_of_forall_not, fun before r after hrenames => ⟨fun c rest hc hpath => ?_, fun h => ?_⟩⟩
  · obtain ⟨new, hnew, hsegments⟩ := Rename.newPath?_of_pieces hrest
    rw [hrenames, renamePath_append hbefore, renamePath_cons hnew, hsegments]
  · rw [hrenames, hpath]
    exact renamePath_of_not (Rename.not_applies_of_ne hc rest)
  · rw [hrenames]
    exact renamePath_of_applies h

/-- Two renames have the same old path, one old path begins the new path of another one, and one ends with a
point. -/
theorem renamePath_wholeSegments_address :
    let texts := ["a.=b.c", "addr=home.address", "home=house", "addr=place"]
    let renames : List Rename :=
      [⟨"a.", "b.c"⟩, ⟨"addr", "home.address"⟩, ⟨"home", "house"⟩, ⟨"addr", "place"⟩]
    Command.readRenames texts = .ok renames ∧
      Text.pieces '.' (renamePath renames "addr.street") = ["home", "address", "street"] ∧
      Text.pieces '.' (renamePath renames "a..x") = ["b", "c", "x"] ∧
      renamePath renames "addresses.street" = "addresses.street" ∧
      renamePath renames "a.x" = "a.x" := by
  intro texts renames
  have hread : Command.readRenames texts = .ok renames := rfl
  have hfirst : ∀ q ∈ [(⟨"a.", "b.c"⟩ : Rename)], ¬ q.Applies "addr.street" := by decide
  have hstreet : Text.pieces '.' "addr.street" = Text.pieces '.' "addr" ++ ["street"] := by decide
  have hpoint : Text.pieces '.' "a..x" = Text.pieces '.' "a." ++ ["x"] := by decide
  have haddresses : ∀ r ∈ renames, ¬ r.Applies "addresses.street" := by decide
  have hother : ∀ r ∈ renames, ¬ r.Applies "a.x" := by decide
  exact ⟨hread, ((renamePath_wholeSegments renames "addr.street").2.1 _ _ _ _ rfl hfirst hstreet).trans
      (by decide),
    ((renamePath_wholeSegments renames "a..x").2.1 [] _ _ _ rfl nofun hpoint).trans (by decide),
    (renamePath_wholeSegments renames "addresses.street").2.2.1 haddresses,
    (renamePath_wholeSegments renames "a.x").2.2.1 hother⟩

end RecordFilter

import Mathlib.Data.List.Basic
import RecordFilter.Condition.Regex

/-!
# What a library of regular expressions does

The documentation of a library tells of each construct which parts of a text it matches, where an anchor
also looks at what is before or behind the part.  `RegexLibrary.Documented` is what it says of the
constructs in which patterns are written (`RegexPart`), of rows of them, and of looking for an expression in
a text.

The library with which the program runs is as documented (`RegexProgram.documented`).  Its rows mark places
of the text: one item moves the marks from the places before a part that it matches to the places behind the
part (`RegexProgram.marked_step`), and from this all items do (`RegexProgram.marked_foldl_step`).  Its reader
reads every row of constructs as it was written (`RegexProgram.readItems_write`).
-/

namespace RecordFilter

/-! ### What is documented -/

/-- The constructs of expressions in which patterns are written. -/
inductive RegexPart
  | start
  | finish
  | any
  | anyRun
  | literal (text : String)

namespace RegexPart

variable [RegexLibrary]

/-- A construct as it is written. -/
def write : RegexPart → String
  | start => "^"
  | finish => "$"
  | any => "."
  | anyRun => ".*"
  | literal text => RegexLibrary.escape text

/-- Constructs one after the other. -/
def writeAll : List RegexPart → String
  | [] => ""
  | part :: parts => part.write ++ writeAll parts

theorem writeAll_append (ps qs : List RegexPart) : writeAll (ps ++ qs) = writeAll ps ++ writeAll qs := by
  induction ps with
  | nil => rw [List.nil_append, writeAll, String.empty_append]
  | cons p ps ih => rw [List.cons_append, writeAll, writeAll, ih, String.append_assoc]

end RegexPart

/-- **What the documentation says of a library.**  `Matches ps before part after` tells that a row of
constructs matches a part of a text, with what is before and behind it. -/
structure RegexLibrary.Documented [RegexLibrary]
    (Matches : List RegexPart → List Char → List Char → List Char → Prop) : Prop where
  /-- An expression is looked for everywhere in a text. -/
  search {ps : List RegexPart} {r : RegexLibrary.Regex} (text : String) :
    RegexLibrary.compile? ("(?s)" ++ RegexPart.writeAll ps) = some r →
      (RegexLibrary.isMatch r text = true ↔
        ∃ before part after, text.toList = before ++ part ++ after ∧ Matches ps before part after)
  /-- What is written one after the other matches one after the other. -/
  sequence (ps qs : List RegexPart) (before part after : List Char) :
    Matches (ps ++ qs) before part after ↔
      ∃ first rest, part = first ++ rest ∧ Matches ps before first (rest ++ after) ∧
        Matches qs (before ++ first) rest after
  start (before part after : List Char) :
    Matches [.start] before part after ↔ before = [] ∧ part = []
  finish (before part after : List Char) :
    Matches [.finish] before part after ↔ part = [] ∧ after = []
  /-- With `(?s)` a point matches every character, also a line break. -/
  any (before part after : List Char) : Matches [.any] before part after ↔ ∃ c, part = [c]
  anyRun (before part after : List Char) : Matches [.anyRun] before part after
  /-- A text that is escaped stands for itself. -/
  literal (text : String) (before part after : List Char) :
    Matches [.literal text] before part after ↔ part = text.toList

/-! ### What items match -/

/-- What one item matches, with what is before and behind it. -/
def RegexItem.Matches : RegexItem → (before part after : List Char) → Prop
  | .start, before, part, _ => before = [] ∧ part = []
  | .finish, _, part, after => part = [] ∧ after = []
  | .run, _, _, _ => True
  | .one, _, part, _ => ∃ c, part = [c]
  | .literal c, _, part, _ => part = [c]

namespace RegexProgram

/-- What the items match, one after the other. -/
def Matches : RegexProgram → (before part after : List Char) → Prop
  | [], _, part, _ => part = []
  | item :: p, before, part, after =>
    ∃ first rest, part = first ++ rest ∧ item.Matches before first (rest ++ after) ∧
      Matches p (before ++ first) rest after

theorem matches_append {p q : RegexProgram} {before part after : List Char} :
    Matches (p ++ q) before part after ↔
      ∃ first rest, part = first ++ rest ∧ Matches p before first (rest ++ after) ∧
        Matches q (before ++ first) rest after := by
  induction p generalizing before part with
  | nil => simp [Matches]
  | cons item p ih =>
    constructor
    · rintro ⟨first, rest, rfl, hitem, hrest⟩
      obtain ⟨l, r, rfl, hl, hr⟩ := ih.mp hrest
      refine ⟨first ++ l, r, (List.append_assoc first l r).symm, ⟨first, l, rfl, ?_, hl⟩, ?_⟩
      · rwa [← List.append_assoc]
      · rwa [← List.append_assoc]
    · rintro ⟨_, r, rfl, ⟨first, l, rfl, hitem, hl⟩, hr⟩
      refine ⟨first, l ++ r, List.append_assoc first l r, ?_, ih.mpr ⟨l, r, rfl, hl, ?_⟩⟩
      · rwa [List.append_assoc]
      · rwa [List.append_assoc]

theorem matches_singleton {item : RegexItem} {before part after : List Char} :
    Matches [item] before part after ↔ item.Matches before part after := by
  constructor
  · rintro ⟨first, rest, rfl, hitem, hrest⟩
    cases hrest
    simpa using hitem
  · exact fun h => ⟨part, [], by simp, by simpa using h, rfl⟩

theorem matches_literals (cs : List Char) {before part after : List Char} :
    Matches (cs.map .literal) before part after ↔ part = cs := by
  induction cs generalizing before part with
  | nil => exact Iff.rfl
  | cons c cs ih =>
    constructor
    · rintro ⟨first, rest, rfl, hitem, hrest⟩
      cases hitem
      rw [ih.mp hrest]
      rfl
    · rintro rfl
      exact ⟨[c], cs, rfl, rfl, ih.mpr rfl⟩

/-! ### Marked places -/

theorem length_spread (reached : Bool) (row : List Bool) :
    (spread reached row).length = row.length := by
  induction row generalizing reached with
  | nil => rfl
  | cons b row ih => rw [spread, List.length_cons, ih, List.length_cons]

theorem length_onlyLast (row : List Bool) : (onlyLast row).length = row.length := by
  induction row with
  | nil => rfl
  | cons b row ih =>
    cases row with
    | nil => rfl
    | cons b' row => simpa [onlyLast] using ih

theorem getElem?_onlyFirst (row : List Bool) (i : Nat) :
    (onlyFirst row)[i]? = some true ↔ i = 0 ∧ row[0]? = some true := by
  cases row with
  | nil => simp [onlyFirst]
  | cons b row =>
    cases i with
    | zero => simp [onlyFirst]
    | succ i => simp [onlyFirst, List.getElem?_replicate]

theorem getElem?_onlyLast (row : List Bool) (i : Nat) :
    (onlyLast row)[i]? = some true ↔ i + 1 = row.length ∧ row[i]? = some true := by
  induction row generalizing i with
  | nil => simp [onlyLast]
  | cons b row ih =>
    cases row with
    | nil => cases i <;> simp [onlyLast]
    | cons b' row =>
      cases i with
      | zero => simp [onlyLast]
      | succ i => simpa [onlyLast] using ih i

/-- A run reaches every place behind one that is marked. -/
theorem getElem?_spread (reached : Bool) (row : List Bool) (i : Nat) :
    (spread reached row)[i]? = some true ↔
      i < row.length ∧ (reached = true ∨ ∃ j ≤ i, row[j]? = some true) := by
  induction row generalizing reached i with
  | nil => simp [spread]
  | cons b row ih =>
    cases i with
    | zero => simp [spread]
    | succ i =>
      rw [spread, List.getElem?_cons_succ, ih, List.length_cons, Nat.add_lt_add_iff_right]
      refine and_congr_right fun _ => ?_
      rw [Bool.or_eq_true, or_assoc]
      refine or_congr_right ⟨?_, ?_⟩
      · rintro (hb | ⟨j, hj, hrow⟩)
        · exact ⟨0, Nat.zero_le _, by rw [hb]; rfl⟩
        · exact ⟨j + 1, Nat.succ_le_succ hj, hrow⟩
      · rintro ⟨j, hj, hrow⟩
        cases j with
        | zero => exact .inl (by simpa using hrow)
        | succ j => exact .inr ⟨j, Nat.le_of_succ_le_succ hj, hrow⟩

/-- The place between what is before and behind it is marked in a row of the text. -/
structure Marked (text : List Char) (row : List Bool) (before after : List Char) : Prop where
  split : text = before ++ after
  mark : row[before.length]? = some true

variable {text : List Char} {row : List Bool}

/-- A row has one place more than the text has characters. -/
theorem length_step (h : row.length = text.length + 1) (item : RegexItem) :
    (step text row item).length = text.length + 1 := by
  cases item with
  | start =>
    cases row with
    | nil => cases h
    | cons b row => simpa [step, onlyFirst] using h
  | finish => rw [step, length_onlyLast, h]
  | run => rw [step, length_spread, h]
  | one => simp [step, h]
  | literal c => simp [step, h]

theorem length_foldl_step (p : RegexProgram) (h : row.length = text.length + 1) :
    (p.foldl (step text) row).length = text.length + 1 := by
  induction p generalizing row with
  | nil => exact h
  | cons item p ih => exact ih (length_step h item)

/-- An item for single characters takes a marked place over one that it accepts. -/
theorem marked_shift (item : RegexItem) {before after : List Char} :
    Marked text (false :: List.zipWith (fun b c => b && item.accepts c) row text) before after ↔
      ∃ front c, before = front ++ [c] ∧ item.accepts c = true ∧ Marked text row front (c :: after) := by
  constructor
  · rintro ⟨hsplit, hmark⟩
    rcases List.eq_nil_or_concat before with rfl | ⟨front, c, hbefore⟩
    · cases hmark
    rw [List.concat_eq_append] at hbefore
    subst hbefore
    rw [List.length_append, List.length_singleton, List.getElem?_cons_succ] at hmark
    have hchar : text[front.length]? = some c := by rw [hsplit]; simp
    rw [List.getElem?_zipWith, hchar] at hmark
    cases hrow : row[front.length]? with
    | none => rw [hrow] at hmark; cases hmark
    | some b =>
      rw [hrow] at hmark
      obtain ⟨rfl, hc⟩ : b = true ∧ item.accepts c = true := by simpa using hmark
      exact ⟨front, c, rfl, hc, by rw [hsplit]; simp, hrow⟩
  · rintro ⟨front, c, rfl, hc, hsplit, hmark⟩
    have hchar : text[front.length]? = some c := by rw [hsplit]; simp
    refine ⟨by rw [hsplit]; simp, ?_⟩
    rw [List.length_append, List.length_singleton, List.getElem?_cons_succ, List.getElem?_zipWith, hmark,
      hchar]
    simpa using hc

theorem marked_onlyFirst {before after : List Char} :
    Marked text (onlyFirst row) before after ↔ before = [] ∧ Marked text row [] after := by
  constructor
  · rintro ⟨hsplit, hmark⟩
    obtain ⟨hlength, hfirst⟩ := (getElem?_onlyFirst row _).mp hmark
    cases List.length_eq_zero_iff.mp hlength
    exact ⟨rfl, hsplit, hfirst⟩
  · rintro ⟨rfl, hsplit, hmark⟩
    exact ⟨hsplit, (getElem?_onlyFirst row _).mpr ⟨rfl, hmark⟩⟩

theorem marked_onlyLast (h : row.length = text.length + 1) {before after : List Char} :
    Marked text (onlyLast row) before after ↔ after = [] ∧ Marked text row before [] := by
  constructor
  · rintro ⟨hsplit, hmark⟩
    obtain ⟨hlength, hmark⟩ := (getElem?_onlyLast row _).mp hmark
    rw [h, hsplit, List.length_append] at hlength
    cases List.length_eq_zero_iff.mp (show after.length = 0 by omega)
    exact ⟨rfl, hsplit, hmark⟩
  · rintro ⟨rfl, hsplit, hmark⟩
    refine ⟨hsplit, (getElem?_onlyLast row _).mpr ⟨?_, hmark⟩⟩
    rw [h, hsplit, List.append_nil]

/-- A run takes a marked place over every part behind it. -/
theorem marked_spread (h : row.length = text.length + 1) {before after : List Char} :
    Marked text (spread false row) before after ↔
      ∃ front part, before = front ++ part ∧ Marked text row front (part ++ after) := by
  constructor
  · rintro ⟨hsplit, hmark⟩
    obtain ⟨-, hreached | ⟨j, hj, hmark⟩⟩ := (getElem?_spread false row _).mp hmark
    · cases hreached
    refine ⟨before.take j, before.drop j, (List.take_append_drop j before).symm, ?_, ?_⟩
    · rw [← List.append_assoc, List.take_append_drop]
      exact hsplit
    · rwa [List.length_take, Nat.min_eq_left hj]
  · rintro ⟨front, part, rfl, ⟨hsplit, hmark⟩⟩
    refine ⟨by rw [hsplit, List.append_assoc], (getElem?_spread false row _).mpr ⟨?_, .inr ?_⟩⟩
    · rw [h, hsplit]
      simp only [List.length_append]
      omega
    · exact ⟨front.length, by simp, hmark⟩

/-- **One item** moves the marks over what it matches. -/
theorem marked_step (h : row.length = text.length + 1) (item : RegexItem) {before after : List Char} :
    Marked text (step text row item) before after ↔
      ∃ front part, before = front ++ part ∧ Marked text row front (part ++ after) ∧
        item.Matches front part after := by
  cases item with
  | start =>
    rw [step, marked_onlyFirst]
    constructor
    · rintro ⟨rfl, hmarked⟩
      exact ⟨[], [], rfl, hmarked, rfl, rfl⟩
    · rintro ⟨_, _, rfl, hmarked, rfl, rfl⟩
      exact ⟨rfl, hmarked⟩
  | finish =>
    rw [step, marked_onlyLast h]
    constructor
    · rintro ⟨rfl, hmarked⟩
      exact ⟨before, [], (List.append_nil before).symm, hmarked, rfl, rfl⟩
    · rintro ⟨front, _, rfl, hmarked, rfl, rfl⟩
      rw [List.append_nil]
      exact ⟨rfl, hmarked⟩
  | run =>
    rw [step, marked_spread h]
    simp only [RegexItem.Matches, and_true]
  | one =>
    rw [step, marked_shift]
    · constructor
      · rintro ⟨front, c, rfl, -, hmarked⟩
        exact ⟨front, [c], rfl, hmarked, c, rfl⟩
      · rintro ⟨front, _, rfl, hmarked, c, rfl⟩
        exact ⟨front, c, rfl, rfl, hmarked⟩
    -- no other rule of a step is for this item
    all_goals nofun
  | literal c =>
    rw [step, marked_shift]
    · constructor
      · rintro ⟨front, d, rfl, hd, hmarked⟩
        cases beq_iff_eq.mp hd
        exact ⟨front, [c], rfl, hmarked, rfl⟩
      · rintro ⟨front, _, rfl, hmarked, rfl⟩
        exact ⟨front, c, rfl, beq_self_eq_true c, hmarked⟩
    all_goals nofun

/-- **All items**: the places marked in the end are those at which a match from a marked place ends. -/
theorem marked_foldl_step (p : RegexProgram) (h : row.length = text.length + 1)
    {before after : List Char} :
    Marked text (p.foldl (step text) row) before after ↔
      ∃ front part, before = front ++ part ∧ Marked text row front (part ++ after) ∧
        Matches p front part after := by
  induction p generalizing row before after with
  | nil =>
    constructor
    · exact fun hmarked => ⟨before, [], (List.append_nil before).symm, hmarked, rfl⟩
    · rintro ⟨front, _, rfl, hmarked, rfl⟩
      simpa using hmarked
  | cons item p ih =>
    rw [List.foldl_cons, ih (length_step h item)]
    constructor
    · rintro ⟨_, rest, rfl, hmarked, hrest⟩
      obtain ⟨front, first, rfl, hmarked, hfirst⟩ := (marked_step h item).mp hmarked
      refine ⟨front, first ++ rest, List.append_assoc _ _ _, ?_, first, rest, rfl, hfirst, hrest⟩
      rwa [List.append_assoc]
    · rintro ⟨front, _, rfl, hmarked, first, rest, rfl, hfirst, hrest⟩
      rw [List.append_assoc] at hmarked
      exact ⟨front ++ first, rest, (List.append_assoc _ _ _).symm,
        (marked_step h item).mpr ⟨front, first, rfl, hmarked, hfirst⟩, hrest⟩

theorem startRow_eq (text : List Char) : startRow text = List.replicate (text.length + 1) true := by
  simp [startRow, List.replicate_succ]

theorem length_startRow (text : List Char) : (startRow text).length = text.length + 1 := by
  rw [startRow_eq, List.length_replicate]

/-- In the beginning every place is marked. -/
theorem marked_startRow {text before after : List Char} (h : text = before ++ after) :
    Marked text (startRow text) before after := by
  refine ⟨h, ?_⟩
  rw [startRow_eq, List.getElem?_replicate, if_pos]
  rw [h, List.length_append]
  omega

/-- A row that marks anything marks a place of its text. -/
theorem exists_marked (h : row.length = text.length + 1) :
    row.any id = true ↔ ∃ before after, Marked text row before after := by
  rw [List.any_eq_true]
  constructor
  · rintro ⟨b, hb, hmark⟩
    obtain ⟨i, hi, rfl⟩ := List.getElem_of_mem hb
    refine ⟨text.take i, text.drop i, (List.take_append_drop i text).symm, ?_⟩
    rw [List.length_take, Nat.min_eq_left (by omega), List.getElem?_eq_getElem hi]
    exact congrArg some hmark
  · rintro ⟨before, after, hmarked⟩
    exact ⟨true, List.mem_of_getElem? hmarked.mark, rfl⟩

/-- **The rows decide whether the expression matches somewhere in the text.** -/
theorem isMatch_iff (p : RegexProgram) (text : List Char) :
    p.isMatch text = true ↔
      ∃ before part after, text = before ++ part ++ after ∧ Matches p before part after := by
  have hstart := length_startRow text
  rw [isMatch, exists_marked (length_foldl_step p hstart)]
  constructor
  · rintro ⟨_, after, hmarked⟩
    obtain ⟨before, part, rfl, hmarked, hmatch⟩ := (marked_foldl_step p hstart).mp hmarked
    exact ⟨before, part, after, by rw [List.append_assoc, ← hmarked.split], hmatch⟩
  · rintro ⟨before, part, after, hsplit, hmatch⟩
    rw [List.append_assoc] at hsplit
    exact ⟨before ++ part, after,
      (marked_foldl_step p hstart).mpr ⟨before, part, rfl, marked_startRow hsplit, hmatch⟩⟩

/-! ### Reading what is written -/

theorem readItems_plain {c : Char} (h : isMeta c = false) (read : List RegexItem) (cs : List Char) :
    readItems read (c :: cs) = readItems (.literal c :: read) cs := by
  rw [readItems, h]
  · rfl
  -- no other rule is for a character that stands for itself
  all_goals
    intros
    subst_vars
    cases h

theorem readItems_escapeChar (read : List RegexItem) (c : Char) (cs : List Char) :
    readItems read (escapeChar c ++ cs) = readItems (.literal c :: read) cs := by
  cases h : isMeta c with
  | true =>
    have hescape : escapeChar c = ['\\', c] := by rw [escapeChar, if_pos h]
    rw [hescape, List.cons_append, List.cons_append, List.nil_append, readItems, if_pos h]
  | false =>
    have hescape : escapeChar c = [c] := by simp [escapeChar, h]
    rw [hescape, List.singleton_append, readItems_plain h]

/-- The items of a construct. -/
def ofPart : RegexPart → RegexProgram
  | .start => [.start]
  | .finish => [.finish]
  | .any => [.one]
  | .anyRun => [.run]
  | .literal text => text.toList.map .literal

theorem readItems_escape (text : List Char) (read : List RegexItem) (cs : List Char) :
    readItems read (text.flatMap escapeChar ++ cs) =
      readItems ((text.map RegexItem.literal).reverse ++ read) cs := by
  induction text generalizing read with
  | nil => rfl
  | cons c text ih =>
    rw [List.flatMap_cons, List.append_assoc, readItems_escapeChar, ih, List.map_cons,
      List.reverse_cons, List.append_assoc, List.singleton_append]

/-- **One construct** in front of others. -/
theorem readItems_write (read : List RegexItem) (p : RegexPart) (cs : List Char) :
    readItems read (p.write.toList ++ cs) = readItems ((ofPart p).reverse ++ read) cs := by
  cases p with
  | start => rfl
  | finish => rfl
  | any => rfl
  | anyRun => rfl
  | literal text =>
    have hwrite : (RegexPart.literal text).write.toList = text.toList.flatMap escapeChar :=
      String.toList_ofList
    rw [hwrite, readItems_escape, ofPart]

/-- **What is written is read**, one construct after the other. -/
theorem readItems_writeAll (read : List RegexItem) (ps : List RegexPart) :
    readItems read (RegexPart.writeAll ps).toList = some (read.reverse ++ ps.flatMap ofPart) := by
  induction ps generalizing read with
  | nil =>
    rw [List.flatMap_nil, List.append_nil]
    rfl
  | cons p ps ih =>
    rw [RegexPart.writeAll, String.toList_append, readItems_write, ih, List.flatMap_cons,
      List.reverse_append, List.reverse_reverse, List.append_assoc]

/-- An expression in which patterns are written has the items of its constructs, if it is usable. -/
theorem eq_of_compile? {ps : List RegexPart} {p : RegexProgram}
    (h : compile? ("(?s)" ++ RegexPart.writeAll ps) = some p) : p = ps.flatMap ofPart := by
  obtain ⟨hread, -⟩ := Option.filter_eq_some_iff.mp h
  have hitems : read? ("(?s)" ++ RegexPart.writeAll ps) =
      readItems [] (RegexPart.writeAll ps).toList := by
    rw [read?, String.toList_append]
    rfl
  rw [hitems, readItems_writeAll] at hread
  exact (Option.some.inj hread).symm

/-- **The library that the program runs with is as documented.** -/
theorem documented : RegexLibrary.Documented fun ps => Matches (ps.flatMap ofPart) where
  search text h := by
    cases eq_of_compile? h
    exact isMatch_iff _ text.toList
  sequence ps qs before part after := by
    rw [List.flatMap_append, matches_append]
  start _ _ _ := matches_singleton
  finish _ _ _ := matches_singleton
  any _ _ _ := matches_singleton
  anyRun _ _ _ := matches_singleton.mpr trivial
  literal text _ _ _ := by
    rw [List.flatMap_singleton]
    exact matches_literals text.toList

end RegexProgram

end RecordFilter

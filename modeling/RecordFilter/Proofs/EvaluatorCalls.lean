import RecordFilter.Proofs.Commands

/-!
# An evaluator that is used again and again

An evaluator may serve any calls, on any conditions and records, and it keeps the patterns that it meets.
Which patterns it meets depends on the records: it does not look at the right side of a condition where
the left side decides (`Condition.met`).  After some calls it remembers the usable ones of the patterns
met by them, each as its text writes it, and nothing else (`Evaluator.Knows`); one more condition or record
keeps this.  So every answer is that of an evaluator which has met nothing (`answers_of_calls`).
-/

namespace RecordFilter

/-- What an evaluator is asked: whether a record satisfies a condition, or which of some records do. -/
inductive EvaluatorCall
  | one (c : Condition) (record : Json)
  | all (c : Condition) (records : List Json)

inductive EvaluatorAnswer
  | verdict (b : Bool)
  | kept (records : List Json)

/-- The texts of the patterns that are met when the condition is decided for the record. -/
def Condition.met (record : Json) : Condition → List String
  | compare .. | test .. | member .. | between .. => []
  | like _ text _ => [text]
  | not c => c.met record
  | and l r => l.met record ++ if l.holds record then r.met record else []
  | or l r => l.met record ++ if l.holds record then [] else r.met record

namespace EvaluatorCall

/-- The texts of the patterns that are met by a call. -/
def met : EvaluatorCall → List String
  | one c record => c.met record
  | all c records => records.flatMap c.met

/-- The answer for which every record is looked at by an evaluator that has met nothing. -/
def alone : EvaluatorCall → EvaluatorAnswer
  | one c record => .verdict ((Evaluator.holds record c).run .new).1
  | all c records => .kept (records.filter fun record => ((Evaluator.holds record c).run .new).1)

end EvaluatorCall

namespace Evaluator

/-- The answer to a call. -/
def serve : EvaluatorCall → StateM Evaluator EvaluatorAnswer
  | .one c record => do
    let b ← holds record c
    return .verdict b
  | .all c records => do
    let kept ← keep c records
    return .kept kept

/-- The answers to several calls, one after the other. -/
def serveAll : List EvaluatorCall → StateM Evaluator (List EvaluatorAnswer)
  | [] => return []
  | call :: rest => do
    let a ← serve call
    let as ← serveAll rest
    return a :: as

/-! ### What is remembered -/

/-- **After these patterns have been met**, the usable ones are remembered as their texts write them, and no
others. -/
def Knows (e : Evaluator) (texts : List String) : Prop :=
  ∀ text, e.patterns.lookup text = if text ∈ texts then LikePattern.ofText? text else none

theorem knows_new : new.Knows [] := fun _ => rfl

variable {e : Evaluator} {texts : List String}

theorem Knows.faithful (h : e.Knows texts) : e.Faithful := by
  intro text p hp
  rw [h text] at hp
  split at hp
  · exact hp
  · cases hp

theorem Knows.append_nil (h : e.Knows texts) : e.Knows (texts ++ []) := by rwa [List.append_nil]

/-- **One more pattern**, whether it is known, is read now or is not usable. -/
theorem Knows.pattern? (h : e.Knows texts) (text : String) :
    ((pattern? text).run e).2.Knows (texts ++ [text]) := by
  intro t
  have hmem : t ∈ texts ++ [text] ↔ t ∈ texts ∨ t = text := by simp
  rw [if_congr hmem rfl rfl]
  change (Evaluator.pattern? text e).2.patterns.lookup t = _
  unfold Evaluator.pattern?
  cases hl : e.patterns.lookup text with
  | some p =>
    have hknown : text ∈ texts := by
      by_contra hnot
      rw [h text, if_neg hnot] at hl
      cases hl
    have hsame : t ∈ texts ∨ t = text ↔ t ∈ texts := or_iff_left_of_imp fun ht => ht ▸ hknown
    rw [if_congr hsame rfl rfl]
    exact h t
  | none =>
    cases hp : LikePattern.ofText? text with
    | none =>
      by_cases ht : t = text
      · subst ht
        simp [hl, hp]
      · rw [if_congr (or_iff_left ht) rfl rfl]
        exact h t
    | some p =>
      by_cases ht : t = text
      · subst ht
        simp [hp]
      · have hne : (t == text) = false := beq_false_of_ne ht
        rw [if_congr (or_iff_left ht) rfl rfl]
        dsimp only
        rw [List.lookup_cons, hne]
        exact h t

/-- **One more condition:** the patterns that it meets are known now. -/
theorem Knows.holds (record : Json) : ∀ (c : Condition) {e : Evaluator} {texts : List String},
    e.Knows texts → ((holds record c).run e).2.Knows (texts ++ c.met record)
  | .compare .., _, _, h => h.append_nil
  | .test .., _, _, h => h.append_nil
  | .member .., _, _, h => h.append_nil
  | .between .., _, _, h => h.append_nil
  | .like _ text _, _, _, h => h.pattern? text
  | .not c, _, _, h => Knows.holds record c h
  | .and l r, e, texts, h => by
    have hl := Knows.holds record l h
    have hrun : (Evaluator.holds record (.and l r)).run e =
        (if ((Evaluator.holds record l).run e).1 then Evaluator.holds record r else pure false).run
          ((Evaluator.holds record l).run e).2 := rfl
    rw [hrun, (holds_spec record l h.faithful).1, Condition.met, ← List.append_assoc]
    cases l.holds record with
    | true => exact Knows.holds record r hl
    | false => exact hl.append_nil
  | .or l r, e, texts, h => by
    have hl := Knows.holds record l h
    have hrun : (Evaluator.holds record (.or l r)).run e =
        (if ((Evaluator.holds record l).run e).1 then pure true else Evaluator.holds record r).run
          ((Evaluator.holds record l).run e).2 := rfl
    rw [hrun, (holds_spec record l h.faithful).1, Condition.met, ← List.append_assoc]
    cases l.holds record with
    | true => exact hl.append_nil
    | false => exact Knows.holds record r hl

/-- **More records**, for the same condition. -/
theorem Knows.keep (c : Condition) (records : List Json) {e : Evaluator} {texts : List String}
    (h : e.Knows texts) : ((keep c records).run e).2.Knows (texts ++ records.flatMap c.met) := by
  induction records generalizing e texts with
  | nil => exact h.append_nil
  | cons record rest ih =>
    rw [List.flatMap_cons, ← List.append_assoc]
    exact ih (h.holds record c)

/-! ### Calls -/

/-- **One more call** is answered as it is alone. -/
theorem Knows.serve (h : e.Knows texts) (call : EvaluatorCall) :
    ((serve call).run e).1 = call.alone ∧ ((serve call).run e).2.Knows (texts ++ call.met) := by
  have hnew : ∀ record c, ((Evaluator.holds record c).run .new).1 = c.holds record :=
    fun record c => (holds_spec record c faithful_new).1
  cases call with
  | one c record =>
    refine ⟨?_, h.holds record c⟩
    have hb : ((Evaluator.holds record c).run e).1 = c.holds record := (holds_spec record c h.faithful).1
    rw [EvaluatorCall.alone, hnew, ← hb]
    rfl
  | all c records =>
    refine ⟨?_, h.keep c records⟩
    have hkept : ((Evaluator.keep c records).run e).1 = records.filter fun record => c.holds record :=
      (keep_spec c records h.faithful).1
    rw [EvaluatorCall.alone]
    simp only [hnew]
    rw [← hkept]
    rfl

/-- Any number of calls. -/
theorem Knows.serveAll (calls : List EvaluatorCall) {e : Evaluator} {texts : List String}
    (h : e.Knows texts) :
    ((serveAll calls).run e).1 = calls.map EvaluatorCall.alone ∧
      ((serveAll calls).run e).2.Knows (texts ++ calls.flatMap EvaluatorCall.met) := by
  induction calls generalizing e texts with
  | nil => exact ⟨rfl, h.append_nil⟩
  | cons call rest ih =>
    obtain ⟨hanswer, hafter⟩ := h.serve call
    obtain ⟨hrest, hend⟩ := ih hafter
    refine ⟨congrArg₂ List.cons hanswer hrest, ?_⟩
    rw [List.flatMap_cons, ← List.append_assoc]
    exact hend

end Evaluator

/-- **What an evaluator has done before does not matter.**  Of any calls, one after the other on one
evaluator, each is answered as by an evaluator that has met nothing: whether a record satisfies a condition,
and the records that satisfy it, each where it stands in their row.  What is remembered in the end are the
patterns that have been met and are usable. -/
theorem answers_of_calls (calls : List EvaluatorCall) :
    ((Evaluator.serveAll calls).run .new).1 = calls.map EvaluatorCall.alone ∧
      ∀ text, ((Evaluator.serveAll calls).run .new).2.patterns.lookup text =
        if text ∈ calls.flatMap EvaluatorCall.met then LikePattern.ofText? text else none :=
  Evaluator.knows_new.serveAll calls

end RecordFilter

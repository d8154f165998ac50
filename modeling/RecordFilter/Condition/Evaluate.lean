import RecordFilter.Condition.Basic
import RecordFilter.Condition.Like
import RecordFilter.Condition.Order
import RecordFilter.Text.Case

/-!
# Evaluating conditions

A path is followed through the objects of a record; where it meets an array it goes on in every item.
A test holds if one of the values that are reached passes it.  `Condition.holds` says which records
satisfy a condition.  An `Evaluator` decides the same and remembers the patterns that it has met; it
does not look at the right side of a condition where the left side decides.
-/

namespace RecordFilter

/-! ### Reached values -/

/-- Where a relationship leads from a value: to every item of an array, and nowhere from what is not
there or null. -/
def follow (contexts : List Json) (segment : String) : List Json :=
  contexts.flatMap fun c =>
    match c.get? segment with
    | some (.array items) => items
    | some .null => []
    | some j => [j]
    | none => []

/-- The values of a field that a record reaches; a field that is absent is null. -/
def FieldRef.reach (f : FieldRef) (record : Json) : List Json :=
  (f.path.foldl follow [record]).map fun c => (c.get? f.name).getD .null

/-! ### Tests of fields -/

/-- The text that a pattern is held against. -/
def Json.likeText? : Json → Option String
  | .string s => some s
  | .bool b => some (if b then "true" else "false")
  | j => j.numberText?

def Comparison.passes (op : Comparison) (v : Value) (candidate : Json) : Bool :=
  ((v.order? candidate).map op.accepts).getD false

/-- A field without a value counts as null. -/
def Test.passes (t : Test) (candidates : List Json) : Bool :=
  match t with
  | .isTrue => candidates.any fun c => c.asBool? == some true
  | .isFalse => candidates.any fun c => c.asBool? == some false
  | .isNull => candidates.isEmpty || candidates.any Json.isNull
  | .isNotNull => candidates.any fun c => !c.isNull

section patterns

variable [RegexLibrary]

/-- Whether the upper case of the text matches, or does not match if that is asked; what has no text
does neither. -/
def LikePattern.passes (p : LikePattern) (negated : Bool) (candidate : Json) : Bool :=
  match candidate.likeText? with
  | some text => RegexLibrary.isMatch p (Text.upper text) != negated
  | none => false

/-- An unusable pattern is passed by nothing, negated or not. -/
def likePasses (p : Option LikePattern) (negated : Bool) (candidates : List Json) : Bool :=
  match p with
  | some p => candidates.any (p.passes negated)
  | none => false

end patterns

def memberPasses (vs : List Value) (candidate : Json) : Bool :=
  vs.any fun v => Comparison.equal.passes v candidate

/-- Both bounds belong to the range. -/
def betweenPasses (low high : Value) (candidate : Json) : Bool :=
  Comparison.greaterOrEqual.passes low candidate && Comparison.lessOrEqual.passes high candidate

/-! ### Conditions -/

section conditions

variable [RegexLibrary]

/-- The record satisfies the condition. -/
def Condition.holds (record : Json) : Condition → Bool
  | compare f op v => (f.reach record).any (op.passes v)
  | test f t => t.passes (f.reach record)
  | like f pattern negated => likePasses (LikePattern.ofText? pattern) negated (f.reach record)
  | member f vs => (f.reach record).any (memberPasses vs)
  | between f low high => (f.reach record).any (betweenPasses low high)
  | not c => !c.holds record
  | and l r => l.holds record && r.holds record
  | or l r => l.holds record || r.holds record

/-! ### Evaluators -/

/-- The usable patterns that have been met, by their texts. -/
structure Evaluator where
  patterns : List (String × LikePattern)

namespace Evaluator

/-- An evaluator that has met no pattern. -/
def new : Evaluator := ⟨[]⟩

/-- The usable pattern of a text, read at its first use. -/
def pattern? (text : String) : StateM Evaluator (Option LikePattern) := fun e =>
  match e.patterns.lookup text with
  | some p => (some p, e)
  | none =>
    match LikePattern.ofText? text with
    | some p => (some p, ⟨(text, p) :: e.patterns⟩)
    | none => (none, e)

/-- Whether the record satisfies the condition. -/
def holds (record : Json) : Condition → StateM Evaluator Bool
  | .like f text negated => do
    let p ← pattern? text
    return likePasses p negated (f.reach record)
  | .not c => do
    let b ← holds record c
    return !b
  | .and l r => do
    let b ← holds record l
    if b then holds record r else return false
  | .or l r => do
    let b ← holds record l
    if b then return true else holds record r
  | c => return c.holds record

/-- The records that satisfy the condition, in their order. -/
def keep (c : Condition) : List Json → StateM Evaluator (List Json)
  | [] => return []
  | record :: rest => do
    let b ← holds record c
    let kept ← keep c rest
    return if b then record :: kept else kept

end Evaluator

end conditions

end RecordFilter

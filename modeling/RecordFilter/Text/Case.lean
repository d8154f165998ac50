import RecordFilter.Text.CaseProperty
import RecordFilter.Text.CaseTable

/-!
# Upper and lower case

`upper` works character by character, and a character may have several capitals: `ß` becomes `SS`.
`lower` does too, except that a capital sigma becomes the final sigma at the end of a word.
-/

namespace RecordFilter.Text

/-- The capital form of a character. -/
def upperChar (c : Char) : List Char :=
  if c.toNat < 128 then [c.toUpper]
  else match longCapitals.lookup c.toNat, caseOf? capitalRows c.toNat with
    | some codes, _ => codes.map Char.ofNat
    | none, some code => [Char.ofNat code]
    | none, none => [c]

def upper (s : String) : String := String.ofList (s.toList.flatMap upperChar)

theorem toList_upper (s : String) : (upper s).toList = s.toList.flatMap upperChar := by
  simp [upper]

/-! ### Lower case -/

/-- The small form of a character outside the end of a word. -/
def lowerChar (c : Char) : List Char :=
  if c.toNat < 128 then [c.toLower]
  else if c = 'İ' then ['i', '\u0307']
  else match caseOf? smallRows c.toNat with
    | some code => [Char.ofNat code]
    | none => [c]

/-- Letters of either case. -/
def isCased (c : Char) : Bool := casedRanges.holds c.toNat

/-- Marks inside a word, which do not end it. -/
def isInnerMark (c : Char) : Bool := ignorableRanges.holds c.toNat

/-- Whether the first character that is no mark is a letter of either case. -/
def meetsCased (cs : List Char) : Bool := ((cs.dropWhile isInnerMark).head?.map isCased).getD false

/-- The small form of a text of which the part `before`, the latest character in front, has been
read. -/
def lowerAfter (before : List Char) : List Char → List Char
  | [] => []
  | c :: cs =>
    let small :=
      if c = 'Σ' then if meetsCased before && !meetsCased cs then ['ς'] else ['σ']
      else lowerChar c
    small ++ lowerAfter (c :: before) cs

def lower (s : String) : String := String.ofList (lowerAfter [] s.toList)

end RecordFilter.Text

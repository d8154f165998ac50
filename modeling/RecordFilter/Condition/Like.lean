import RecordFilter.Condition.Regex

/-!
# Patterns

In a pattern a percent sign stands for any run of characters, also an empty one, an underscore for any
single character, and every other character for itself.  A pattern is translated into a regular expression
for whole texts.  What stands for itself is gathered until a wildcard or the end of the pattern is met, and
is then written as one literal.
-/

namespace RecordFilter

open RegexLibrary

/-- An expression as far as it is written, and the literal that is pending behind it. -/
structure LikeTranslation where
  regex : String
  literal : String

namespace LikeTranslation

variable [RegexLibrary]

/-- A point may be a line break, and the match begins where the text does. -/
def start : LikeTranslation := ⟨"(?s)^", ""⟩

/-- Goes on with the next character of the pattern. -/
def push (t : LikeTranslation) (c : Char) : LikeTranslation :=
  if c = '%' ∨ c = '_' then
    ⟨t.regex ++ escape t.literal ++ (if c = '%' then ".*" else "."), ""⟩
  else ⟨t.regex, t.literal.push c⟩

/-- The match ends where the text does. -/
def finish (t : LikeTranslation) : String := t.regex ++ escape t.literal ++ "$"

end LikeTranslation

variable [RegexLibrary]

/-- The regular expression of a pattern. -/
def likeToRegex (pattern : String) : String :=
  (pattern.toList.foldl LikeTranslation.push .start).finish

/-- A pattern that can be held against texts. -/
abbrev LikePattern : Type := RegexLibrary.Regex

/-- The pattern that a text writes, if it is usable. -/
def LikePattern.ofText? (text : String) : Option LikePattern := compile? (likeToRegex text)

end RecordFilter

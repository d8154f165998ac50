import RecordFilter.Text.Class

/-!
# UUIDs

A UUID is a number of 128 bits.  It is written with 32 hexadecimal digits, plainly or in groups of
eight, four, four, four and twelve with hyphens between them; the grouped form may stand in braces or
after `urn:uuid:`.  Lengths and places are counted in bytes.

They are read by a library that is not among the sources; the forms and the faults here are fixed after its
documentation and the answers that it was seen to give.
-/

namespace RecordFilter

open RecordFilter.Text

structure Uuid where
  bits : Nat
deriving DecidableEq

namespace Uuid

/-- Why a text is no UUID. -/
inductive Fault
  | length (found : Nat)
  | character (c : Char) (index : Nat)
  | groupCount (found : Nat)
  | groupLength (group expected found : Nat)
deriving DecidableEq

def Fault.message : Fault → String
  | length found => "invalid length: found " ++ Nat.repr found
  | character c index =>
    "invalid character: found `" ++ c.toString ++ "` at " ++ Nat.repr index
  | groupCount found => "invalid group count: expected 5, found " ++ Nat.repr found
  | groupLength group expected found =>
    "invalid group length in group " ++ Nat.repr group ++ ": expected " ++ Nat.repr expected ++
      ", found " ++ Nat.repr found

/-! ### Digits -/

def hexValue? (c : Char) : Option Nat :=
  if c.isDigit then some (digitValue c)
  else if 'a' ≤ c ∧ c ≤ 'f' then some (c.toNat - 87)
  else if 'A' ≤ c ∧ c ≤ 'F' then some (c.toNat - 55)
  else none

/-- The number written by hexadecimal digits; any other character adds nothing. -/
def hexNumber (cs : List Char) : Nat :=
  cs.foldl (fun n c => match hexValue? c with | some d => 16 * n + d | none => n) 0

/-- `count` hexadecimal digits in lower case. -/
def hexText (count n : Nat) : List Char :=
  let digits := Nat.toDigits 16 n
  List.replicate (count - digits.length) '0' ++ digits

def compare (a b : Uuid) : Ordering := Ord.compare a.bits b.bits

/-- Lower case, in hyphenated groups. -/
def render (u : Uuid) : String :=
  let ds := hexText 32 u.bits
  String.ofList (ds.take 8 ++ '-' :: (ds.drop 8).take 4 ++ '-' :: (ds.drop 12).take 4 ++
    '-' :: (ds.drop 16).take 4 ++ '-' :: ds.drop 20)

/-! ### Reading -/

def bytesOf (cs : List Char) : Nat := cs.foldl (fun n c => n + c.utf8Size) 0

def isHex (c : Char) : Bool := (hexValue? c).isSome

/-- Thirty-two digits. -/
def readDigits? (cs : List Char) : Option Uuid :=
  if cs.length = 32 ∧ cs.all isHex then some ⟨hexNumber cs⟩ else none

/-- Thirty-two digits in the five groups. -/
def readGroups? (cs : List Char) : Option Uuid :=
  let hyphens := [8, 13, 18, 23].all fun i => cs[i]? == some '-'
  let digits := cs.filter (· != '-')
  if cs.length = 36 ∧ hyphens then readDigits? digits else none

/-- What stands between braces, if the text begins and ends with them. -/
def unbrace? : List Char → Option (List Char)
  | '\x7b' :: cs => if cs.getLast? = some '\x7d' then some cs.dropLast else none
  | _ => none

/-- What follows `urn:uuid:`, in any case. -/
def unname? (cs : List Char) : Option (List Char) :=
  if (cs.take 9).map Char.toLower = "urn:uuid:".toList then some (cs.drop 9) else none

def read? (cs : List Char) : Option Uuid :=
  readDigits? cs <|> readGroups? cs <|> (unbrace? cs).bind readGroups? <|>
    (unname? cs).bind readGroups?

/-! ### Faults -/

/-- The first character that is neither a hexadecimal digit nor a hyphen, with its byte index. -/
def strayCharacter? (index : Nat) : List Char → Option (Char × Nat)
  | [] => none
  | c :: cs =>
    if isHex c ∨ c = '-' then strayCharacter? (index + c.utf8Size) cs else some (c, index)

/-- Byte indices of the hyphens. -/
def hyphens (index : Nat) : List Char → List Nat
  | [] => []
  | c :: cs =>
    if c = '-' then index :: hyphens (index + 1) cs else hyphens (index + c.utf8Size) cs

/-- Number, start and length of the groups that a hyphen ends. -/
def groups : List (Nat × Nat × Nat) := [(0, 0, 8), (1, 9, 4), (2, 14, 4), (3, 19, 4)]

/-- The first group that its hyphen does not end where it should. -/
def unevenGroup? : List (Nat × Nat × Nat) → List Nat → Option Fault
  | (group, start, expected) :: gs, h :: hs =>
    if h = start + expected then unevenGroup? gs hs
    else some (.groupLength group expected (h - start))
  | _, _ => none

/-- What is wrong with a text of which all characters are good; `size` is the length of the whole
text. -/
def groupFault (size : Nat) (body : List Char) : Fault :=
  let hs := hyphens 0 body
  if hs.length ≠ 4 then .groupCount (hs.length + 1)
  else (unevenGroup? groups hs).getD (.groupLength 4 12 (size - 24))

/-- What is wrong with a part of a text; indices count from `start` at its beginning. -/
def bodyFault (start size : Nat) (body : List Char) : Fault :=
  match strayCharacter? start body with
  | some (c, index) => .character c index
  | none => groupFault size body

/-- What stands in braces or behind `urn:uuid:`, with its byte index. -/
def unwrap? (cs : List Char) : Option (Nat × List Char) :=
  match unbrace? cs, unname? cs with
  | some body, _ => some (1, body)
  | none, some body => some (9, body)
  | none, none => none

/-- What is wrong with a text that is no UUID.  A text of the length of the grouped form is taken for
it as it stands, and a wrapped part of that length is judged by itself. -/
def fault (cs : List Char) : Fault :=
  let size := bytesOf cs
  if size = 36 then bodyFault 0 size cs
  else match unwrap? cs with
    | some (start, body) => bodyFault (if bytesOf body = 36 then 0 else start) size body
    | none =>
      if (strayCharacter? 0 cs).isNone ∧ hyphens 0 cs = [] then .length size
      else bodyFault 0 size cs

/-- Reads a UUID. -/
def read (text : String) : Except Fault Uuid :=
  let cs := text.toList
  let size := bytesOf cs
  if size = 0 ∨ 45 < size then .error (.length size)
  else match read? cs with
    | some u => .ok u
    | none => .error (fault cs)

end Uuid

end RecordFilter

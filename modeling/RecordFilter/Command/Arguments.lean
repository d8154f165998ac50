import RecordFilter.Command.Basic

/-!
# Arguments

The words of a command line: `check` or `filter`, the text of the filter, and options in any order.
An option takes its value from the next word, or from behind an equals sign.
-/

namespace RecordFilter.Command

/-- What the options say; the paths of files are not yet opened. -/
structure Arguments where
  filter : Option String
  schema : Option String
  entity : Option String
  renames : List String
  input : Option String
  pretty : Bool
  syntaxOnly : Bool
deriving DecidableEq

inductive Action
  | check
  | filter
deriving DecidableEq

/-- Why the words of a command line say nothing. -/
inductive ArgumentFault
  | noAction
  | unknownAction (word : String)
  | unknownOption (word : String)
  | noValue (option : String)
  | secondFilter (word : String)
  | noFilter
  | required (option : String)
deriving DecidableEq

def ArgumentFault.message : ArgumentFault → String
  | noAction => "a command is required: check or filter"
  | unknownAction word => "unknown command '" ++ word ++ "'"
  | unknownOption word => "unexpected argument '" ++ word ++ "'"
  | noValue option => "a value is required for '" ++ option ++ "'"
  | secondFilter word => "unexpected argument '" ++ word ++ "'"
  | noFilter => "a filter is required"
  | required option => "'" ++ option ++ "' is required"

namespace Arguments

def none : Arguments := ⟨Option.none, Option.none, Option.none, [], Option.none, false, false⟩

/-- Sets an option that has no value. -/
def setFlag? (a : Arguments) (word : String) : Option Arguments :=
  if word = "-p" ∨ word = "--pretty" then some { a with pretty := true }
  else if word = "--syntax-only" then some { a with syntaxOnly := true }
  else if word = "-v" ∨ word = "--verbose" then some a
  else Option.none

/-- Sets an option that has a value. -/
def setValue? (a : Arguments) (option value : String) : Option Arguments :=
  if option = "-s" ∨ option = "--schema" then some { a with schema := some value }
  else if option = "-e" ∨ option = "--entity" then some { a with entity := some value }
  else if option = "-i" ∨ option = "--input" then some { a with input := some value }
  else if option = "--rename" then some { a with renames := a.renames ++ [value] }
  else Option.none

/-- Option and value on both sides of an equals sign. -/
def splitValue? (word : String) : Option (String × String) :=
  match word.toList.dropWhile (· != '=') with
  | [] => Option.none
  | _ :: value => some (String.ofList (word.toList.takeWhile (· != '=')), String.ofList value)

/-- An option with its value in one word. -/
def setJoined? (a : Arguments) (word : String) : Option Arguments :=
  (splitValue? word).bind fun (option, value) => a.setValue? option value

/-- Takes the words of a command line into account, from left to right. -/
def read (a : Arguments) : List String → Except ArgumentFault Arguments
  | [] => .ok a
  | word :: rest =>
    if word.toList.head? ≠ some '-' then
      match a.filter with
      | Option.none => read { a with filter := some word } rest
      | some _ => .error (.secondFilter word)
    else match a.setFlag? word, a.setJoined? word with
      | some a, _ => a.read rest
      | Option.none, some a => a.read rest
      | Option.none, Option.none =>
        if (a.setValue? word "").isNone then .error (.unknownOption word)
        else match rest with
          | [] => .error (.noValue word)
          | value :: rest =>
            match a.setValue? word value with
            | some a => a.read rest
            | Option.none => .error (.unknownOption word)

end Arguments

/-- The command and its options. -/
def readArguments : List String → Except ArgumentFault (Action × Arguments)
  | [] => .error .noAction
  | word :: rest =>
    if word = "check" then (Arguments.none.read rest).map fun a => (.check, a)
    else if word = "filter" then (Arguments.none.read rest).map fun a => (.filter, a)
    else .error (.unknownAction word)

end RecordFilter.Command

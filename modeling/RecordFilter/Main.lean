import RecordFilter.Command.Arguments

/-!
# Command line

    check FILTER [--schema FILE] [--entity NAME] [--rename OLD=NEW]... [--pretty] [--syntax-only]
    filter FILTER --schema FILE --entity NAME [--rename OLD=NEW]... [--input JSON] [--pretty]

`check` prints the condition that a filter compiles to, `filter` the records that it keeps; without
`--input` the records are read from the standard input.
-/

namespace RecordFilter.Command

/-- Prints what is wrong and gives the exit code. -/
def fail (message : String) : IO UInt32 := do
  IO.eprintln message
  return 1

def runCheck (a : Arguments) (filter : String) : IO UInt32 := do
  let schema ← match a.schema with
    | some path => if a.syntaxOnly then pure none else some <$> IO.FS.readFile path
    | none => pure none
  match check ⟨filter, schema, a.entity.getD "", a.renames, a.syntaxOnly⟩ with
  | .error e => fail e.message
  | .ok .syntaxValid =>
    IO.println "Syntax is valid"
    return 0
  | .ok (.compiled condition joins) =>
    IO.println (condition.render a.pretty)
    IO.eprintln (Nat.repr joins ++ " join(s)")
    return 0

def runFilter (a : Arguments) (text schema entity : String) : IO UInt32 := do
  let input ← match a.input with
    | some input => pure input
    | none => (← IO.getStdin).readToEnd
  match filter ⟨text, ← IO.FS.readFile schema, entity, a.renames, some input⟩ with
  | .error e => fail e.message
  | .ok kept =>
    IO.println ((Json.array kept).render a.pretty)
    return 0

def runCommand (words : List String) : IO UInt32 := do
  match readArguments words with
  | .error f => fail f.message
  | .ok (action, a) =>
    match action, a.filter, a.schema, a.entity with
    | _, none, _, _ => fail ArgumentFault.noFilter.message
    | .check, some text, _, _ => runCheck a text
    | .filter, some text, some schema, some entity => runFilter a text schema entity
    | .filter, _, none, _ => fail (ArgumentFault.required "--schema").message
    | .filter, _, _, none => fail (ArgumentFault.required "--entity").message

end RecordFilter.Command

def main (words : List String) : IO UInt32 := RecordFilter.Command.runCommand words

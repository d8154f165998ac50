import RecordFilter.Command.Rename
import RecordFilter.Compile.Basic
import RecordFilter.Condition.Backend
import RecordFilter.Condition.Evaluate
import RecordFilter.Json.Reading
import RecordFilter.Schema.Document

/-!
# Commands

`check` says what a filter compiles to, `filter` which records of a JSON text it keeps.  Both read the
schema first, then the renames, then the filter; `filter` reads the records last.  Each of them makes a schema
of its own with a hashed map of its own, so `checkIn` and `filterIn` are told the order of this map (`MapOrder`).
-/

namespace RecordFilter

inductive CommandError
  | compile (e : CompileError)
  | schema (f : SchemaFault)
  | json (f : Json.Failure)
  | noInput
  | missingSchema
  | unknownEntity (name : String)
  | invalidRename (text : String)
deriving DecidableEq

namespace CommandError

/-- The message of what is wrong in the filter, the schema or the JSON text. -/
def source? : CommandError → Option String
  | compile e => some e.message
  | schema f => some f.message
  | json f => some f.message
  | _ => none

def message : CommandError → String
  | compile e => e.message
  | schema f => "Invalid schema: " ++ f.message
  | json f => "Invalid JSON: " ++ f.message
  | noInput => "No input provided. Use --input or pipe JSON to stdin."
  | missingSchema => "A schema is required. Use --schema <FILE>."
  | unknownEntity name => "Unknown entity type: '" ++ name ++ "'"
  | invalidRename text => "Invalid rename '" ++ text ++ "': expected OLD=NEW"

end CommandError

namespace Command

/-- Reads a schema from a JSON text and looks up the entity type in it. -/
def loadSchema (order : MapOrder) (text entity : String) : Except CommandError Schema := do
  let document ← (Json.read text).mapError .json
  let s ← (Schema.ofDocumentIn order ⟨0⟩ document).mapError .schema
  if s.hasEntity entity then .ok s else .error (.unknownEntity entity)

def readRename (text : String) : Except CommandError Rename :=
  match Rename.read? text with
  | some r => .ok r
  | none => .error (.invalidRename text)

def readRenames (texts : List String) : Except CommandError (List Rename) := texts.mapM readRename

/-- The compiler for filters with these renames. -/
def compiler (renames : List String) : Except CommandError Compiler := do
  let renames ← readRenames renames
  if renames.isEmpty then .ok .standard
  else .ok { Compiler.standard with mapPath := renamePath renames }

/-! ### Checking -/

structure CheckRequest where
  filter : String
  schema : Option String
  entity : String
  renames : List String
  syntaxOnly : Bool

inductive CheckAnswer
  | syntaxValid
  | compiled (condition : Json) (joins : Nat)
deriving DecidableEq

/-- Says what a filter compiles to, or only whether it is well formed. -/
def checkIn (order : MapOrder) (r : CheckRequest) : Except CommandError CheckAnswer :=
  if r.syntaxOnly then
    match parse r.filter with
    | .ok _ => .ok .syntaxValid
    | .error e => .error (.compile (.malformed e))
  else
    match r.schema with
    | none => .error .missingSchema
    | some document => do
      let s ← loadSchema order document r.entity
      let compiler ← compiler r.renames
      let o := compiler.compile (Condition.backend s r.entity) [] .empty r.filter
      let condition ← o.result.mapError .compile
      .ok (.compiled condition.toJson o.backend.length)

/-- The check with a map that keeps the order of the declarations. -/
def check (r : CheckRequest) : Except CommandError CheckAnswer := checkIn .declared r

/-! ### Filtering -/

structure FilterRequest where
  filter : String
  schema : String
  entity : String
  renames : List String
  input : Option String

/-- The records of a JSON text: the items of an array, or the one value that is no array. -/
def recordsOf : Json → List Json
  | .array items => items
  | j => [j]

/-- The records that pass, each looked at by the evaluator as the ones before it have left it. -/
def matching (c : Condition) (records : List Json) : StateM Evaluator (List Json) :=
  records.filterM fun record => Evaluator.holds record c

/-- The records that a filter keeps, in their order. -/
def filterIn (order : MapOrder) (r : FilterRequest) : Except CommandError (List Json) := do
  let s ← loadSchema order r.schema r.entity
  let compiler ← compiler r.renames
  let o := compiler.compile (Condition.backend s r.entity) [] .empty r.filter
  let condition ← o.result.mapError .compile
  match r.input with
  | none => .error .noInput
  | some text =>
    let input ← (Json.read text).mapError .json
    .ok ((matching condition (recordsOf input)).run .new).1

/-- The records kept with a map that keeps the order of the declarations. -/
def filter (r : FilterRequest) : Except CommandError (List Json) := filterIn .declared r

end Command

end RecordFilter

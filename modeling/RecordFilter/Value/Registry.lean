import RecordFilter.Calendar.Reading
import RecordFilter.Schema.Basic
import RecordFilter.Schema.FieldCache
import RecordFilter.Filter.Fault
import RecordFilter.Value.Basic

/-!
# Reading literals

A `Registry` says for each type of field how a literal is read; `Registry.builtIn` reads all simple
types, and a reader for any type may be put over it.  Enumerations need no reader: a literal is read
as the variant that it names.
-/

namespace RecordFilter

open RecordFilter.Number RecordFilter.Calendar

/-! ### Faults -/

/-- Why a literal has no value of a type. -/
inductive ConversionFault
  | noReader (t : FieldType)
  | unknownEnum (name : String)
  | unknownVariant (enum variant : String)
  | noBool
  | skippedTime (w : WallTime)
  | integer (f : IntFault)
  | binary (f : Binary.Fault)
  | decimal (f : Decimal.Fault)
  | calendar (f : Calendar.Fault)
  | uuid (f : Uuid.Fault)
  | refused (reason : String)
deriving DecidableEq

def ConversionFault.message : ConversionFault → String
  | noReader t => "no converter registered for " ++ t.render
  | unknownEnum name => "enum " ++ name ++ " is not declared in the schema"
  | unknownVariant enum variant => "'" ++ variant ++ "' is not a variant of " ++ enum
  | noBool => "expected 'true' or 'false'"
  | skippedTime w => "local time " ++ w.render ++ " does not exist in the system time zone"
  | integer f => f.message
  | binary f => f.message
  | decimal f => f.message
  | calendar f => f.message
  | uuid f => f.message
  | refused reason => reason

/-- Why a filter has no meaning for a schema: it is malformed, a path leads nowhere, or a literal has
no value of the type of its field. -/
inductive CompileError
  | malformed (e : SyntaxError)
  | unresolved (path segment : String)
  | conversion (target : FieldType) (field literal : String) (cause : ConversionFault)
deriving DecidableEq

def CompileError.message : CompileError → String
  | malformed e => e.message
  | unresolved path segment =>
    "Cannot resolve '" ++ segment ++ "' in attribute path '" ++ path ++ "'"
  | conversion target field literal cause =>
    "Cannot convert '" ++ literal ++ "' to " ++ target.render ++ " for field '" ++ field ++ "': " ++
      cause.message

/-! ### Readers -/

abbrev LiteralReader := String → Except ConversionFault Value

/-- ASCII letters may have either case. -/
def readBool (s : String) : Except ConversionFault Value :=
  let word := s.toList.map Char.toLower
  if word = "true".toList then .ok (.bool true)
  else if word = "false".toList then .ok (.bool false)
  else .error .noBool

/-- A wall-clock time on the clock that `place` chooses. -/
def readPlaced (place : WallTime → Option Zoned) (s : String) : Except ConversionFault Zoned :=
  match readWallTime s with
  | .error f => .error (.calendar f)
  | .ok w =>
    match place w with
    | some z => .ok z
    | none => .error (.skippedTime w)

/-- A wall-clock time in the system zone. -/
def readLocal : String → Except ConversionFault Zoned := readPlaced fun w => w.inZone? .system

/-- A wall-clock time at the offset that the system zone has now. -/
def readAtOffset : String → Except ConversionFault Zoned := readPlaced fun w => w.at? Zone.system.standard

/-- How a literal is read for a simple type; the other types have no reader of their own. -/
def builtInReader? : FieldType → Option LiteralReader
  | .text => some fun s => .ok (.text s)
  | .bool => some readBool
  | .uuid => some fun s => ((Uuid.read s).mapError .uuid).map .uuid
  | .date => some fun s => ((readDate s).mapError .calendar).map .date
  | .time => some fun s => ((readTime s).mapError .calendar).map .time
  | .dateTime => some fun s => ((readWallTime s).mapError .calendar).map .dateTime
  | .zonedDateTime => some fun s => (readLocal s).map .zoned
  | .offsetDateTime => some fun s => (readAtOffset s).map .atOffset
  | .instant => some fun s => (readLocal s).map fun z => .instant z.instant
  | .timestamp => some fun s => (readLocal s).map fun z => .timestamp z.instant.smooth
  | .integer w => some fun s => ((w.read s).mapError .integer).map (.integer w)
  | .single => some fun s => ((Binary.read .single s).mapError .binary).map .single
  | .double => some fun s => ((Binary.read .double s).mapError .binary).map .double
  | .bigInteger => some fun s => ((readBig s).mapError .integer).map .bigInteger
  | .decimal => some fun s => ((Decimal.read s).mapError .decimal).map .decimal
  | .enum _ => none
  | .entity _ => none
  | .collection _ => none
  | .custom _ => none

/-! ### Registries -/

/-- The reader for each type that has one. -/
structure Registry where
  reader? : FieldType → Option LiteralReader

namespace Registry

def empty : Registry := ⟨fun _ => none⟩

def builtIn : Registry := ⟨builtInReader?⟩

/-- The registry with a reader in place of the one that the type may have had. -/
def register (r : Registry) (t : FieldType) (reader : LiteralReader) : Registry :=
  ⟨fun t' => if t' = t then some reader else r.reader? t'⟩

def contains (r : Registry) (t : FieldType) : Bool := (r.reader? t).isSome

/-- The variant of an enumeration that a literal names. -/
def readVariant (s : Schema) (enum literal : String) : Except ConversionFault Value :=
  match s.variants? enum with
  | none => .error (.unknownEnum enum)
  | some variants =>
    if literal ∈ variants then .ok (.enum enum literal) else .error (.unknownVariant enum literal)

/-- Reads a literal as a value of a type. -/
def read (r : Registry) (s : Schema) (t : FieldType) (literal : String) :
    Except ConversionFault Value :=
  match t with
  | .enum name => readVariant s name literal
  | t =>
    match r.reader? t with
    | some reader => reader literal
    | none => .error (.noReader t)

/-- Reads a literal for a field of a known type. -/
def convertTo (r : Registry) (s : Schema) (t : FieldType) (field literal : String) :
    Except CompileError Value :=
  (r.read s t literal).mapError (.conversion t field literal)

/-- Reads a literal for a field of a type of the schema. -/
def convert (r : Registry) (c : FieldCache) (s : Schema) (owner field literal : String) :
    Except CompileError Value × FieldCache :=
  match c.lookup s owner field with
  | (some t, c) => (r.convertTo s t field literal, c)
  | (none, c) => (.error (.unresolved (owner ++ "." ++ field) field), c)

end Registry

end RecordFilter

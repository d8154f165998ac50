import RecordFilter.Number.Integer

/-!
# Types of fields

The declared type of a field says how a literal is read for it and where a path goes on from it.  A
type is written as one word, or as a kind and a name with a colon between them: `i32`, `enum:Gender`.
-/

namespace RecordFilter

open RecordFilter.Number

inductive FieldType
  | text
  | bool
  | uuid
  | date
  | time
  | dateTime
  | zonedDateTime
  | offsetDateTime
  | instant
  | timestamp
  | integer (width : IntWidth)
  | single
  | double
  | bigInteger
  | decimal
  | enum (name : String)
  | entity (name : String)
  | collection (name : String)
  | custom (name : String)
deriving DecidableEq

namespace FieldType

/-- The entity type that a path reaches through a field of the type. -/
def target? : FieldType → Option String
  | entity name => some name
  | collection name => some name
  | _ => none

/-- The types that have no name of their own. -/
def simple : List FieldType :=
  [text, bool, uuid, date, time, dateTime, zonedDateTime, offsetDateTime, instant, timestamp,
    integer .w8, integer .w16, integer .w32, integer .w64, integer .w128, single, double,
    bigInteger, decimal]

def render : FieldType → String
  | text => "text"
  | bool => "bool"
  | uuid => "uuid"
  | date => "date"
  | time => "time"
  | dateTime => "datetime"
  | zonedDateTime => "zoned_datetime"
  | offsetDateTime => "offset_datetime"
  | instant => "instant"
  | timestamp => "timestamp"
  | integer .w8 => "i8"
  | integer .w16 => "i16"
  | integer .w32 => "i32"
  | integer .w64 => "i64"
  | integer .w128 => "i128"
  | single => "f32"
  | double => "f64"
  | bigInteger => "bigint"
  | decimal => "decimal"
  | enum name => "enum:" ++ name
  | entity name => "entity:" ++ name
  | collection name => "collection:" ++ name
  | custom name => "custom:" ++ name

/-- The types that are written with a kind and a name. -/
def ofKind? (kind name : String) : Option FieldType :=
  if kind = "enum" then some (enum name)
  else if kind = "entity" then some (entity name)
  else if kind = "collection" then some (collection name)
  else if kind = "custom" then some (custom name)
  else none

/-- The types that are written as one word; `string` is another word for `text`. -/
def ofWord? (word : String) : Option FieldType :=
  if word = "string" then some text else simple.find? fun t => t.render = word

/-- Reads a type.  The first colon ends the kind, so a name may have colons in it. -/
def read? (s : String) : Option FieldType :=
  match s.toList.dropWhile (· != ':') with
  | [] => ofWord? s
  | _ :: name => ofKind? (String.ofList (s.toList.takeWhile (· != ':'))) (String.ofList name)

theorem read?_render (t : FieldType) : read? t.render = some t := by
  cases t with
  | integer w => cases w <;> decide
  | enum name => simp [render, read?, ofKind?, String.toList_append]
  | entity name => simp [render, read?, ofKind?, String.toList_append]
  | collection name => simp [render, read?, ofKind?, String.toList_append]
  | custom name => simp [render, read?, ofKind?, String.toList_append]
  | _ => decide

end FieldType

end RecordFilter

import RecordFilter.Calendar.Zone
import RecordFilter.Json.Basic
import RecordFilter.Number.BinaryText
import RecordFilter.Number.DecimalText
import RecordFilter.Number.Integer
import RecordFilter.Uuid

/-!
# Values

A `Value` is a literal that has been read as what the type of a field asks for.  Every number has a
decimal that stands for it, if it fits (`Value.decimal?`), and every value that belongs to a clock with
a known offset is an instant (`Value.instant?`); values are compared through these two.
-/

namespace RecordFilter

open RecordFilter.Number RecordFilter.Calendar

inductive Value
  | text (s : String)
  | bool (b : Bool)
  | uuid (u : Uuid)
  | date (d : Date)
  | time (t : Time)
  | dateTime (w : WallTime)
  | zoned (z : Zoned)
  | atOffset (z : Zoned)
  | instant (t : Instant)
  | timestamp (t : Instant)
  | integer (width : IntWidth) (n : Int)
  | single (x : Binary)
  | double (x : Binary)
  | bigInteger (n : Int)
  | decimal (d : Decimal)
  | enum (name variant : String)
deriving DecidableEq

namespace Value

def typeName : Value → String
  | text _ => "text"
  | bool _ => "bool"
  | uuid _ => "uuid"
  | date _ => "date"
  | time _ => "time"
  | dateTime _ => "datetime"
  | zoned _ => "zoned_datetime"
  | atOffset _ => "offset_datetime"
  | instant _ => "instant"
  | timestamp _ => "timestamp"
  | integer .w8 _ => "i8"
  | integer .w16 _ => "i16"
  | integer .w32 _ => "i32"
  | integer .w64 _ => "i64"
  | integer .w128 _ => "i128"
  | single _ => "f32"
  | double _ => "f64"
  | bigInteger _ => "bigint"
  | decimal _ => "decimal"
  | enum _ _ => "enum"

/-- The decimal that stands for a number, if it has one. -/
def decimal? : Value → Option Decimal
  | integer _ n => Decimal.ofInt? n
  | single x => Decimal.ofBinary? Decimal.singleLimit x
  | double x => Decimal.ofBinary? Decimal.doubleLimit x
  | bigInteger n => (Decimal.read (toString n)).toOption
  | decimal d => some d
  | _ => none

/-- The instant of a value that belongs to a clock with a known offset. -/
def instant? : Value → Option Instant
  | zoned z => some z.instant
  | atOffset z => some z.instant
  | instant t => some t
  | timestamp t => some t
  | _ => none

def render : Value → String
  | text s => "'" ++ s ++ "'"
  | bool b => if b then "true" else "false"
  | uuid u => u.render
  | date d => d.render
  | time t => t.render
  | dateTime w => w.render
  | zoned z => z.render
  | atOffset z => z.render
  | instant t => t.render 0
  | timestamp t => t.render 0
  | integer _ n => toString n
  | single x => x.plain .single
  | double x => x.plain .double
  | bigInteger n => toString n
  | decimal d => d.render
  | enum _ variant => variant

/-- The value in a JSON text.  Numbers that may be too wide for a reader of JSON are strings. -/
def toJson : Value → Json
  | text s => .string s
  | bool b => .bool b
  | enum _ variant => .string variant
  | integer w n =>
    if w = .w128 ∧ ¬ (IntWidth.least .w64 ≤ n ∧ n ≤ IntWidth.greatest .w64) then
      .string (toString n)
    else .integer n
  | single x => Json.ofBinary x
  | double x => Json.ofBinary x
  | v => .string v.render

end Value

end RecordFilter

import RecordFilter.Calendar.Reading
import RecordFilter.Json.Printing
import RecordFilter.Value.Basic

/-!
# Values against records

How a value of a record, which is JSON, orders against the value of a literal.  The two are comparable
if the JSON value can be read as what the literal is: a number or the text of one against a number,
the text of a date against a date.  Numbers are compared as decimals, values of clocks as instants.
-/

namespace RecordFilter

open RecordFilter.Number RecordFilter.Calendar

namespace Json

/-- The decimal that a number, or the text of one, stands for. -/
def decimal? : Json → Option Decimal
  | integer n => Decimal.ofInt? n
  | double x => (Decimal.read x.json).toOption <|> Decimal.ofBinary? Decimal.doubleLimit x
  | string s => (Decimal.read s).toOption
  | _ => none

def instant? (j : Json) : Option Instant := j.asString?.bind readInstant?

end Json

namespace Value

/-- The order of a text, read by `read`, against a value. -/
def orderText? {α ε : Type} (read : String → Except ε α) (compare : α → α → Ordering) (expected : α)
    (candidate : Json) : Option Ordering := do
  let a ← (read (← candidate.asString?)).toOption
  some (compare a expected)

/-- The order of a JSON value against this one, if the two are comparable. -/
def order? (v : Value) (candidate : Json) : Option Ordering :=
  match v with
  | text s => candidate.asString?.map fun t => compare t s
  | enum _ variant => candidate.asString?.map fun t => compare t variant
  | bool b => candidate.asBool?.map fun c => compare c b
  | uuid u => orderText? Uuid.read Uuid.compare u candidate
  | date d => orderText? readDate Date.compare d candidate
  | time t => orderText? readTime Time.compare t candidate
  | dateTime w => orderText? readWallTime WallTime.compare w candidate
  | v =>
    match v.instant? with
    | some t => candidate.instant?.map fun u => u.compare t
    | none => do
      let d ← v.decimal?
      let e ← candidate.decimal?
      some (e.compare d)

end Value

end RecordFilter

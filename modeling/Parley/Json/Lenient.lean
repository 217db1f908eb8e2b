import Parley.Json.Basic
import Parley.Number.Reading

/-! Loosely typed JSON: numbers and truth values that may be written in more than one way, and records
whose fields may be left out. -/
namespace Parley.Json.Lenient

/-- A truth value, a word for one, or a number that is zero or one. -/
def bool? : Json → Option Bool
  | .bool b => some b
  | .str s => Reading.bool? s
  | .int n => if n = 0 then some false else if n = 1 then some true else none
  | .real x => if x.toInt? = some 0 then some false else if x.toInt? = some 1 then some true else none
  | _ => none

/-- An integer, a truth value as zero or one, an integral number small enough, or a numeral. -/
def int? : Json → Option Int
  | .int n => some n
  | .bool b => some (if b then 1 else 0)
  | .real x => x.toInt?.bind fun n => if Reading.inWordRange n then some n else none
  | .str s => Reading.int? s
  | _ => none

/-- An array of values that are all read. -/
def list? {α : Type} (item : Json → Option α) (value : Json) : Option (List α) :=
  value.arr?.bind fun items => items.mapM item

/-- An object whose values are all read. -/
def table? {α : Type} (item : Json → Option α) (value : Json) : Option (Table α) :=
  value.obj?.bind fun fields =>
    (fields.mapM fun field => (item field.2).map fun read => (field.1, read)).map Table.ofList

/-- An object that has no field but those named. -/
def record? (keys : List String) (value : Json) : Option Json :=
  value.obj?.bind fun fields => if fields.all (·.1 ∈ keys) then some value else none

/-- A field that must be there. -/
def required {α : Type} (key : String) (read : Json → Option α) (value : Json) : Option α :=
  (value.field? key).bind read

/-- A field that may be left out. -/
def optional {α : Type} (key : String) (absent : α) (read : Json → Option α) (value : Json) : Option α :=
  match value.field? key with
  | none => some absent
  | some field => read field

/-- A value that may be null. -/
def nullable {α : Type} (read : Json → Option α) (value : Json) : Option (Option α) :=
  if value.isNull then some none else (read value).map some

end Parley.Json.Lenient

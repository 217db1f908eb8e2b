import Parley.Number.Binary64
import Parley.Table

/-! JSON values.

Integers and double-precision numbers are kept apart: a numeral without fraction and exponent is an
integer of any size. An object is a list of fields in the order of the text; `Json.object` makes one in
which each key stands once. -/
namespace Parley

/-- A JSON value. -/
inductive Json where
  | null
  | bool (value : Bool)
  | int (value : Int)
  | real (value : Binary64)
  | str (value : String)
  | arr (items : List Json)
  | obj (fields : List (String × Json))

namespace Json

instance : Inhabited Json := ⟨null⟩

/-- The object that a list of fields makes: a later value for a key replaces an earlier one where that
stands. -/
def object (fields : List (String × Json)) : Json := obj (Table.ofList fields).entries

/-- The value of a field. -/
def field? (key : String) : Json → Option Json
  | obj fields => (fields.find? (·.1 = key)).map Prod.snd
  | _ => none

def str? : Json → Option String
  | str s => some s
  | _ => none

def bool? : Json → Option Bool
  | bool b => some b
  | _ => none

def int? : Json → Option Int
  | int n => some n
  | _ => none

def arr? : Json → Option (List Json)
  | arr items => some items
  | _ => none

def obj? : Json → Option (List (String × Json))
  | obj fields => some fields
  | _ => none

def isNull : Json → Bool
  | null => true
  | _ => false

/-- Whether a value counts as true: everything does but nothing, the number zero and what is empty. -/
def truth : Json → Bool
  | null => false
  | bool b => b
  | int n => n != 0
  | real x => !x.isZero
  | str s => !s.isEmpty
  | arr items => !items.isEmpty
  | obj fields => !fields.isEmpty

end Json

end Parley

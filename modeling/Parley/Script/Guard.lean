import Parley.Text.Blank
import Parley.Text.Quoted

/-! Guards: the comparison of a variable with a truth value. -/
namespace Parley

/-- How a guard compares. -/
inductive Comparison where
  | equal
  | notEqual
  deriving DecidableEq, Repr

namespace Comparison

/-- The sign of a comparison. -/
def sign : Comparison → String
  | equal => "=="
  | notEqual => "!="

/-- The comparison with a sign. -/
def ofSign? (text : String) : Option Comparison :=
  if text = "==" then some equal else if text = "!=" then some notEqual else none

/-- The operators of guards, words in lower case. -/
def operators : List (String × Comparison) :=
  [("==", equal), ("eq", equal), ("is", equal), ("!=", notEqual), ("neq", notEqual)]

/-- The comparison that an operator names: blanks around it and the letter case of ASCII do not matter. -/
def ofOperator? (token : List Char) : Option Comparison :=
  let word := String.ofList ((Text.trim token).map Char.toLower)
  (operators.find? (·.1 = word)).map Prod.snd

/-- The message about an operator that is none. -/
def unknownOperator (token : List Char) : String :=
  "Unknown condition operator: " ++ String.ofList (Text.quoted token)

/-- Whether a value compares so with another. -/
def holds : Comparison → Bool → Bool → Bool
  | equal, a, b => a == b
  | notEqual, a, b => a != b

end Comparison

/-- A condition on one variable. -/
structure Guard where
  variableName : String
  comparison : Comparison
  value : Bool
  deriving DecidableEq, Repr

/-- Whether a guard holds where variables have the values that `get` gives. A variable without a value
fails every guard. -/
def Guard.holds (guard : Guard) (get : String → Option Bool) : Bool :=
  match get guard.variableName with
  | some value => guard.comparison.holds value guard.value
  | none => false

/-- Whether nothing, or a guard, lets something through. -/
def allows (guard : Option Guard) (get : String → Option Bool) : Bool :=
  match guard with
  | none => true
  | some guard => guard.holds get

end Parley

import Parley.Json.Lenient

/-! The truth values that guards ask for, under their names. -/
namespace Parley

/-- Variables and their values, in the order in which they first got one. -/
abbrev Variables : Type := Table Bool

namespace Variables

/-- The variables of an object of loosely typed truth values. -/
def ofJson? (value : Json) : Option Variables := Json.Lenient.table? Json.Lenient.bool? value

/-- The variables that a host begins with: the field `variables` and no other, or nothing. -/
def initial? (value : Json) : Option Variables :=
  (Json.Lenient.record? ["variables"] value).bind
    (Json.Lenient.optional "variables" .empty ofJson?)

end Variables

end Parley

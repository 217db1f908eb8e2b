import Parley.Json.Basic

/-! The shape of a compiled dialog. -/
namespace Parley.Document

/-- What a JSON value may look like. -/
abbrev Shape : Type := Json → Bool

namespace Shape

def string : Shape
  | .str _ => true
  | _ => false

/-- A string that is not empty. -/
def name : Shape
  | .str s => !s.isEmpty
  | _ => false

def bool : Shape
  | .bool _ => true
  | _ => false

/-- An integer from zero on; an integral number counts as one, a truth value does not. -/
def natural : Shape
  | .int n => 0 ≤ n
  | .real x => x.toInt?.any (0 ≤ ·)
  | _ => false

def null : Shape := Json.isNull

/-- One of some strings. -/
def oneOf (texts : List String) : Shape
  | .str s => texts.contains s
  | _ => false

/-- A value of one shape or another; the shapes are such that no value has two of them. -/
def either (shapes : List Shape) : Shape := fun value => shapes.any (· value)

def array (item : Shape) : Shape
  | .arr items => items.all item
  | _ => false

/-- An array that is not empty. -/
def row (item : Shape) : Shape
  | .arr items => !items.isEmpty && items.all item
  | _ => false

/-- An object whose values are all of a shape. -/
def map (item : Shape) : Shape
  | .obj fields => fields.all fun field => item field.2
  | _ => false

/-- An object with some fields, and perhaps others, and no more. -/
def record (required optional : List (String × Shape)) : Shape
  | .obj fields =>
    required.all (fun part => fields.any (·.1 = part.1)) &&
      fields.all fun field => (required ++ optional).any fun part => part.1 = field.1 && part.2 field.2
  | _ => false

end Shape

open Shape

def targetShape : Shape := either [natural, null]

def guardShape : Shape :=
  record [("variable_name", name), ("kind", oneOf ["==", "!="]), ("value", bool)] []

def choiceShape : Shape :=
  record [("text", string), ("jump_to_node_title", name)]
    [("target_index", targetShape), ("condition", either [null, guardShape])]

def tagShape : Shape := record [("name", string), ("value", string)] []

def lineShape : Shape := either [
  record [("kind", oneOf ["set"]), ("variable_name", name), ("value", bool)] [],
  record [("kind", oneOf ["command"]), ("func_name", name)] [("args", array string)],
  record [("kind", oneOf ["dialog"]), ("text", string)] [("speaker", string), ("tags", array tagShape)],
  record [("kind", oneOf ["jump"]), ("node_title", name)] [("target_index", targetShape)],
  record [("kind", oneOf ["option"]), ("possibilities", row choiceShape)] [("speaker", string)]]

def nodeShape : Shape :=
  record [("title", name), ("lines", row lineShape)]
    [("headers", map string), ("line_number", natural)]

/-- The shape of a compiled dialog. -/
def dialogShape : Shape := record [("id", string), ("nodes", row nodeShape)] []

end Parley.Document

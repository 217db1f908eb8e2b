import Parley.Dialog.Basic
import Parley.Json.Basic

/-! Writing dialogs as documents: every field of every line is written, in one order. -/
namespace Parley.Document

variable {ι : Type}

/-- An index that may be missing. -/
def ofIndex? : Option Int → Json
  | some n => .int n
  | none => .null

/-- An index that is there. -/
def ofIndex (index : Nat) : Json := .int index

def ofGuard (guard : Guard) : Json :=
  .obj [("variable_name", .str guard.variableName), ("kind", .str guard.comparison.sign),
    ("value", .bool guard.value)]

def ofTag (tag : Tag) : Json := .obj [("name", .str tag.name), ("value", .str tag.value)]

def ofChoice (index : ι → Json) (choice : Choice ι) : Json :=
  .obj [("text", .str choice.text), ("jump_to_node_title", .str choice.target),
    ("target_index", index choice.index), ("condition", choice.guard.elim .null ofGuard)]

def ofLine (index : ι → Json) : Line ι → Json
  | .assign variableName value =>
    .obj [("kind", .str "set"), ("variable_name", .str variableName), ("value", .bool value)]
  | .command name arguments =>
    .obj [("kind", .str "command"), ("func_name", .str name), ("args", .arr (arguments.map .str))]
  | .say speaker text tags =>
    .obj [("kind", .str "dialog"), ("speaker", .str speaker), ("text", .str text),
      ("tags", .arr (tags.map ofTag))]
  | .jump target i =>
    .obj [("kind", .str "jump"), ("node_title", .str target), ("target_index", index i)]
  | .offer menu =>
    .obj [("kind", .str "option"), ("speaker", .str menu.speaker),
      ("possibilities", .arr (menu.choices.map (ofChoice index)))]

/-- What is written for a lone half in the key of a header. -/
def replacement : List Char := ['\uFFFD', '\uFFFD', '\uFFFD']

/-- Headers. Their keys are written without lone halves; of keys that become one the last gives the value. -/
def ofHeaders (headers : Table String) : Json :=
  .object (headers.entries.map fun entry => (Text.withoutHalves replacement entry.1, .str entry.2))

/-- The document of a node, with its indices written by `index`. -/
def ofNode (index : ι → Json) (node : Node ι) : Json :=
  .obj [("title", .str node.title), ("lines", .arr (node.lines.map (ofLine index))),
    ("headers", ofHeaders node.headers), ("line_number", .int node.lineNumber)]

/-- The document of a dialog. -/
def ofDialog (dialog : Dialog) : Json :=
  .obj [("id", .str dialog.id), ("nodes", .arr (dialog.nodes.map (ofNode ofIndex)))]

end Parley.Document

import Parley.Script.Guard
import Parley.Table

/-! Scripts: titled nodes and the lines in them.

Jumps and choices name the node they lead to, and keep beside the name an index of the type `ι`: in a
script as it is read there may be none, in a dialog it is the position of the node. -/
namespace Parley

/-- A note on something said. -/
structure Tag where
  name : String
  value : String
  deriving DecidableEq, Repr

variable {ι κ : Type}

/-- One entry of a menu. -/
structure Choice (ι : Type) where
  text : String
  target : String
  index : ι
  guard : Option Guard
  deriving DecidableEq

/-- Choices offered together. -/
structure Menu (ι : Type) where
  speaker : String
  choices : List (Choice ι)
  choices_ne : choices ≠ []
  deriving DecidableEq

/-- One line of a node. -/
inductive Line (ι : Type) where
  /-- Give a variable a value. -/
  | assign (variableName : String) (value : Bool)
  /-- Have the host do something. -/
  | command (name : String) (arguments : List String)
  /-- Say something; the speaker may be empty. -/
  | say (speaker text : String) (tags : List Tag)
  /-- Go on at another node. -/
  | jump (target : String) (index : ι)
  /-- Let the player choose. -/
  | offer (menu : Menu ι)
  deriving DecidableEq

/-- A titled block of lines, with the number of the line that gives its title. -/
structure Node (ι : Type) where
  title : String
  lines : List (Line ι)
  headers : Table String
  lineNumber : Int
  lines_ne : lines ≠ []
  deriving DecidableEq

/-- The words of the header `tags`. -/
def Node.tags (node : Node ι) : List String :=
  (Text.words ((node.headers.get? "tags").getD "").toList).map String.ofList

/-! ### References -/

/-- The titles that a line refers to, with their indices. -/
def Line.references : Line ι → List (String × ι)
  | .jump target index => [(target, index)]
  | .offer menu => menu.choices.map fun choice => (choice.target, choice.index)
  | _ => []

/-- The titles that a node refers to, with their indices. -/
def Node.references (node : Node ι) : List (String × ι) := node.lines.flatMap Line.references

/-! ### Changing indices -/

def Choice.reindex (f : String → ι → κ) (choice : Choice ι) : Choice κ :=
  { choice with index := f choice.target choice.index }

def Menu.reindex (f : String → ι → κ) (menu : Menu ι) : Menu κ where
  speaker := menu.speaker
  choices := menu.choices.map (Choice.reindex f)
  choices_ne := by simpa using menu.choices_ne

def Line.reindex (f : String → ι → κ) : Line ι → Line κ
  | .assign variableName value => .assign variableName value
  | .command name arguments => .command name arguments
  | .say speaker text tags => .say speaker text tags
  | .jump target index => .jump target (f target index)
  | .offer menu => .offer (menu.reindex f)

/-- The node with each index changed, as its title and the index there was say. -/
def Node.reindex (f : String → ι → κ) (node : Node ι) : Node κ where
  title := node.title
  lines := node.lines.map (Line.reindex f)
  headers := node.headers
  lineNumber := node.lineNumber
  lines_ne := by simpa using node.lines_ne

theorem Line.references_reindex (f : String → ι → κ) (line : Line ι) :
    (line.reindex f).references = line.references.map fun r => (r.1, f r.1 r.2) := by
  cases line with
  | offer menu => simp [Line.reindex, Line.references, Menu.reindex, Choice.reindex]
  | _ => rfl

theorem Node.references_reindex (f : String → ι → κ) (node : Node ι) :
    (node.reindex f).references = node.references.map fun r => (r.1, f r.1 r.2) := by
  simp only [Node.references, Node.reindex, List.flatMap_map, List.map_flatMap, Line.references_reindex]

end Parley

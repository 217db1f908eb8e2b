import Parley.Script.Basic
import Parley.Names

/-! Dialogs: nodes whose references are positions.

In a dialog every title stands once, and the index of every jump and every choice is the position of the
node that it names. -/
namespace Parley

/-- A member of a list by its position, a negative position counting from the end. -/
def pick? {α : Type} (items : List α) (position : Int) : Option α :=
  if 0 ≤ position then items[position.toNat]?
  else if position.natAbs ≤ items.length then items[items.length - position.natAbs]?
  else none

/-- Why there is no member at a position. -/
inductive PositionFault where
  | outside
  /-- The position is beyond a machine word. -/
  | beyondWord
  deriving DecidableEq, Repr

/-- What is said about a position in a row, which is a list or a tuple. -/
def PositionFault.message (row : String) : PositionFault → String
  | outside => s!"{row} index out of range"
  | beyondWord => "cannot fit 'int' into an index-sized integer"

/-- A member of a list by its position, or why there is none. -/
def pick {α : Type} (items : List α) (position : Int) : Except PositionFault α :=
  if position < -0x8000000000000000 ∨ 0x8000000000000000 ≤ position then .error .beyondWord
  else
    match pick? items position with
    | some item => .ok item
    | none => .error .outside

/-- A loaded dialog. -/
structure Dialog where
  id : String
  nodes : List (Node Nat)
  distinct : (nodes.map Node.title).Nodup
  resolved : ∀ node ∈ nodes, ∀ r ∈ node.references, (nodes[r.2]?).map Node.title = some r.1

namespace Dialog

def titles (dialog : Dialog) : List String := dialog.nodes.map Node.title

/-- The position of a title. -/
def indexOf? (dialog : Dialog) (title : String) : Option Nat :=
  dialog.nodes.findIdx? (·.title = title)

def contains (dialog : Dialog) (title : String) : Bool := (dialog.indexOf? title).isSome

/-- The node with a title. -/
def node? (dialog : Dialog) (title : String) : Option (Node Nat) :=
  (dialog.indexOf? title).bind (dialog.nodes[·]?)

/-- The node at a position, a negative position counting from the end. -/
def nodeAt (dialog : Dialog) (position : Int) : Except PositionFault (Node Nat) := pick dialog.nodes position

/-- The title at a position; no text where there is no node. -/
def titleAt (dialog : Dialog) (position : Nat) : String := (dialog.nodes[position]?).elim "" Node.title

/-- The names of the commands that any node has, ascending, each once. -/
def commandNames (dialog : Dialog) : List String :=
  Names.sorted <| dialog.nodes.flatMap fun node => node.lines.filterMap fun
    | .command name _ => some name
    | _ => none

/-- Why nothing is led to. -/
inductive TargetFault where
  | position (fault : PositionFault)
  /-- No node has the title. -/
  | noNode
  /-- The line is no jump. -/
  | noJump (line : Line Nat)
  /-- The line is no menu. -/
  | noMenu (line : Line Nat)
  deriving DecidableEq

/-- The position of the node that a jump, or one choice of a menu, leads to. -/
def indexAt (dialog : Dialog) (title : String) (line : Int) (choice : Option Int) : Except TargetFault Nat := do
  let node ← ((dialog.node? title).map Except.ok).getD (.error .noNode)
  match ← (pick node.lines line).mapError .position, choice with
  | .jump _ index, none => .ok index
  | .offer menu, some position => ((pick menu.choices position).map Choice.index).mapError .position
  | line, none => .error (.noJump line)
  | line, some _ => .error (.noMenu line)

/-- The title that a jump, or one choice of a menu, leads to. -/
def targetOf (dialog : Dialog) (title : String) (line : Int) (choice : Option Int) :
    Except TargetFault String :=
  (dialog.indexAt title line choice).map dialog.titleAt

/-- A dialog in one line. -/
def summary (dialog : Dialog) : String :=
  s!"Dialog(id={Text.quote dialog.id}, nodes={dialog.nodes.length})"

/-- The same dialog under another name. -/
def withId (dialog : Dialog) (id : String) : Dialog := { dialog with id }

end Dialog

end Parley

import Parley.Proofs.Script.Steps

/-! Lines at other places.

What lines say does not depend on where they stand: lines that have been moved are read as the lines were, and only
the places in what is read have been moved with them (`readItems_moved`, `scan_moved`). -/
namespace Parley

namespace Script

/-- Where the numbers of lines and those of columns are moved. -/
structure Move where
  line : Nat → Nat
  column : Nat → Nat

def SourceLine.moved (move : Move) (line : SourceLine) : SourceLine :=
  ⟨move.line line.number, move.column line.column, line.text⟩

def Fault.moved (move : Move) (fault : Fault) : Fault :=
  ⟨move.line fault.line, move.column fault.column, fault.reason⟩

end Script

open Script

/-- A node with the number of its line moved. -/
def Node.moved (move : Move) (node : Node (Option Int)) : Node (Option Int) :=
  { node with lineNumber := move.line node.lineNumber.toNat }

/-- A node that stands some lines further down. -/
def Node.lowered (count : Nat) (node : Node (Option Int)) : Node (Option Int) :=
  { node with lineNumber := node.lineNumber + count }

/-- A node, whatever the number of its line is. -/
def Node.unnumbered (node : Node (Option Int)) : Node (Option Int) := { node with lineNumber := 0 }

namespace Script

def Stage.moved (move : Move) : Stage → Stage
  | .heading title headers => .heading (title.map fun given => (given.1, move.line given.2)) headers
  | .body title titleLine headers lines =>
    .body title (move.line titleLine) headers (lines.map (SourceLine.moved move))

/-- What is read of lines that have been moved: the places in it are moved by `f`, those of a fault as faults are. -/
def relocate {α : Type} (move : Move) (f : α → α) (reading : Except Fault α) : Except Fault α :=
  (reading.map f).mapError (Fault.moved move)

variable (move : Move)

@[simp] theorem relocate_ok {α : Type} (f : α → α) (a : α) : relocate move f (.ok a) = .ok (f a) := rfl

@[simp] theorem relocate_error {α : Type} (f : α → α) (fault : Fault) :
    relocate move f (.error fault) = .error (fault.moved move) := rfl

/-! ### Bodies -/

theorem locate_moved {α : Type} (line : SourceLine) (reading : Except Reason α) :
    (line.moved move).locate reading = relocate move id (line.locate reading) := by
  cases reading <;> rfl

theorem readItems_moved (lines : List SourceLine) :
    readItems (lines.map (SourceLine.moved move)) = relocate move id (readItems lines) := by
  induction lines using readItems.induct with
  | case1 => rfl
  | case2 line rest harrow ih =>
    have harrow' : arrow? (line.moved move).text = none := harrow
    rw [List.map_cons, readItems, readItems, harrow, harrow', ih]
    show (line.moved move).locate (readLine line.text) >>= _ = _
    rw [locate_moved]
    cases line.locate (readLine line.text) with
    | error fault => rfl
    | ok read => cases readItems rest <;> rfl
  | case3 line rest option harrow ih =>
    have harrow' : arrow? (line.moved move).text = some option := harrow
    rw [List.map_cons, readItems, readItems, harrow, harrow']
    simp only [locate_moved]
    cases line.locate (readEntry option) with
    | error fault => rfl
    | ok entry =>
      cases rest with
      | nil => rfl
      | cons follower rest =>
        have hfollower : (follower.moved move).text = follower.text := rfl
        simp only [List.map_cons, hfollower]
        cases jumpOf? follower.text with
        | none => rfl
        | some target =>
          simp only [ih]
          cases readItems rest <;> rfl

theorem closeBody_moved (title : String) (titleLine : Nat) (headers : Table String) (lines : List SourceLine)
    (closing : SourceLine) :
    closeBody title (move.line titleLine) headers (lines.map (SourceLine.moved move)) (closing.moved move) =
      relocate move (Node.moved move) (closeBody title titleLine headers lines closing) := by
  rw [closeBody, closeBody, readItems_moved]
  cases readItems lines with
  | error fault => rfl
  | ok items =>
    show dite (items = []) _ _ = relocate move (Node.moved move) (dite (items = []) _ _)
    split <;> rfl

/-! ### Scripts -/

/-- A line that has been moved does what the line does. -/
theorem step_moved (stage : Stage) (line : SourceLine) :
    (stage.moved move).step (line.moved move) =
      relocate move (fun made => (made.1.map (Node.moved move), made.2.moved move)) (stage.step line) := by
  have htext : (line.moved move).text = line.text := rfl
  cases stage with
  | heading title headers =>
    simp only [Stage.moved, Stage.step, htext]
    split
    · cases title <;> rfl
    · unfold readHeader
      rw [htext]
      cases header? line.text with
      | none => rfl
      | some found =>
        simp only [Option.isSome_map]
        split
        · rfl
        · split
          · split <;> rfl
          · rfl
  | body title titleLine headers lines =>
    simp only [Stage.moved, Stage.step, htext]
    split
    · rw [closeBody_moved]
      cases closeBody title titleLine headers lines line <;> rfl
    · split
      · rfl
      · simp

theorem unfinished?_moved (move : Move) (stage : Stage) : (stage.moved move).unfinished? = stage.unfinished? := by
  cases stage with
  | body => rfl
  | heading title headers => cases title <;> rfl

/-- **Lines that have been moved are read as the lines were.** -/
theorem scan_moved (stage : Stage) (lines : List SourceLine) :
    scan (stage.moved move) (lines.map (SourceLine.moved move)) =
      relocate move (fun read => (read.1.map (Node.moved move), read.2.moved move)) (scan stage lines) := by
  induction lines generalizing stage with
  | nil => rfl
  | cons line rest ih =>
    rw [List.map_cons, scan, scan, step_moved]
    cases stage.step line with
    | error fault => rfl
    | ok made =>
      show scan (made.2.moved move) (rest.map (SourceLine.moved move)) >>= _ = relocate move _ (scan made.2 rest >>= _)
      rw [ih]
      cases scan made.2 rest with
      | error fault => rfl
      | ok read => cases made.1 <;> rfl

end Script

end Parley

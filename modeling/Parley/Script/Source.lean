import Parley.Script.Fault
import Parley.Text.Lead
import Parley.Text.Lines
import Parley.Text.Word

/-! The lines of a script that matter: neither blank nor a comment. -/
namespace Parley.Script

/-- A line that matters, with its number, the column of its first character, and its text without the
blanks around it. -/
structure SourceLine where
  number : Nat
  column : Nat
  text : List Char
  deriving DecidableEq, Repr

/-- What is wrong, at a line. -/
def SourceLine.fault (line : SourceLine) (reason : Reason) : Fault := ⟨line.number, line.column, reason⟩

/-- What a reading of a line gives, a reason put in its place. -/
def SourceLine.locate {α : Type} (line : SourceLine) (reading : Except Reason α) : Except Fault α :=
  reading.mapError line.fault

/-- Whether a line without the blanks around it says nothing. -/
def isSilent (text : List Char) : Bool := text.isEmpty || (Text.after? ['/', '/'] text).isSome

/-- The line with a number, if it matters. -/
def SourceLine.ofRaw? (number : Nat) (raw : List Char) : Option SourceLine :=
  let text := Text.trim raw
  if isSilent text then none
  else some ⟨number, (raw.takeWhile Text.isBlank).length + 1, text⟩

/-- The lines that matter, of lines numbered on from `number`. -/
def sourceLines (number : Nat) : List (List Char) → List SourceLine
  | [] => []
  | raw :: rest => (SourceLine.ofRaw? number raw).toList ++ sourceLines (number + 1) rest

theorem sourceLines_append (number : Nat) (a b : List (List Char)) :
    sourceLines number (a ++ b) = sourceLines number a ++ sourceLines (number + a.length) b := by
  induction a generalizing number with
  | nil => simp [sourceLines]
  | cons raw rest ih =>
    simp only [List.cons_append, sourceLines, ih, List.append_assoc, List.length_cons]
    rw [show number + 1 + rest.length = number + (rest.length + 1) by omega]

/-- A text without the `>>` that it ends in. -/
def dropClosing? (s : List Char) : Option (List Char) :=
  (Text.after? ['>', '>'] s.reverse).map List.reverse

/-- What stands between the brackets of a statement. -/
def statement? (s : List Char) : Option (List Char) :=
  ((Text.after? ['<', '<'] s).bind dropClosing?).map Text.trim

/-! ### Titles -/

/-- A character of a title. -/
def isTitleChar (c : Char) : Bool := Text.isWord c || c == '.' || c == '-'

/-- Whether a text can be a title. -/
def isTitle (s : List Char) : Bool := !s.isEmpty && s.all isTitleChar

/-- The truth value that a token writes. -/
def truth (token : List Char) : Except Reason Bool :=
  if token = "true".toList then .ok true
  else if token = "false".toList then .ok false
  else .error (.notTruthValue token)

end Parley.Script

import Parley.Proofs.Text.Rows
import Parley.Proofs.Text.Shell
import Parley.Script.Reader

/-! Printing a script.

A node is printed as the row of its title, the rows of its headers, `---`, the rows of its lines, and `===`.
A printed script is read back as it was if its texts can stand where they are printed: `Node.Printable` says
what that takes. -/
namespace Parley

open Script Text

variable {ι : Type}

/-! ### What is printed -/

/-- The word for a truth value. -/
def truthWord (value : Bool) : List Char := if value then ['t', 'r', 'u', 'e'] else ['f', 'a', 'l', 's', 'e']

/-- A text between double angle brackets. -/
def bracketed (inner : List Char) : List Char := '<' :: '<' :: (inner ++ ['>', '>'])

def assignRow (variableName : String) (value : Bool) : List Char :=
  bracketed (['s', 'e', 't', ' ', '$'] ++ (variableName.toList ++ ([' ', 't', 'o', ' '] ++ truthWord value)))

def jumpRow (target : String) : List Char := bracketed (['j', 'u', 'm', 'p', ' '] ++ target.toList)

def commandRow (name : String) (arguments : List String) : List Char :=
  bracketed (Shell.line name.toList (arguments.map String.toList))

/-- A text after the speaker, if there is one. -/
def spoken (speaker text : String) : List Char :=
  if speaker = "" then text.toList else speaker.toList ++ ':' :: ' ' :: text.toList

def Tag.printed (tag : Tag) : List Char := '#' :: (tag.name.toList ++ ':' :: tag.value.toList)

def sayRow (speaker text : String) (tags : List Tag) : List Char :=
  spoken speaker text ++ tags.flatMap fun tag => ' ' :: tag.printed

/-- What a guard asks: the name of the variable, the sign, and the value. -/
def Guard.question (guard : Guard) : List Char :=
  [' ', '$'] ++ (guard.variableName.toList ++ ' ' :: (guard.comparison.sign.toList ++ ' ' :: truthWord guard.value))

def Guard.printed (guard : Guard) : List Char := bracketed ('i' :: 'f' :: guard.question)

/-- The row of an entry, without the jump that goes with it. -/
def Choice.row (speaker : String) (choice : Choice ι) : List Char :=
  ['-', '>', ' '] ++ (spoken speaker choice.text ++ choice.guard.elim [] fun guard => ' ' :: guard.printed)

/-- An entry is printed with its jump. -/
def Choice.rows (speaker : String) (choice : Choice ι) : List (List Char) :=
  [choice.row speaker, jumpRow choice.target]

/-- The speaker of a menu stands before the first of its entries. -/
def choiceRows (speaker : String) : List (Choice ι) → List (List Char)
  | [] => []
  | choice :: rest => choice.rows speaker ++ choiceRows "" rest

def Line.rows : Line ι → List (List Char)
  | .assign variableName value => [assignRow variableName value]
  | .command name arguments => [commandRow name arguments]
  | .say speaker text tags => [sayRow speaker text tags]
  | .jump target _ => [jumpRow target]
  | .offer menu => choiceRows menu.speaker menu.choices

def headerRow (entry : String × String) : List Char := entry.1.toList ++ ':' :: ' ' :: entry.2.toList

def Node.rows (node : Node ι) : List (List Char) :=
  headerRow ("title", node.title) :: (node.headers.entries.map headerRow ++
    ['-', '-', '-'] :: (node.lines.flatMap Line.rows ++ [['=', '=', '=']]))

/-- The script of nodes, every row ended by a line feed. -/
def print (nodes : List (Node ι)) : String :=
  String.ofList ((nodes.flatMap Node.rows).flatMap (· ++ ['\n']))

/-! ### What can be printed -/

/-- Two angle brackets in a row, which begin a statement, stand nowhere in a text. -/
def Unbracketed (s : List Char) : Prop := ¬['<', '<'] <:+: s

/-- A guard begins a text: two angle brackets, blanks, and the word `if`. -/
def Opens (s : List Char) : Prop :=
  ∃ gap rest, s = ['<', '<'] ++ (gap ++ (['i', 'f'] ++ rest)) ∧ (∀ c ∈ gap, isBlank c = true) ∧
    ∀ c ∈ rest.head?, isWord c = false

/-- A guard begins nowhere in a text. -/
def Unguarded (s : List Char) : Prop := ∀ t, t <:+ s → ¬Opens t

/-- A text that can be said: not empty, trimmed, on one line, without brackets and without what begins a tag. -/
structure Sayable (text : String) : Prop where
  ne : text ≠ ""
  trimmed : trim text.toList = text.toList
  unbroken : Unbroken text.toList
  unbracketed : Unbracketed text.toList
  untagged : '#' ∉ text.toList

/-- A text that reads as a speaker and what they say: a name, blanks, a colon, and after it a blank or the
end. -/
def Addressed (s : List Char) : Prop :=
  ∃ name gap rest, s = name ++ (gap ++ ':' :: rest) ∧ isSpeaker name = true ∧
    (∀ c ∈ gap, isBlank c = true) ∧ ∀ c ∈ rest.head?, isBlank c = true

/-- Nobody, or a name that does not end in a space. -/
def CanSpeak (speaker : String) : Prop :=
  speaker ≠ "" → isSpeaker speaker.toList = true ∧ ∀ c ∈ speaker.toList.getLast?, c ≠ ' '

/-- A text without a speaker that reads as speech: it is not taken for an option, a comment or the edge of a
body. -/
structure Plain (s : List Char) : Prop where
  not_option : ¬['-', '>'] <+: s
  not_comment : ¬['/', '/'] <+: s
  not_opening : s ≠ ['-', '-', '-']
  not_closing : s ≠ ['=', '=', '=']

structure Tag.Printable (tag : Tag) : Prop where
  name : isWordText tag.name.toList = true
  value : isToken tag.value.toList = true
  unguarded : Unguarded tag.value.toList

structure Choice.Printable (choice : Choice ι) : Prop where
  text : Sayable choice.text
  target : isTitle choice.target.toList = true
  guard : ∀ guard ∈ choice.guard, isWordText guard.variableName.toList = true

/-- Entries, the first of them after a speaker. -/
def ChoicesPrintable (speaker : String) : List (Choice ι) → Prop
  | [] => True
  | choice :: rest =>
    choice.Printable ∧ (speaker = "" → ¬Addressed choice.text.toList) ∧ ChoicesPrintable "" rest

def Line.Printable : Line ι → Prop
  | .assign variableName _ => isWordText variableName.toList = true
  | .command name arguments =>
    isWordText name.toList = true ∧ name ∉ ["set", "jump", "if"] ∧
      ∀ argument ∈ arguments, Unbroken argument.toList
  | .say speaker text tags =>
    CanSpeak speaker ∧ Sayable text ∧ (∀ tag ∈ tags, tag.Printable) ∧
      (speaker = "" → ¬Addressed text.toList ∧ Plain text.toList)
  | .jump target _ => isTitle target.toList = true
  | .offer menu => CanSpeak menu.speaker ∧ ChoicesPrintable menu.speaker menu.choices

/-- What can be printed so that it is read back. Menus that follow one another would be read as one. -/
structure Node.Printable (node : Node ι) : Prop where
  title : isTitle node.title.toList = true
  headers : ∀ entry ∈ node.headers.entries, isWordText entry.1.toList = true ∧ entry.1 ≠ "title" ∧
    trim entry.2.toList = entry.2.toList ∧ Unbroken entry.2.toList
  lines : ∀ line ∈ node.lines, line.Printable
  apart : ¬∃ before menu menu' after, node.lines = before ++ .offer menu :: .offer menu' :: after

/-- Nodes as they are read from their script: there are no indices, and a node has the number of the row of
its title, counted from the one given. -/
def asRead (number : Nat) : List (Node ι) → List (Node (Option Int))
  | [] => []
  | node :: rest =>
    { node.reindex fun _ _ => none with lineNumber := number } :: asRead (number + node.rows.length) rest

end Parley

import Parley.Script.Basic
import Parley.Script.Source

/-! Statements: what stands between double angle brackets.

`set $name to true` and `set $name = true` give a variable a value, `jump Title` goes on at another
node, and anything else is a command with its arguments as a command line gives them. -/
namespace Parley.Script

/-- The first word of a text. -/
def firstWord (s : List Char) : List Char := (Text.trimStart s).takeWhile (!Text.isBlank ·)

/-- What follows a word and the blanks after it, of which there must be one. -/
def afterWord? (word s : List Char) : Option (List Char) :=
  (Text.after? word s).bind fun rest =>
    if rest.head?.any Text.isBlank then some (Text.trimStart rest) else none

/-- The value of an assignment: after `to` or `=`, one token up to the end. -/
def assigned? (s : List Char) : Option (List Char) :=
  let s := Text.trimStart s
  ((Text.after? ['t', 'o'] s).or (Text.after? ['='] s)).bind fun value =>
    let value := Text.trimStart value
    if Text.isToken value then some value else none

/-- The variable and the value of an assignment. The longest name that leaves an assignment is taken. -/
def assignment? (s : List Char) : Option (List Char × List Char) :=
  (afterWord? "set".toList s).bind fun rest =>
    (Text.after? ['$'] rest).bind (Text.cutWord? assigned?)

/-- The title that a jump names. -/
def jumpTarget? (s : List Char) : Option (List Char) :=
  (afterWord? "jump".toList s).bind fun target => if isTitle target then some target else none

/-- A command: its name, then its arguments. -/
def readCommand (s : List Char) : Except Reason (Line (Option Int)) :=
  match Text.Shell.words s with
  | .error fault => .error (.malformedArguments fault)
  | .ok [] => .error .emptyCommand
  | .ok (name :: arguments) =>
    if Text.isWordText name then .ok (.command (String.ofList name) (arguments.map String.ofList))
    else .error (.invalidCommandName name)

/-- The line that a statement is. -/
def readStatement (s : List Char) : Except Reason (Line (Option Int)) :=
  match statement? s with
  | none => .error .unterminatedStatement
  | some inner =>
    let word := firstWord inner
    if word = "set".toList then
      match assignment? inner with
      | none => .error .malformedAssignment
      | some (name, value) => (truth value).map fun value => .assign (String.ofList name) value
    else if word = "jump".toList then
      match jumpTarget? inner with
      | none => .error .malformedJump
      | some target => .ok (.jump (String.ofList target) none)
    else if word = "if".toList then .error .misplacedGuard
    else readCommand inner

end Parley.Script

import Parley.Script.Guard
import Parley.Text.Shell

/-! What can be wrong with a script, and where. -/
namespace Parley.Script

/-- What is wrong. -/
inductive Reason where
  /-- A body goes on to the end of the script, or into another body. -/
  | unclosedNode (title : String)
  /-- A body begins before its node has a title. -/
  | untitledBody
  /-- A line before a body is no header. -/
  | notHeader (text : List Char)
  | repeatedHeader (key : String)
  | invalidTitle (text : List Char)
  /-- Headers stand at the end of the script. -/
  | headersWithoutBody
  | noNodes
  | emptyNode (title : String)
  | unterminatedStatement
  | malformedAssignment
  | malformedJump
  /-- A guard stands on a line that is no option. -/
  | misplacedGuard
  | malformedArguments (fault : Text.Shell.Fault)
  | emptyCommand
  | invalidCommandName (name : List Char)
  | malformedCondition
  | unknownOperator (token : List Char)
  | notTruthValue (token : List Char)
  | speechWithoutText
  | optionWithoutText
  /-- An option is the last line of its node. -/
  | optionAtEnd (text : List Char)
  /-- Something other than a jump follows an option. -/
  | optionWithoutJump (text : List Char)
  deriving DecidableEq, Repr

/-- A text in quotes, as it stands in a reason. -/
def quote (text : List Char) : String := String.ofList (Text.quoted text)

def Reason.message : Reason → String
  | unclosedNode title => s!"node '{title}' is missing its closing '==='"
  | untitledBody => "node body starts before a 'title:' header"
  | notHeader text => s!"expected a 'key: value' header or '---', got {quote text}"
  | repeatedHeader key => s!"header '{key}' given twice"
  | invalidTitle text => s!"invalid node title {quote text}"
  | headersWithoutBody => "header block is not followed by a node body"
  | noNodes => "script contains no nodes"
  | emptyNode title => s!"node '{title}' has no lines"
  | unterminatedStatement => "unterminated '<<' statement"
  | malformedAssignment => "malformed set, expected '<<set $name to true|false>>'"
  | malformedJump => "malformed jump, expected '<<jump NodeTitle>>'"
  | misplacedGuard => "'<<if ...>>' guards are only allowed on options"
  | malformedArguments fault => s!"malformed command arguments: {fault.message}"
  | emptyCommand => "empty command"
  | invalidCommandName name => s!"invalid command name {quote name}"
  | malformedCondition => "malformed condition, expected '<<if $name == true|false>>'"
  | unknownOperator token => Comparison.unknownOperator token
  | notTruthValue token => s!"expected 'true' or 'false', got {quote token}"
  | speechWithoutText => "dialog line has no text"
  | optionWithoutText => "option has no text"
  | optionAtEnd text => s!"option {quote text} is not followed by a jump line"
  | optionWithoutJump text => s!"option {quote text} must be followed by '<<jump NodeTitle>>'"

/-- What is wrong, with the line and the column of it, both counted from one. -/
structure Fault where
  line : Nat
  column : Nat
  reason : Reason
  deriving DecidableEq, Repr

def Fault.message (fault : Fault) : String :=
  s!"line {fault.line}, column {fault.column}: {fault.reason.message}"

end Parley.Script

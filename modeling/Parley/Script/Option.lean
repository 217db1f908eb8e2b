import Parley.Script.Statement
import Parley.Script.Speech

/-! Options: what the player may choose, and under which condition. -/
namespace Parley.Script

/-! ### Conditions -/

/-- The value of a condition after its operator: one token, which may have blanks around it. -/
def valueOf? (s : List Char) : Option (List Char) :=
  let value := Text.trim s
  if Text.isToken value then some value else none

/-- The operator and the value of a condition after its variable. An operator is a sign, or a word. -/
def compared? (s : List Char) : Option (List Char × List Char) :=
  let s := Text.trimStart s
  match Text.after? ['=', '='] s, Text.after? ['!', '='] s with
  | some rest, _ => (valueOf? rest).map fun value => (['=', '='], value)
  | none, some rest => (valueOf? rest).map fun value => (['!', '='], value)
  | none, none => Text.cutWord? valueOf? s

/-- The variable, the operator and the value of a condition. The longest name that leaves a condition is
taken, and then the longest operator. -/
def condition? (s : List Char) : Option (List Char × List Char × List Char) :=
  (Text.after? ['$'] (Text.trimStart s)).bind (Text.cutWord? compared?)

/-- The guard that a condition is. -/
def readCondition (s : List Char) : Except Reason Guard :=
  match condition? s with
  | none => .error .malformedCondition
  | some (name, operator, value) =>
    match Comparison.ofOperator? operator with
    | none => .error (.unknownOperator operator)
    | some comparison => (truth value).map fun value => ⟨String.ofList name, comparison, value⟩

/-! ### Entries -/

/-- An option without the node it leads to. -/
structure Entry where
  speaker : List Char
  text : List Char
  guard : Option Guard
  deriving DecidableEq, Repr

/-- The guard at the end of a text, if there is one, and the text before it. -/
def cutGuard (s : List Char) : Except Reason (List Char × Option Guard) :=
  match splitGuard? s with
  | none => .ok (s, none)
  | some (before, condition) => (readCondition condition).map fun guard => (Text.trimEnd before, some guard)

/-- An entry after its arrow: the tags at its end are dropped, then the guard is cut off. -/
def readEntry (s : List Char) : Except Reason Entry := do
  let (said, guard) ← cutGuard (splitTags (Text.trimStart s)).1
  let (speaker, text) := splitSpeaker said
  if text.isEmpty then .error .optionWithoutText else .ok ⟨speaker, text, guard⟩

/-- What follows the arrow of an option. -/
def arrow? (s : List Char) : Option (List Char) := Text.after? ['-', '>'] s

/-- The title that a line jumps to. -/
def jumpOf? (s : List Char) : Option (List Char) := (statement? s).bind jumpTarget?

end Parley.Script

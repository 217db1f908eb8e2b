import Parley.Script.Basic

/-! What a playing dialog shows, and what it tells its observers. -/
namespace Parley

/-- A choice as the player sees it. -/
structure Offer where
  text : String
  /-- The title of the node that the choice leads to. -/
  target : String
  /-- Whether the choice has been made before. -/
  used : Bool
  deriving DecidableEq, Repr

/-- What a step shows. -/
inductive Event where
  | speech (speaker text : String) (tags : List Tag)
  | options (speaker : String) (offers : List Offer)
  /-- A choice is due. -/
  | waiting
  | ended
  deriving DecidableEq, Repr

/-- What observers may listen for. -/
inductive Topic where
  | nodeEntered
  | variableSet
  | commandExecuted
  | optionsPresented
  | choiceSelected
  | dialogEnded
  deriving DecidableEq, Repr

/-- Every topic. -/
def Topic.all : List Topic :=
  [nodeEntered, variableSet, commandExecuted, optionsPresented, choiceSelected, dialogEnded]

theorem Topic.mem_all (topic : Topic) : topic ∈ all := by cases topic <;> decide

def Topic.name : Topic → String
  | nodeEntered => "NODE_ENTERED"
  | variableSet => "VARIABLE_SET"
  | commandExecuted => "COMMAND_EXECUTED"
  | optionsPresented => "OPTIONS_PRESENTED"
  | choiceSelected => "CHOICE_SELECTED"
  | dialogEnded => "DIALOG_ENDED"

/-- The topic with a name. -/
def Topic.ofName? (name : String) : Option Topic := all.find? (·.name = name)

/-- What observers are told. -/
inductive Notice where
  | nodeEntered (title : String)
  | variableSet (name : String) (value : Bool)
  | commandExecuted (name : String) (arguments : List String)
  | optionsPresented (title : String) (offers : List Offer)
  | choiceSelected (title choice text : String)
  | dialogEnded (title : String)
  deriving DecidableEq, Repr

/-- What a notice is about. -/
def Notice.topic : Notice → Topic
  | nodeEntered .. => .nodeEntered
  | variableSet .. => .variableSet
  | commandExecuted .. => .commandExecuted
  | optionsPresented .. => .optionsPresented
  | choiceSelected .. => .choiceSelected
  | dialogEnded .. => .dialogEnded

end Parley

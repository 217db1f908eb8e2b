import Parley.Number.Reading
import Parley.Play.Command

/-! Typed commands: functions whose arguments are read from the words of a script.

A function says which parameters it has; a command is refused before the function runs when its words do
not fit them. -/
namespace Parley

/-- What a parameter takes. -/
inductive Kind where
  | text
  | integer
  | real
  | truth
  /-- Any word, as it stands. -/
  | word
  deriving DecidableEq, Repr

/-- The value of a parameter. -/
inductive Value where
  | text (value : String)
  | integer (value : Int)
  | real (value : Binary64)
  | truth (value : Bool)
  deriving DecidableEq, Repr

/-- The value that a word has for a parameter. -/
def Kind.read? (kind : Kind) (word : String) : Option Value :=
  match kind with
  | text | Kind.word => some (.text word)
  | integer => (Reading.int? word).map .integer
  | real => (Reading.binary64? word).map .real
  | truth => (Reading.bool? word).map .truth

/-- A parameter of a function. -/
inductive Parameter where
  /-- Takes the next word; without a default there must be one. -/
  | positional (name : String) (kind : Kind) (default : Option Value)
  /-- Takes every word that is left. -/
  | rest (kind : Kind)
  /-- Takes no word, and so keeps its default if it has one. -/
  | keyword (name : String) (default : Option Value)
  /-- Takes the value of the host. -/
  | host
  deriving DecidableEq, Repr

/-- What a parameter is given. -/
inductive Argument (η : Type) where
  | value (value : Value)
  | host (host : η)
  deriving DecidableEq, Repr

variable {ω η ε : Type}

/-- What the parameters of a function are given, if the words fit them. -/
def bindArguments (host : η) : List Parameter → List String → Option (List (Argument η))
  | [], [] => some []
  | [], _ :: _ => none
  | .positional _ kind _ :: rest, word :: words => do
    let value ← kind.read? word
    return .value value :: (← bindArguments host rest words)
  | .positional _ _ default :: rest, [] => do
    let value ← default
    return .value value :: (← bindArguments host rest [])
  | .rest kind :: rest, words => do
    let values ← words.mapM kind.read?
    return values.map .value ++ (← bindArguments host rest [])
  | .keyword _ default :: rest, words => do
    let value ← default
    return .value value :: (← bindArguments host rest words)
  | .host :: rest, words => do
    return .host host :: (← bindArguments host rest words)

/-- A function of a host. -/
structure HostFunction (ω η ε : Type) where
  name : String
  parameters : List Parameter
  body : List (Argument η) → ω → ω × Option ε

/-- Why a command fails. -/
inductive CommandFault (ε : Type) where
  /-- The words do not fit the parameters of the function. -/
  | badArguments (name : String)
  /-- The function itself failed. -/
  | failed (fault : ε)
  deriving DecidableEq, Repr

namespace HostFunction

/-- Whether a parameter that takes a word has the name of the one that takes the value of the host. -/
def takesHostAsWord (function : HostFunction ω η ε) : Bool :=
  function.parameters.any fun
    | .positional name .. => name == "host"
    | _ => false

/-- The function as the handler of a command. -/
def handler (function : HostFunction ω η ε) (name : String) : Handler ω η (CommandFault ε) :=
  fun words host w =>
    match bindArguments host function.parameters words with
    | none => (w, some (.badArguments name))
    | some arguments =>
      let (w, fault) := function.body arguments w
      (w, fault.map .failed)

end HostFunction

/-- The message about words that do not fit. -/
def badArgumentsMessage (name : String) : String := s!"Bad arguments for command '{name}'"

/-- The message about a parameter named like the host that takes a word. -/
def hostAsWordMessage (name : String) : String := s!"Command '{name}': declare 'host' as keyword-only"

/-- The registry with a function under a name, its own if none is given; a function that takes the value
of the host for a word is refused, with the name it was to have. -/
def Registry.define (registry : Registry ω η (CommandFault ε)) (name : String)
    (function : HostFunction ω η ε) : Except String (Registry ω η (CommandFault ε) × List LogEntry) :=
  let name := if name.isEmpty then function.name else name
  if function.takesHostAsWord then .error name
  else .ok (Registry.register registry name (function.handler name))

end Parley

import Parley.Json.Basic
import Parley.Play.Runner
import Parley.Play.Signature
import Parley.Play.Variables

/-! Rehearsals: dialogs played with stand-ins for the host, everything that happens being written down.

A stand-in handler writes down its call; some of them fail afterwards, and one sets a variable. -/
namespace Parley.Rehearsal

/-- A call that a stand-in was given. -/
inductive Call where
  | plain (name : String) (arguments : List String) (host : Json)
  | typed (name : String) (arguments : List (Argument Json))

/-- How a stand-in fails. -/
inductive Mishap where
  | boom
  | typedBoom
  /-- The first context is not there. -/
  | missingContext
  /-- An argument that it needs is not there. -/
  | missingArgument
  deriving DecidableEq, Repr

def Mishap.message : Mishap → String
  | boom => "boom"
  | typedBoom => "typed boom"
  | missingContext => PositionFault.message "tuple" .outside
  | missingArgument => PositionFault.message "list" .outside

/-- What is behind the stage: the variables, and what has been written down, the newest first. -/
structure Backstage where
  contexts : List Variables
  calls : List Call
  notices : List Notice
  log : List LogEntry

namespace Backstage

/-- Nothing written down yet. -/
def opening (contexts : List Variables) : Backstage := ⟨contexts, [], [], []⟩

/-- The same variables with nothing written down. -/
def cleared (stage : Backstage) : Backstage := opening stage.contexts

def note (stage : Backstage) (call : Call) : Backstage := { stage with calls := call :: stage.calls }

/-- With reports that came in order. -/
def reported (stage : Backstage) (entries : List LogEntry) : Backstage :=
  { stage with log := entries.reverse ++ stage.log }

/-- The variables of a context changed. -/
def change (stage : Backstage) (context : Nat) (f : Variables → Variables) : Backstage :=
  { stage with contexts := stage.contexts.modify context f }

/-- The world that a runner acts on, with the variables of one context. -/
def world (context : Nat) (observed : Bool) : World Backstage where
  get stage name := stage.contexts[context]?.bind (·.get? name)
  set name value stage := stage.change context (·.put name value)
  publish notice stage := if observed then { stage with notices := notice :: stage.notices } else stage
  report entry stage := stage.reported [entry]

end Backstage

/-- What a plain stand-in does after writing down its call. -/
inductive Act where
  | nothing
  | fail
  /-- Sets a variable of the first context: its first argument is the name, its second the value. -/
  | set
  deriving DecidableEq, Repr

/-- A stand-in for a handler. -/
inductive StandIn where
  | plain (name : String) (act : Act)
  /-- A function under a name, its own if the name is empty. -/
  | typed (name : String) (function : String) (parameters : List Parameter) (fails : Bool)

/-- The handlers of a rehearsal. -/
abbrev Handlers : Type := Registry Backstage Json (CommandFault Mishap)

def Act.handler (act : Act) (name : String) : Handler Backstage Json (CommandFault Mishap) :=
  fun arguments host stage =>
    let stage := stage.note (.plain name arguments host)
    match act, stage.contexts, arguments with
    | nothing, _, _ => (stage, none)
    | fail, _, _ => (stage, some (.failed .boom))
    | set, [], _ => (stage, some (.failed .missingContext))
    | set, _ :: _, variableName :: value :: _ => (stage.change 0 (·.put variableName (value == "true")), none)
    | set, _ :: _, _ => (stage, some (.failed .missingArgument))

/-- The function of a stand-in. -/
def standInFunction (name : String) (parameters : List Parameter) (fails : Bool) :
    HostFunction Backstage Json Mishap where
  name := name
  parameters := parameters
  body arguments stage :=
    (stage.note (.typed name arguments), if fails then some .typedBoom else none)

/-- The handlers with a stand-in. -/
def StandIn.add (standIn : StandIn) (handlers : Handlers) : Except String (Handlers × List LogEntry) :=
  match standIn with
  | plain name act => .ok (handlers.register name (act.handler name))
  | typed name function parameters fails => handlers.define name (standInFunction function parameters fails)

/-- The handlers with stand-ins, one after the other, and what is reported. -/
def addAll (handlers : Handlers) : List StandIn → Except String Handlers × List LogEntry
  | [] => (.ok handlers, [])
  | standIn :: rest =>
    match standIn.add handlers with
    | .error name => (.error name, [])
    | .ok (handlers, log) =>
      let (outcome, more) := addAll handlers rest
      (outcome, log ++ more)

/-- A command is run on its own; no result means that it has no handler. -/
def invoke (handlers : Handlers) (name : String) (arguments : List String) (host : Json)
    (stage : Backstage) : Except (PlayFault (CommandFault Mishap)) Unit × Backstage :=
  match handlers.get? name with
  | none => (.error (.unregistered name), stage)
  | some handler =>
    match handler arguments host stage with
    | (stage, some fault) => (.error (.handler fault), stage)
    | (stage, none) => (.ok (), stage)

end Parley.Rehearsal

import Parley.Config
import Parley.Rehearsal.Backstage

/-! Sessions: several players of one dialog, and a list of moves. -/
namespace Parley.Rehearsal

/-- One who plays the dialog. -/
structure Player where
  runner : Runner
  /-- Whether observers are told what happens. -/
  observed : Bool
  /-- Whether the handlers of the session are at hand. -/
  handled : Bool

/-- One move of a session. -/
inductive Move where
  | create (start : String) (observed handled : Bool)
  | next (host : Json)
  | choose (title : String)
  | reset (title : String)
  | used (title : String) (line position : Int)
  | set (variableName : String) (value : Bool)
  | clear
  | command (standIn : StandIn)
  | unregister (name : String)

/-- What a move gives. -/
inductive Reply where
  | done
  | truth (value : Bool)
  | event (event : Event)
  deriving DecidableEq, Repr

/-- Why a move fails. -/
inductive MoveFault where
  | play (fault : PlayFault (CommandFault Mishap))
  /-- No player has the name. -/
  | noPlayer (name : String)
  /-- A stand-in takes the value of the host for a word. -/
  | hostAsWord (name : String)
  deriving DecidableEq, Repr

/-- A dialog, its players, the handlers, and what is behind the stage. -/
structure Session where
  dialog : Dialog
  config : Config
  handlers : Handlers
  players : Table Player
  stage : Backstage

namespace Session

/-- A session without players. What was reported about the handlers is written down. -/
def opening (dialog : Dialog) (config : Config) (contexts : List Variables) (handlers : Handlers)
    (log : List LogEntry) : Session :=
  ⟨dialog, config, handlers, .empty, (Backstage.opening contexts).reported log⟩

/-- The same session with nothing written down. -/
def cleared (session : Session) : Session := { session with stage := session.stage.cleared }

/-- What a player plays in, with the variables of one context. -/
def setting (session : Session) (context : Nat) (observed handled : Bool) :
    Setting Backstage Json (CommandFault Mishap) where
  dialog := session.dialog
  limit := session.config.maxControlSteps
  world := Backstage.world context observed
  commands := if handled then session.handlers else .empty

/-- What an operation of a player leaves behind. -/
def settle {ρ : Type} (session : Session) (name : String) (player : Player) (reply : ρ → Reply)
    (after : After Backstage (Except (PlayFault (CommandFault Mishap)) ρ)) :
    Except MoveFault Reply × Session :=
  ((after.result.map reply).mapError .play,
    { session with
      players := session.players.put name { player with runner := after.runner }
      stage := after.world })

/-- An operation of a player that is there. -/
def withPlayer (session : Session) (name : String)
    (operate : Player → Except MoveFault Reply × Session) : Except MoveFault Reply × Session :=
  match session.players.get? name with
  | none => (.error (.noPlayer name), session)
  | some player => operate player

/-- A move of the player of a name, with the variables of a context. -/
def perform (session : Session) (name : String) (context : Nat) : Move → Except MoveFault Reply × Session
  | .create start observed handled =>
    match (session.setting context observed handled).create session.config.checkCommands start session.stage with
    | (.error fault, stage) => (.error (.play fault), { session with stage })
    | (.ok runner, stage) =>
      (.ok .done, { session with players := session.players.put name ⟨runner, observed, handled⟩, stage })
  | .next host => session.withPlayer name fun player =>
    session.settle name player .event
      ((session.setting context player.observed player.handled).next host player.runner session.stage)
  | .choose title => session.withPlayer name fun player =>
    session.settle name player (fun _ => .done)
      ((session.setting context player.observed player.handled).choose title player.runner session.stage)
  | .reset title => session.withPlayer name fun player =>
    session.settle name player (fun _ => .done)
      ((session.setting context player.observed player.handled).reset title player.runner session.stage)
  | .used title line position => session.withPlayer name fun player =>
    (.ok (.truth ((session.setting context player.observed player.handled).isUsed player.runner title
      line position)), session)
  | .set variableName value =>
    (.ok .done, { session with stage := session.stage.change context (·.put variableName value) })
  | .clear => (.ok .done, { session with stage := session.stage.change context fun _ => .empty })
  | .command standIn =>
    match standIn.add session.handlers with
    | .error name => (.error (.hostAsWord name), session)
    | .ok (handlers, log) =>
      (.ok (.truth true), { session with handlers, stage := session.stage.reported log })
  | .unregister name => (.ok .done, { session with handlers := session.handlers.erase name })

end Session

end Parley.Rehearsal

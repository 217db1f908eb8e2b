import Parley.Library.Basic
import Parley.Rehearsal.Backstage

/-! Performances: a dialog of a library played through, the first offer always being taken. -/
namespace Parley.Rehearsal

/-- Why a performance breaks off. -/
inductive PerformanceFault where
  /-- The library has no dialog of the name. -/
  | noDialog (name : String)
  | play (fault : PlayFault (CommandFault Mishap))
  deriving DecidableEq, Repr

/-- What has been seen of a performance, and how it stands. -/
structure Performance where
  events : List Event
  runner : Runner
  stage : Backstage

/-- So many steps, after each of them the first offer being taken; and what is behind the stage then. -/
def Performance.play (setting : Setting Backstage Json (CommandFault Mishap)) :
    Nat → Performance → Except (PlayFault (CommandFault Mishap)) Performance × Backstage
  | 0, performance => (.ok performance, performance.stage)
  | steps + 1, performance =>
    match setting.next .null performance.runner performance.stage with
    | ⟨.error fault, _, stage⟩ => (.error fault, stage)
    | ⟨.ok event, runner, stage⟩ =>
      let performance := ⟨performance.events ++ [event], runner, stage⟩
      match runner.offers with
      | [] => play setting steps performance
      | (_, offer) :: _ =>
        match setting.choose offer.target runner stage with
        | ⟨.error fault, _, stage⟩ => (.error fault, stage)
        | ⟨.ok (), runner, stage⟩ => play setting steps { performance with runner, stage }

/-- A dialog of a library is played from a node, its usual one if none is given; and what is reported. -/
def perform (library : Library) (name start : String) (handlers : Handlers) (observed : Bool)
    (steps : Nat) : Except PerformanceFault Performance × List LogEntry :=
  match library.dialogs.get? name with
  | none => (.error (.noDialog name), [])
  | some dialog =>
    let setting : Setting Backstage Json (CommandFault Mishap) :=
      ⟨dialog, library.config.maxControlSteps, Backstage.world 0 observed, handlers⟩
    let start := if start.isEmpty then library.config.startNode else start
    match setting.create library.config.checkCommands start (.opening [.empty]) with
    | (.error fault, stage) => (.error (.play fault), stage.log.reverse)
    | (.ok runner, stage) =>
      let (outcome, stage) := Performance.play setting steps ⟨[], runner, stage⟩
      (outcome.mapError .play, stage.log.reverse)

end Parley.Rehearsal

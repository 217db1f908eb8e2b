import Parley.Dialog.Basic
import Parley.Play.Command
import Parley.Play.Event

/-! Runners: a dialog played step by step.

A step goes through lines that show nothing until one shows something: a speech, a menu, or the end of
the node. On the way it sets variables, runs commands and follows jumps, and tells observers of all of
it. After a menu it waits for a choice. -/
namespace Parley

/-- What a runner acts on: variables, observers and a log, in a world of the host's own. -/
structure World (ω : Type) where
  get : ω → String → Option Bool
  set : String → Bool → ω → ω
  publish : Notice → ω → ω
  report : LogEntry → ω → ω

/-- What a runner is doing. -/
inductive Phase where
  /-- It has entered a node. -/
  | start
  /-- It has shown a speech. -/
  | talking
  /-- It waits for a choice. -/
  | waiting
  /-- It has come to the end of a node. -/
  | ended
  deriving DecidableEq, Repr

def Phase.name : Phase → String
  | start => "START"
  | talking => "DIALOG"
  | waiting => "WAITING"
  | ended => "END"

/-- The place of a choice: its node, the line of its menu, and its position there. -/
structure Place where
  node : Nat
  line : Nat
  choice : Nat
  deriving DecidableEq, Repr

/-- Where a player is in a dialog. -/
structure Runner where
  node : Nat
  line : Nat
  phase : Phase
  /-- What is offered, each with its position in the menu. -/
  offers : List (Nat × Offer)
  /-- The choices that have been made. -/
  used : List Place
  deriving DecidableEq, Repr

/-- Why a runner does not do what it is asked to. -/
inductive PlayFault (ε : Type) where
  | unknownStart (title : String)
  | unknownNode (title : String)
  /-- A choice is made where none is due. -/
  | notWaiting (phase : Phase)
  | notOffered (title : String)
  | unregistered (name : String)
  /-- A step went through so many lines and showed nothing. -/
  | tooLong (lines : Nat) (title : String)
  /-- A handler failed. -/
  | handler (fault : ε)
  /-- There is no line where the runner stands. -/
  | nowhere
  deriving DecidableEq, Repr

/-- The message about a fault that is not a handler's. -/
def PlayFault.message {ε : Type} : PlayFault ε → String
  | unknownStart title => s!"Selected starting node does not exist in this dialog: {title}"
  | unknownNode title => s!"Node does not exist in this dialog: {title}"
  | notWaiting phase =>
    s!"Current state: {phase.name}, expected to perform this operation: {Phase.waiting.name}"
  | notOffered title => s!"Unknown node chosen: {title}"
  | unregistered name => s!"No handler registered for command: {name}"
  | tooLong lines title => s!"No dialog output after {lines} steps in node '{title}'"
  | handler _ => "handler failed"
  | nowhere => "no line to play"

/-- What an operation gives, and the runner and the world that it leaves. -/
structure After (ω ρ : Type) where
  result : ρ
  runner : Runner
  world : ω

/-- What a runner plays and what it plays in. -/
structure Setting (ω η ε : Type) where
  dialog : Dialog
  /-- How many lines that show nothing one step may go through. -/
  limit : Int
  world : World ω
  commands : Registry ω η ε

namespace Setting

variable {ω η ε : Type} (setting : Setting ω η ε)

/-- The runner at the beginning of a node. -/
def enter (node : Nat) (runner : Runner) (w : ω) : Runner × ω :=
  ({ runner with node, line := 0, phase := .start, offers := [] },
    setting.world.publish (.nodeEntered (setting.dialog.titleAt node)) w)

/-! ### One line -/

/-- The runner past a line of a node with so many lines. After the last line the node ends; before it, an
event is shown, and without one the step goes on. -/
def moveOn (lines : Nat) (event : Option Event) (runner : Runner) (w : ω) :
    After ω (Option (Except (PlayFault ε) Event)) :=
  let moved := { runner with line := runner.line + 1 }
  if runner.line + 1 < lines then
    match event with
    | none => ⟨none, moved, w⟩
    | some event => ⟨some (.ok event), { moved with phase := .talking }, w⟩
  else
    ⟨some (.ok (event.getD .ended)), { moved with phase := .ended, offers := [] },
      setting.world.publish (.dialogEnded (setting.dialog.titleAt runner.node)) w⟩

/-- A choice as it is offered, if its guard lets it through. -/
def offer? (runner : Runner) (w : ω) (position : Nat) (choice : Choice Nat) : Option (Nat × Offer) :=
  if allows choice.guard (setting.world.get w) then
    some (position,
      ⟨choice.text, choice.target, decide (⟨runner.node, runner.line, position⟩ ∈ runner.used)⟩)
  else none

/-- What a menu offers, each with its position, on from a position. -/
def offersFrom (runner : Runner) (w : ω) (position : Nat) : List (Choice Nat) → List (Nat × Offer)
  | [] => []
  | choice :: rest =>
    (setting.offer? runner w position choice).toList ++ offersFrom runner w (position + 1) rest

/-- What a menu under the cursor offers. -/
def offers (runner : Runner) (w : ω) (menu : Menu Nat) : List (Nat × Offer) :=
  setting.offersFrom runner w 0 menu.choices

/-- A menu is shown, and a choice is due. -/
def present (menu : Menu Nat) (runner : Runner) (w : ω) :
    After ω (Option (Except (PlayFault ε) Event)) :=
  let offers := setting.offers runner w menu
  let title := setting.dialog.titleAt runner.node
  let w :=
    if offers.isEmpty then
      setting.world.report ⟨.warning,
        s!"Dialog '{setting.dialog.id}' node '{title}' offers no options, " ++
          "waiting until reset_to is called"⟩ w
    else w
  ⟨some (.ok (.options menu.speaker (offers.map Prod.snd))), { runner with phase := .waiting, offers },
    setting.world.publish (.optionsPresented title (offers.map Prod.snd)) w⟩

/-- The report about a command of a node that has no handler. -/
def unregisteredReport (node : Nat) (name : String) : LogEntry :=
  ⟨.error, s!"Dialog '{setting.dialog.id}' node '{setting.dialog.titleAt node}' " ++
    s!"calls unregistered command '{name}'"⟩

/-- A command is run by its handler. -/
def runCommand (lines : Nat) (name : String) (arguments : List String) (host : η) (runner : Runner) (w : ω) :
    After ω (Option (Except (PlayFault ε) Event)) :=
  match setting.commands.get? name with
  | none =>
    ⟨some (.error (.unregistered name)), runner,
      setting.world.report (setting.unregisteredReport runner.node name) w⟩
  | some handler =>
    match handler arguments host w with
    | (w, some fault) => ⟨some (.error (.handler fault)), runner, w⟩
    | (w, none) => setting.moveOn lines none runner (setting.world.publish (.commandExecuted name arguments) w)

/-- The line under the cursor is played. No result means that the step goes on. -/
def advance (host : η) (runner : Runner) (w : ω) : After ω (Option (Except (PlayFault ε) Event)) :=
  match setting.dialog.nodes[runner.node]? with
  | none => ⟨some (.error .nowhere), runner, w⟩
  | some node =>
    let lines := node.lines.length
    match node.lines[runner.line]? with
    | none => ⟨some (.error .nowhere), runner, w⟩
    | some (.assign name value) =>
      setting.moveOn lines none runner
        (setting.world.publish (.variableSet name value) (setting.world.set name value w))
    | some (.jump _ index) =>
      let (runner, w) := setting.enter index runner w
      ⟨none, runner, w⟩
    | some (.command name arguments) => setting.runCommand lines name arguments host runner w
    | some (.say speaker text tags) => setting.moveOn lines (some (.speech speaker text tags)) runner w
    | some (.offer menu) => setting.present menu runner w

/-! ### Steps -/

/-- Lines are played until one gives a result, `fuel` lines without one at the most. -/
def run (host : η) : Nat → Runner → ω → After ω (Except (PlayFault ε) Event)
  | 0, runner, w =>
    ⟨.error (.tooLong setting.limit.toNat (setting.dialog.titleAt runner.node)), runner, w⟩
  | fuel + 1, runner, w =>
    match setting.advance host runner w with
    | ⟨none, runner, w⟩ => run host fuel runner w
    | ⟨some result, runner, w⟩ => ⟨result, runner, w⟩

/-- One step: up to the next thing to be seen. -/
def next (host : η) (runner : Runner) (w : ω) : After ω (Except (PlayFault ε) Event) :=
  match runner.phase with
  | .waiting => ⟨.ok .waiting, runner, w⟩
  | .ended => ⟨.ok .ended, runner, w⟩
  | _ => setting.run host setting.limit.toNat runner w

/-- The choice at a position of the menu under the cursor. -/
def choiceAt? (runner : Runner) (position : Nat) : Option (Choice Nat) := do
  let node ← setting.dialog.nodes[runner.node]?
  match ← node.lines[runner.line]? with
  | .offer menu => menu.choices[position]?
  | _ => none

/-- The runner with a choice of the menu under the cursor marked as made. -/
def mark (runner : Runner) (position : Nat) : Runner :=
  { runner with used := runner.used.insert ⟨runner.node, runner.line, position⟩ }

/-- The first offer that leads to a title is taken. -/
def choose (title : String) (runner : Runner) (w : ω) : After ω (Except (PlayFault ε) Unit) :=
  if runner.phase = .waiting then
    match runner.offers.find? (·.2.target = title) with
    | none => ⟨.error (.notOffered title), runner, w⟩
    | some (position, offer) =>
      match setting.choiceAt? runner position with
      | none => ⟨.error .nowhere, runner, w⟩
      | some choice =>
        let w := setting.world.publish
          (.choiceSelected (setting.dialog.titleAt runner.node) title offer.text) w
        let (runner, w) := setting.enter choice.index (mark runner position) w
        ⟨.ok (), runner, w⟩
  else ⟨.error (.notWaiting runner.phase), runner, w⟩

/-- The runner goes to the beginning of a node. -/
def reset (title : String) (runner : Runner) (w : ω) : After ω (Except (PlayFault ε) Unit) :=
  match setting.dialog.indexOf? title with
  | none => ⟨.error (.unknownNode title), runner, w⟩
  | some node =>
    let (runner, w) := setting.enter node runner w
    ⟨.ok (), runner, w⟩

/-- Whether a choice has been made: the choice at a position of the line of a node. -/
def isUsed (runner : Runner) (title : String) (line position : Int) : Bool :=
  match setting.dialog.indexOf? title with
  | none => false
  | some node => runner.used.any fun place =>
      place.node = node ∧ (place.line : Int) = line ∧ (place.choice : Int) = position

/-- A new runner at the beginning of a node. With `check`, a command without a handler anywhere in the
dialog refuses it. Made or refused, it leaves a world. -/
def create (check : Bool) (title : String) (w : ω) : Except (PlayFault ε) Runner × ω :=
  match setting.dialog.indexOf? title with
  | none => (.error (.unknownStart title), w)
  | some node =>
    let missing := setting.commands.missing setting.dialog.commandNames
    if check && !missing.isEmpty then (.error (.unregistered (Names.join missing)), w)
    else (.ok ⟨node, 0, .start, [], []⟩, setting.world.publish (.nodeEntered title) w)

end Setting

end Parley

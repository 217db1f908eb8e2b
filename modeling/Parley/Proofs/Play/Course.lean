import Parley.Play.Runner

/-! Courses: what a host may do with a runner.

A host takes turns: it asks for the next event, makes a choice, or goes to a node. Every turn brings its own
surroundings, and before it the host may have done anything to the world. A turn that fails leaves a runner
too, and the course goes on with it. -/
namespace Parley

/-- What a host asks of a runner. -/
inductive Request (η : Type) where
  | next (host : η)
  | choose (title : String)
  | reset (title : String)

/-- One turn of a host. -/
structure Turn (ω η ε : Type) where
  /-- What the host does to the world first. -/
  prepare : ω → ω
  limit : Int
  world : World ω
  commands : Registry ω η ε
  request : Request η

/-- What an operation leaves, with another result. -/
def After.map {ω ρ σ : Type} (f : ρ → σ) (after : After ω ρ) : After ω σ :=
  ⟨f after.result, after.runner, after.world⟩

/-- A fault stays when what is given otherwise is changed. -/
theorem error_of_map {φ ρ σ : Type} {f : ρ → σ} {result : Except φ ρ} {fault : φ}
    (h : result.map f = .error fault) : result = .error fault := by
  cases result with
  | error found =>
    cases h
    rfl
  | ok value => cases h

variable {ω η ε : Type}

/-- What a dialog is played in on a turn. -/
def Turn.setting (turn : Turn ω η ε) (dialog : Dialog) : Setting ω η ε :=
  ⟨dialog, turn.limit, turn.world, turn.commands⟩

/-- What a runner gives to a request, an event if it asks for one. -/
def Setting.meet (setting : Setting ω η ε) (runner : Runner) (w : ω) :
    Request η → After ω (Except (PlayFault ε) (Option Event))
  | .next host => (setting.next host runner w).map (·.map some)
  | .choose title => (setting.choose title runner w).map (·.map fun _ => none)
  | .reset title => (setting.reset title runner w).map (·.map fun _ => none)

/-- A turn is taken. -/
def Turn.take (turn : Turn ω η ε) (dialog : Dialog) (runner : Runner) (w : ω) :
    After ω (Except (PlayFault ε) (Option Event)) :=
  (turn.setting dialog).meet runner (turn.prepare w) turn.request

/-- The runner and the world after turns, one after the other. -/
def course (dialog : Dialog) : List (Turn ω η ε) → Runner → ω → Runner × ω
  | [], runner, w => (runner, w)
  | turn :: rest, runner, w =>
    let after := turn.take dialog runner w
    course dialog rest after.runner after.world

/-- The runners that a dialog can come to, whatever they are played in. -/
inductive Reachable (dialog : Dialog) : Runner → Prop where
  | course {ω η ε : Type} {limit : Int} {world : World ω} {commands : Registry ω η ε} {check : Bool}
      {title : String} {w w₀ : ω} {created : Runner}
      (create : Setting.create ⟨dialog, limit, world, commands⟩ check title w = (.ok created, w₀))
      (turns : List (Turn ω η ε)) : Reachable dialog (course dialog turns created w₀).1

/-! ### A gate to play at -/

namespace Gate

/-- A guard who lets pass who has met him, and a road behind him. -/
def dialog : Dialog where
  id := "gate"
  nodes := [
    ⟨"Gate", [.assign "met" true, .say "Guard" "Halt." [],
      .offer ⟨"", [⟨"Sneak", "Road", 1, some ⟨"met", .equal, false⟩⟩,
        ⟨"Greet", "Road", 1, some ⟨"met", .equal, true⟩⟩,
        ⟨"Turn back", "Gate", 0, none⟩], List.cons_ne_nil _ _⟩], .empty, 1, List.cons_ne_nil _ _⟩,
    ⟨"Road", [.assign "gone" true, .command "walk" ["north"], .jump "Gate" 0], .empty, 12,
      List.cons_ne_nil _ _⟩]
  distinct := by decide
  resolved := by decide

/-- Variables are kept, and nothing is told. -/
def world : World (Table Bool) where
  get values name := values.get? name
  set name value values := values.put name value
  publish _ values := values
  report _ values := values

/-- Walking fails. -/
def commands : Registry (Table Bool) Unit Unit :=
  Table.empty.put "walk" fun _ _ values => (values, some ())

def setting : Setting (Table Bool) Unit Unit := ⟨dialog, 10, world, commands⟩

/-- The same with a walk that succeeds. -/
def passable : Setting (Table Bool) Unit Unit :=
  { setting with commands := Table.empty.put "walk" fun _ _ values => (values, none) }

def turn (request : Request Unit) : Turn (Table Bool) Unit Unit := ⟨id, 10, world, commands, request⟩

/-- Where walking is the only command, it is what is handled. -/
theorem eq_of_walk {ω : Type} {walk handler : Handler ω Unit Unit} {name : String}
    (h : (Table.empty.put "walk" walk).get? name = some handler) : handler = walk := by
  by_cases hname : name = "walk"
  · subst hname
    exact (Option.some.inj h).symm
  · rw [Table.get?_put_of_ne _ _ hname] at h
    cases h

end Gate

end Parley

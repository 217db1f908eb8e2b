import Mathlib.Data.List.Forall2
import Parley.Proofs.Play.Keeping
import Parley.Proofs.Play.Mirror
import Parley.Proofs.Play.Path
import Parley.Proofs.Tables

/-! Notes of what observers are told.

A world that keeps notes has a list beside it. Every notice is added to the list, and nothing else reads or
changes it. What is played in such a world goes as it does without the notes (`course_noting`), so the notes
that a course leaves are its history: all that the runner told, in order. -/
namespace Parley

variable {ω η ε ρ σ : Type}

/-- The world with notes of what is told. -/
def World.noting (world : World ω) : World (ω × List Notice) where
  get noted := world.get noted.1
  set name value noted := (world.set name value noted.1, noted.2)
  publish notice noted := (world.publish notice noted.1, noted.2 ++ [notice])
  report entry noted := (world.report entry noted.1, noted.2)

def Handler.noting (handler : Handler ω η ε) : Handler (ω × List Notice) η ε :=
  fun arguments host noted =>
    (((handler arguments host noted.1).1, noted.2), (handler arguments host noted.1).2)

def Registry.noting (registry : Registry ω η ε) : Registry (ω × List Notice) η ε :=
  registry.map Handler.noting

def Setting.noting (setting : Setting ω η ε) : Setting (ω × List Notice) η ε :=
  ⟨setting.dialog, setting.limit, setting.world.noting, setting.commands.noting⟩

def Turn.noting (turn : Turn ω η ε) : Turn (ω × List Notice) η ε where
  prepare noted := (turn.prepare noted.1, noted.2)
  limit := turn.limit
  world := turn.world.noting
  commands := turn.commands.noting
  request := turn.request

/-- What a turn tells. -/
def Turn.told (turn : Turn ω η ε) (dialog : Dialog) (runner : Runner) (w : ω) : List Notice :=
  (turn.noting.take dialog runner (w, [])).world.2

/-- What an operation leaves, without the notes. -/
def After.bare (after : After (ω × List Notice) ρ) : After ω ρ := ⟨after.result, after.runner, after.world.1⟩

/-- What is told when a runner is made or refused. -/
def Setting.announced (setting : Setting ω η ε) (check : Bool) (title : String) (w : ω) : List Notice :=
  (setting.noting.create check title (w, [])).2.2

/-- All that a runner tells from when it is made up to the end of turns. -/
def Setting.history (setting : Setting ω η ε) (check : Bool) (title : String) (w : ω)
    (turns : List (Turn ω η ε)) : List Notice :=
  match setting.noting.create check title (w, []) with
  | (.ok created, noted) => (course setting.dialog (turns.map Turn.noting) created noted).2.2
  | (.error _, noted) => noted.2

theorem Registry.get?_noting (registry : Registry ω η ε) (name : String) :
    registry.noting.get? name = (registry.get? name).map Handler.noting := Table.get?_map _ _ _

/-! ### Notes change nothing -/

/-- A world and the same world with notes. -/
def Noted (w : ω) (noted : ω × List Notice) : Prop := noted.1 = w

theorem World.mirrors_noting (world : World ω) : world.Mirrors Noted world.noting where
  get h := congrArg world.get h
  set name value h := congrArg (world.set name value) h
  publish notice h := congrArg (world.publish notice) h
  report entry h := congrArg (world.report entry) h

theorem Registry.mirrors_noting (registry : Registry ω η ε) : registry.Mirrors Noted registry.noting := by
  intro name
  rw [registry.get?_noting]
  cases registry.get? name with
  | none => exact .none
  | some handler =>
    refine .some fun arguments host hnoted => ?_
    cases hnoted
    exact ⟨rfl, rfl⟩

theorem Setting.mirrors_noting (setting : Setting ω η ε) : setting.Mirrors id Noted setting.noting where
  dialog := rearranged_self setting.dialog
  limit := rfl
  world := setting.world.mirrors_noting
  commands := setting.commands.mirrors_noting

theorem Turn.mirrors_noting (turn : Turn ω η ε) (dialog : Dialog) :
    turn.Mirrors id Noted dialog dialog turn.noting where
  setting := (turn.setting dialog).mirrors_noting
  prepare h := congrArg turn.prepare h
  request := rfl

theorem Turn.bare_take (turn : Turn ω η ε) (dialog : Dialog) (runner : Runner) (noted : ω × List Notice) :
    (turn.noting.take dialog runner noted).bare = turn.take dialog runner noted.1 := by
  have hnoted : Noted noted.1 noted := rfl
  obtain ⟨hresult, hrunner, hworld⟩ := (turn.mirrors_noting dialog).take hnoted runner
  simp only [Runner.moved_id] at hresult hrunner hworld
  rw [After.bare, hresult, hrunner, show _ = _ from hworld]

/-- A course that is noted is the course, with notes beside it. -/
theorem course_noting (dialog : Dialog) (turns : List (Turn ω η ε)) (runner : Runner)
    (noted : ω × List Notice) :
    course dialog (turns.map Turn.noting) runner noted =
      ((course dialog turns runner noted.1).1, ((course dialog turns runner noted.1).2,
        (course dialog (turns.map Turn.noting) runner noted).2.2)) := by
  have hturns : List.Forall₂ (Turn.Mirrors id Noted dialog dialog) turns (turns.map Turn.noting) :=
    List.forall₂_map_right_iff.mpr (List.forall₂_same.mpr fun turn _ => turn.mirrors_noting dialog)
  have hnoted : Noted noted.1 noted := rfl
  obtain ⟨hrunner, hworld⟩ := mirrors_course hturns hnoted runner
  simp only [Runner.moved_id] at hrunner hworld
  exact Prod.ext hrunner (Prod.ext hworld rfl)

/-- A runner is made or refused as it is without the notes. -/
theorem Setting.create_noting (setting : Setting ω η ε) (check : Bool) (title : String) (w : ω) :
    setting.noting.create check title (w, []) =
      ((setting.create check title w).1, ((setting.create check title w).2, setting.announced check title w)) := by
  have hnoted : Noted w (w, ([] : List Notice)) := rfl
  obtain ⟨hmade, hworld⟩ := setting.mirrors_noting.create hnoted rfl check title
  rw [Runner.map_moved_id] at hmade
  exact Prod.ext hmade (Prod.ext hworld rfl)

/-- When a runner is made, its node is told. -/
theorem Setting.announced_of_create {setting : Setting ω η ε} {check : Bool} {title : String} {w w₀ : ω}
    {created : Runner} (create : setting.create check title w = (.ok created, w₀)) :
    setting.announced check title w = [.nodeEntered title] := by
  have hnoting := setting.create_noting check title w
  rw [create] at hnoting
  exact congrArg Prod.snd (eq_of_create hnoting).2.2

/-- When it is refused, nothing is told. -/
theorem Setting.announced_of_refused {setting : Setting ω η ε} {check : Bool} {title : String} {w w₀ : ω}
    {fault : PlayFault ε} (refused : setting.create check title w = (.error fault, w₀)) :
    setting.announced check title w = [] := by
  have hnoting := setting.create_noting check title w
  rw [refused] at hnoting
  exact congrArg Prod.snd (world_of_refused hnoting)

/-- The history is what a course notes after the first notice. -/
theorem Setting.course_history {setting : Setting ω η ε} {check : Bool} {title : String} {w w₀ : ω}
    {created : Runner} (create : setting.create check title w = (.ok created, w₀)) (turns : List (Turn ω η ε)) :
    course setting.dialog (turns.map Turn.noting) created (w₀, [.nodeEntered title]) =
      ((course setting.dialog turns created w₀).1,
        ((course setting.dialog turns created w₀).2, setting.history check title w turns)) := by
  rw [course_noting]
  unfold Setting.history
  rw [create_noting, announced_of_create create, create]

/-- What a new runner and its first notice have, and what every turn keeps, the runner and its history have. -/
theorem Setting.history_of_keeps {setting : Setting ω η ε} {check : Bool} {title : String} {w w₀ : ω}
    {created : Runner} {turns : List (Turn ω η ε)} {P : Runner → ω × List Notice → Prop}
    (create : setting.create check title w = (.ok created, w₀)) (h : P created (w₀, [.nodeEntered title]))
    (keeps : ∀ turn ∈ turns, turn.noting.Keeps setting.dialog P) :
    P (course setting.dialog turns created w₀).1
      ((course setting.dialog turns created w₀).2, setting.history check title w turns) := by
  have hcourse := keeps_course (List.forall_mem_map.mpr keeps) h (standing_of_created create)
  rwa [course_history create] at hcourse

/-! ### What is noted -/

namespace Setting

variable (setting : Setting ω η ε)

theorem effect_noting (noted : ω × List Notice) (effect : Effect η) :
    setting.noting.effect noted effect =
      (setting.effect noted.1 effect, noted.2 ++ effect.notice?.toList) := by
  cases effect with
  | set name value => exact congrArg _ (List.append_nil _).symm
  | tell notice => rfl
  | report entry => exact congrArg _ (List.append_nil _).symm
  | call name arguments host =>
    show (setting.commands.noting.get? name).elim noted _ = (_, noted.2 ++ [])
    rw [setting.commands.get?_noting name, List.append_nil]
    show _ = ((setting.commands.get? name).elim _ _, _)
    cases setting.commands.get? name <;> rfl

/-- Effects add their notices to the notes. -/
theorem effects_noting (noted : ω × List Notice) (done : List (Effect η)) :
    setting.noting.effects noted done =
      (setting.effects noted.1 done, noted.2 ++ done.filterMap Effect.notice?) := by
  induction done generalizing noted with
  | nil => exact Prod.ext rfl (List.append_nil _).symm
  | cons effect rest ih =>
    show setting.noting.effects (setting.noting.effect noted effect) rest = _
    rw [effect_noting, ih, List.filterMap_cons]
    cases effect.notice? with
    | none => simp [effects]
    | some notice => simp [effects]

/-- When offers are shown, observers are told of them once. -/
theorem told_showing (runner : Runner) (offers : List (Nat × Offer)) :
    (setting.showing runner offers).filterMap Effect.notice? =
      [.optionsPresented (setting.dialog.titleAt runner.node) (offers.map Prod.snd)] := by
  unfold showing
  split <;> rfl

variable {setting} {host : η} {runner landed : Runner} {w : ω} {line : Line Nat} {done : List (Effect η)}
  {notice : Notice}

/-- What a quiet line tells is about a variable or a command. -/
theorem Quiet.topic_of_told (quiet : setting.Quiet host w line done)
    (h : notice ∈ done.filterMap Effect.notice?) :
    notice.topic = .variableSet ∨ notice.topic = .commandExecuted := by
  cases quiet with
  | assign =>
    cases List.mem_singleton.mp h
    exact .inl rfl
  | command _ _ =>
    cases List.mem_singleton.mp h
    exact .inr rfl

/-- No line tells of a choice. -/
theorem Pass.topic_of_told (pass : setting.Pass host runner w line done landed)
    (h : notice ∈ done.filterMap Effect.notice?) : notice.topic ≠ .choiceSelected := by
  cases pass with
  | onward quiet _ => rcases quiet.topic_of_told h with h | h <;> rw [h] <;> decide
  | jump _ =>
    cases List.mem_singleton.mp h
    exact nofun

/-- A line that gives a result tells of no node that is entered, and of no choice. -/
theorem Stop.topic_of_told {result : Except (PlayFault ε) Event}
    (stop : setting.Stop host runner w line done result landed) (h : notice ∈ done.filterMap Effect.notice?) :
    notice.topic ≠ .nodeEntered ∧ notice.topic ≠ .choiceSelected := by
  cases stop with
  | speech _ => cases h
  | lastSpeech _ =>
    cases List.mem_singleton.mp h
    exact ⟨nofun, nofun⟩
  | menu =>
    rw [told_showing] at h
    cases List.mem_singleton.mp h
    exact ⟨nofun, nofun⟩
  | lastQuiet quiet _ =>
    rw [List.filterMap_append] at h
    rcases List.mem_append.mp h with h | h
    · rcases quiet.topic_of_told h with h | h <;> rw [h] <;> exact ⟨nofun, nofun⟩
    · cases List.mem_singleton.mp h
      exact ⟨nofun, nofun⟩
  | unregistered _ => cases h
  | failed _ _ => cases h

end Setting

end Parley

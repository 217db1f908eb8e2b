import Parley.Play.Runner
import Parley.Proofs.Dialog.Titles

/-! What one line does.

A line under the cursor either leads on to another line (`Pass`) or gives the step its result (`Stop`).
Each says what is done to the world, in order, and where the runner is then. `Pass.advance` and
`Stop.advance` say that this is all that playing the line does, and `pass_or_stop` that every line is one
or the other. -/
namespace Parley

/-- One thing that a runner does to the world. -/
inductive Effect (η : Type) where
  | set (variableName : String) (value : Bool)
  /-- A handler is called. -/
  | call (name : String) (arguments : List String) (host : η)
  /-- Observers are told. -/
  | tell (notice : Notice)
  | report (entry : LogEntry)

namespace Runner

/-- The runner at the next line. -/
def onward (runner : Runner) : Runner := { runner with line := runner.line + 1 }

/-- The runner past the last line of its node. -/
def stopped (runner : Runner) : Runner := { runner with line := runner.line + 1, phase := .ended, offers := [] }

/-- The runner at the first line of a node. -/
def entering (runner : Runner) (node : Nat) : Runner :=
  { runner with node, line := 0, phase := .start, offers := [] }

/-- The runner waiting for one of some offers to be chosen. -/
def offering (runner : Runner) (offers : List (Nat × Offer)) : Runner :=
  { runner with phase := .waiting, offers }

end Runner

namespace Setting

variable {ω η ε : Type} (setting : Setting ω η ε)

/-- The world after one effect. -/
def effect (w : ω) : Effect η → ω
  | .set variableName value => setting.world.set variableName value w
  | .call name arguments host =>
    (setting.commands.get? name).elim w fun handler => (handler arguments host w).1
  | .tell notice => setting.world.publish notice w
  | .report entry => setting.world.report entry w

/-- The world after effects, one after the other. -/
def effects (w : ω) (done : List (Effect η)) : ω := done.foldl setting.effect w

@[simp] theorem effects_append (w : ω) (a b : List (Effect η)) :
    setting.effects w (a ++ b) = setting.effects (setting.effects w a) b := List.foldl_append

/-- The line under the cursor of a runner. -/
def Reads (runner : Runner) (line : Line Nat) : Prop :=
  setting.dialog.lineAt? runner.node runner.line = some line

/-- Whether the line under the cursor is not the last of its node. -/
def HasMore (runner : Runner) : Prop := runner.line + 1 < setting.dialog.lineCount runner.node

/-- The notice of the end of the node that a runner is in. -/
def ending (runner : Runner) : Effect η := .tell (.dialogEnded (setting.dialog.titleAt runner.node))

/-- The report about a menu none of whose choices is let through. -/
def nothingOffered (runner : Runner) : LogEntry :=
  ⟨.warning, s!"Dialog '{setting.dialog.id}' node '{setting.dialog.titleAt runner.node}' offers no options, " ++
    "waiting until reset_to is called"⟩

/-- What is done when offers are shown. -/
def showing (runner : Runner) (offers : List (Nat × Offer)) : List (Effect η) :=
  (if offers.isEmpty then [.report (setting.nothingOffered runner)] else []) ++
    [.tell (.optionsPresented (setting.dialog.titleAt runner.node) (offers.map Prod.snd))]

/-- An assignment, or a command whose handler does not fail, and what is done for it. -/
inductive Quiet (host : η) (w : ω) : Line Nat → List (Effect η) → Prop where
  | assign {variableName : String} {value : Bool} :
      Quiet host w (.assign variableName value)
        [.set variableName value, .tell (.variableSet variableName value)]
  | command {name : String} {arguments : List String} {handler : Handler ω η ε}
      (registered : setting.commands.get? name = some handler)
      (succeeds : (handler arguments host w).2 = none) :
      Quiet host w (.command name arguments)
        [.call name arguments host, .tell (.commandExecuted name arguments)]

/-- A line that leads on: what is done for it, and the runner at the line that it leads to. A jump leads to
the first line of the node that it names, and any other line to the next one. -/
inductive Pass (host : η) (runner : Runner) (w : ω) : Line Nat → List (Effect η) → Runner → Prop where
  | onward {line : Line Nat} {done : List (Effect η)} (quiet : setting.Quiet host w line done)
      (more : setting.HasMore runner) : Pass host runner w line done runner.onward
  | jump {target : String} {index node : Nat} (found : setting.dialog.indexOf? target = some node) :
      Pass host runner w (.jump target index) [.tell (.nodeEntered target)] (runner.entering node)

/-- A line that gives the step its result: what is done for it, the result, and the runner then. -/
inductive Stop (host : η) (runner : Runner) (w : ω) :
    Line Nat → List (Effect η) → Except (PlayFault ε) Event → Runner → Prop where
  | speech {speaker text : String} {tags : List Tag} (more : setting.HasMore runner) :
      Stop host runner w (.say speaker text tags) [] (.ok (.speech speaker text tags))
        { runner.onward with phase := .talking }
  | lastSpeech {speaker text : String} {tags : List Tag} (last : ¬ setting.HasMore runner) :
      Stop host runner w (.say speaker text tags) [setting.ending runner]
        (.ok (.speech speaker text tags)) runner.stopped
  | menu {menu : Menu Nat} :
      Stop host runner w (.offer menu) (setting.showing runner (setting.offers runner w menu))
        (.ok (.options menu.speaker ((setting.offers runner w menu).map Prod.snd)))
        (runner.offering (setting.offers runner w menu))
  | lastQuiet {line : Line Nat} {done : List (Effect η)} (quiet : setting.Quiet host w line done)
      (last : ¬ setting.HasMore runner) :
      Stop host runner w line (done ++ [setting.ending runner]) (.ok .ended) runner.stopped
  | unregistered {name : String} {arguments : List String} (missing : setting.commands.get? name = none) :
      Stop host runner w (.command name arguments) [.report (setting.unregisteredReport runner.node name)]
        (.error (.unregistered name)) runner
  | failed {name : String} {arguments : List String} {handler : Handler ω η ε} {fault : ε}
      (registered : setting.commands.get? name = some handler)
      (fails : (handler arguments host w).2 = some fault) :
      Stop host runner w (.command name arguments) [.call name arguments host] (.error (.handler fault)) runner

variable {setting} {host : η} {runner landed : Runner} {w : ω} {line : Line Nat} {done : List (Effect η)}

theorem Reads.hasLine (h : setting.Reads runner line) :
    ∃ node, setting.dialog.nodes[runner.node]? = some node ∧ node.lines[runner.line]? = some line :=
  Option.bind_eq_some_iff.mp h

/-! ### Playing a line -/

/-- Before the last line of a node, moving on without an event keeps the step going. -/
theorem moveOn_none_of_hasMore (more : setting.HasMore runner) :
    setting.moveOn (setting.dialog.lineCount runner.node) none runner w = ⟨none, runner.onward, w⟩ := by
  unfold moveOn
  exact if_pos more

/-- Past the last line of a node, its end is told, and what there is to show is shown. -/
theorem moveOn_of_last (last : ¬ setting.HasMore runner) (event : Option Event) :
    setting.moveOn (setting.dialog.lineCount runner.node) event runner w =
      ⟨some (.ok (event.getD .ended)), runner.stopped, setting.effects w [setting.ending runner]⟩ := by
  unfold moveOn
  exact if_neg last

/-- A quiet line is done, and then the runner moves on. -/
theorem Quiet.advance (reads : setting.Reads runner line) (quiet : setting.Quiet host w line done) :
    setting.advance host runner w =
      setting.moveOn (setting.dialog.lineCount runner.node) none runner (setting.effects w done) := by
  obtain ⟨node, hnode, hline⟩ := reads.hasLine
  unfold Setting.advance
  rw [Dialog.lineCount_eq hnode, hnode]
  cases quiet with
  | assign =>
    simp only [hline]
    rfl
  | @command name arguments handler registered succeeds =>
    simp only [hline, runCommand, registered]
    have hcall : handler arguments host w = ((handler arguments host w).1, none) := by rw [← succeeds]
    rw [hcall]
    simp [effects, effect, registered]

theorem Pass.advance (reads : setting.Reads runner line) (pass : setting.Pass host runner w line done landed) :
    setting.advance host runner w = ⟨none, landed, setting.effects w done⟩ := by
  cases pass with
  | onward quiet more => rw [quiet.advance reads, moveOn_none_of_hasMore more]
  | @jump target index node found =>
    obtain ⟨source, hsource, hline⟩ := reads.hasLine
    have hindex : index = node := by
      have := setting.dialog.indexOf?_of_jump reads
      rw [found] at this
      exact (Option.some.inj this).symm
    subst hindex
    unfold Setting.advance
    simp only [hsource, hline, enter, setting.dialog.titleAt_of_indexOf? found]
    rfl

theorem Stop.advance {result : Except (PlayFault ε) Event} (reads : setting.Reads runner line)
    (stop : setting.Stop host runner w line done result landed) :
    setting.advance host runner w = ⟨some result, landed, setting.effects w done⟩ := by
  obtain ⟨node, hnode, hline⟩ := reads.hasLine
  cases stop with
  | speech more =>
    unfold Setting.advance
    rw [HasMore, Dialog.lineCount_eq hnode] at more
    simp only [hnode, hline, moveOn, if_pos more]
    rfl
  | lastSpeech last =>
    have := moveOn_of_last (w := w) last
    rw [Dialog.lineCount_eq hnode] at this
    unfold Setting.advance
    simp only [hnode, hline, this]
    rfl
  | menu =>
    unfold Setting.advance
    simp only [hnode, hline, present, showing]
    split <;> rfl
  | lastQuiet quiet last =>
    rw [quiet.advance reads, moveOn_of_last last, effects_append]
    rfl
  | unregistered missing =>
    unfold Setting.advance
    simp only [hnode, hline, runCommand, missing]
    rfl
  | @failed name arguments handler fault registered fails =>
    have hcall : handler arguments host w = ((handler arguments host w).1, some fault) := by rw [← fails]
    unfold Setting.advance
    simp only [hnode, hline, runCommand, registered]
    rw [hcall]
    simp [effects, effect, registered]

variable (host w)

theorem pass_or_stop_of_quiet (quiet : setting.Quiet host w line done) :
    (∃ landed, setting.Pass host runner w line done landed) ∨
      ∃ result landed, setting.Stop host runner w line (done ++ [setting.ending runner]) result landed := by
  by_cases more : setting.HasMore runner
  · exact .inl ⟨_, .onward quiet more⟩
  · exact .inr ⟨_, _, .lastQuiet quiet more⟩

/-- Every line leads on or gives a result. -/
theorem pass_or_stop (reads : setting.Reads runner line) :
    (∃ done landed, setting.Pass host runner w line done landed) ∨
      ∃ done result landed, setting.Stop host runner w line done result landed := by
  cases line with
  | assign variableName value =>
    exact (pass_or_stop_of_quiet host w .assign).imp (fun h => ⟨_, h⟩) fun h => ⟨_, h⟩
  | command name arguments =>
    cases hget : setting.commands.get? name with
    | none => exact .inr ⟨_, _, _, .unregistered hget⟩
    | some handler =>
      cases hfault : (handler arguments host w).2 with
      | none =>
        exact (pass_or_stop_of_quiet host w (.command hget hfault)).imp (fun h => ⟨_, h⟩) fun h => ⟨_, h⟩
      | some fault => exact .inr ⟨_, _, _, .failed hget hfault⟩
  | say speaker text tags =>
    by_cases more : setting.HasMore runner
    · exact .inr ⟨_, _, _, .speech more⟩
    · exact .inr ⟨_, _, _, .lastSpeech more⟩
  | jump target index => exact .inl ⟨_, _, .jump (setting.dialog.indexOf?_of_jump reads)⟩
  | offer menu => exact .inr ⟨_, _, _, .menu⟩

/-! ### One line of a run -/

theorem Pass.run (reads : setting.Reads runner line) (pass : setting.Pass host runner w line done landed)
    (fuel : Nat) :
    setting.run host (fuel + 1) runner w = setting.run host fuel landed (setting.effects w done) := by
  rw [Setting.run, pass.advance reads]

theorem Stop.run {result : Except (PlayFault ε) Event} (reads : setting.Reads runner line)
    (stop : setting.Stop host runner w line done result landed) (fuel : Nat) :
    setting.run host (fuel + 1) runner w = ⟨result, landed, setting.effects w done⟩ := by
  rw [Setting.run, stop.advance reads]

end Setting

end Parley

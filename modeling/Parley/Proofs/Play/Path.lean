import Parley.Proofs.Play.Standing

/-! Paths: what a step goes through, line by line.

From the line under the cursor a path follows the lines that lead on, up to one at which it stops: a
speech, a menu, a command that fails, or the last line of a node. `next_follows_path` says that a step that
is not cut off by its limit goes along the one path there is from the cursor, and does what belongs to its
lines, each once and in order. -/
namespace Parley

/-! ### What belongs to a line -/

variable {ι : Type}

/-- The variable that a line sets, with its value. -/
def Line.assigned? : Line ι → Option (String × Bool)
  | .assign variableName value => some (variableName, value)
  | _ => none

/-- What observers are told when a line has been played. -/
def Line.notice? : Line ι → Option Notice
  | .assign variableName value => some (.variableSet variableName value)
  | .command name arguments => some (.commandExecuted name arguments)
  | .jump target _ => some (.nodeEntered target)
  | _ => none

namespace Effect

variable {η : Type}

def assigned? : Effect η → Option (String × Bool)
  | set variableName value => some (variableName, value)
  | _ => none

def called? : Effect η → Option (String × List String × η)
  | call name arguments host => some (name, arguments, host)
  | _ => none

def notice? : Effect η → Option Notice
  | tell notice => some notice
  | _ => none

end Effect

namespace Setting

variable {ω η ε : Type} (setting : Setting ω η ε)

/-- The call that a line makes: that of a command with a handler, with the words of the line and the value
of the host. -/
def called? (host : η) : Line Nat → Option (String × List String × η)
  | .command name arguments =>
    if (setting.commands.get? name).isSome then some (name, arguments, host) else none
  | _ => none

/-- What observers are told last by a step that leaves a runner. -/
def closing (landed : Runner) : List Notice :=
  match landed.phase with
  | .waiting => [.optionsPresented (setting.dialog.titleAt landed.node) (landed.offers.map Prod.snd)]
  | .ended => [.dialogEnded (setting.dialog.titleAt landed.node)]
  | _ => []

/-- The lines of a path that do not fail: only the last may. -/
def completed (result : Except (PlayFault ε) Event) (lines : List (Line Nat)) : List (Line Nat) :=
  match result with
  | .ok _ => lines
  | .error _ => lines.dropLast

/-- The path from the line under the cursor of a runner: its lines, what is done for them, the result, and
the runner then. -/
inductive Path (host : η) : Runner → ω → List (Line Nat) → List (Effect η) →
    Except (PlayFault ε) Event → Runner → Prop where
  | stop {runner : Runner} {w : ω} {line : Line Nat} {done : List (Effect η)}
      {result : Except (PlayFault ε) Event} {landed : Runner} (reads : setting.Reads runner line)
      (stop : setting.Stop host runner w line done result landed) :
      Path host runner w [line] done result landed
  | pass {runner between : Runner} {w : ω} {line : Line Nat} {done : List (Effect η)}
      {lines : List (Line Nat)} {later : List (Effect η)} {result : Except (PlayFault ε) Event}
      {landed : Runner} (reads : setting.Reads runner line)
      (pass : setting.Pass host runner w line done between)
      (rest : Path host between (setting.effects w done) lines later result landed) :
      Path host runner w (line :: lines) (done ++ later) result landed

/-- What is done along lines is what belongs to them, each once and in order: the variables that they set,
the calls that they make, and the notices of those that do not fail, with the closing one after them. -/
structure Accounts (host : η) (lines : List (Line Nat)) (done : List (Effect η))
    (result : Except (PlayFault ε) Event) (landed : Runner) : Prop where
  assigned : done.filterMap Effect.assigned? = lines.filterMap Line.assigned?
  called : done.filterMap Effect.called? = lines.filterMap (setting.called? host)
  told : done.filterMap Effect.notice? =
    (completed result lines).filterMap Line.notice? ++ setting.closing landed

variable {setting} {host : η} {runner landed : Runner} {w : ω} {line : Line Nat}
  {lines : List (Line Nat)} {done : List (Effect η)} {result : Except (PlayFault ε) Event}

theorem closing_of_going (h : landed.phase.Going) : setting.closing landed = [] := by
  unfold closing
  rcases h with h | h <;> rw [h]

theorem Path.ne_nil (path : setting.Path host runner w lines done result landed) : lines ≠ [] := by
  cases path <;> exact List.cons_ne_nil _ _

/-! ### One path from a cursor -/

theorem Quiet.unique {other : List (Effect η)} (h : setting.Quiet host w line done)
    (h' : setting.Quiet host w line other) : done = other := by
  cases h with
  | assign =>
    cases h'
    rfl
  | command _ _ =>
    cases h'
    rfl

/-- A line that leads on does not give a result. -/
theorem Pass.not_stop {other : List (Effect η)} {between : Runner} (reads : setting.Reads runner line)
    (pass : setting.Pass host runner w line done between)
    (stop : setting.Stop host runner w line other result landed) : False := by
  have hadvance := pass.advance reads
  rw [stop.advance reads] at hadvance
  cases congrArg After.result hadvance

theorem Pass.unique {other : List (Effect η)} {between between' : Runner}
    (reads : setting.Reads runner line) (pass : setting.Pass host runner w line done between)
    (pass' : setting.Pass host runner w line other between') : done = other ∧ between = between' := by
  have hlanded : between = between' := by
    have hadvance := pass.advance reads
    rw [pass'.advance reads] at hadvance
    exact (congrArg After.runner hadvance).symm
  refine ⟨?_, hlanded⟩
  cases pass with
  | onward quiet _ =>
    cases pass' with
    | onward quiet' _ => exact quiet.unique quiet'
    | jump _ => nomatch quiet
  | jump _ =>
    cases pass' with
    | onward quiet' _ => nomatch quiet'
    | jump _ => rfl

theorem Quiet.not_unregistered {name : String} {arguments : List String}
    (h : setting.Quiet host w (.command name arguments) done) : setting.commands.get? name ≠ none := by
  cases h with
  | command registered _ =>
    rw [registered]
    exact Option.some_ne_none _

theorem Quiet.not_failing {name : String} {arguments : List String} {handler : Handler ω η ε} {fault : ε}
    (h : setting.Quiet host w (.command name arguments) done)
    (registered : setting.commands.get? name = some handler) :
    (handler arguments host w).2 ≠ some fault := by
  cases h with
  | command registered' succeeds =>
    cases registered'.symm.trans registered
    rw [succeeds]
    exact (Option.some_ne_none _).symm

theorem Stop.effects_unique {other : List (Effect η)} {result' : Except (PlayFault ε) Event}
    {landed' : Runner} (stop : setting.Stop host runner w line done result landed)
    (stop' : setting.Stop host runner w line other result' landed') : done = other := by
  cases stop with
  | speech more =>
    cases stop' with
    | speech _ => rfl
    | lastSpeech last => exact absurd more last
    | lastQuiet quiet _ => nomatch quiet
  | lastSpeech last =>
    cases stop' with
    | speech more => exact absurd more last
    | lastSpeech _ => rfl
    | lastQuiet quiet _ => nomatch quiet
  | menu =>
    cases stop' with
    | menu => rfl
    | lastQuiet quiet _ => nomatch quiet
  | lastQuiet quiet _ =>
    cases stop' with
    | speech _ => nomatch quiet
    | lastSpeech _ => nomatch quiet
    | menu => nomatch quiet
    | lastQuiet quiet' _ => rw [quiet.unique quiet']
    | unregistered missing => exact absurd missing quiet.not_unregistered
    | failed registered fails => exact absurd fails (quiet.not_failing registered)
  | unregistered missing =>
    cases stop' with
    | lastQuiet quiet _ => exact absurd missing quiet.not_unregistered
    | unregistered _ => rfl
    | failed registered _ => cases missing.symm.trans registered
  | failed registered fails =>
    cases stop' with
    | lastQuiet quiet _ => exact absurd fails (quiet.not_failing registered)
    | unregistered missing => cases missing.symm.trans registered
    | failed _ _ => rfl

theorem Stop.unique {other : List (Effect η)} {result' : Except (PlayFault ε) Event} {landed' : Runner}
    (reads : setting.Reads runner line) (stop : setting.Stop host runner w line done result landed)
    (stop' : setting.Stop host runner w line other result' landed') :
    done = other ∧ result = result' ∧ landed = landed' := by
  have hadvance := stop.advance reads
  rw [stop'.advance reads] at hadvance
  refine ⟨stop.effects_unique stop', ?_, (congrArg After.runner hadvance).symm⟩
  exact (Option.some.inj (congrArg After.result hadvance)).symm

/-- From a cursor, in a world, there is one path at the most. -/
theorem Path.unique {lines' : List (Line Nat)} {other : List (Effect η)}
    {result' : Except (PlayFault ε) Event} {landed' : Runner}
    (path : setting.Path host runner w lines done result landed)
    (path' : setting.Path host runner w lines' other result' landed') :
    lines = lines' ∧ done = other ∧ result = result' ∧ landed = landed' := by
  induction path generalizing lines' other with
  | stop reads stop =>
    cases path' with
    | stop reads' stop' =>
      cases Option.some.inj (reads.symm.trans reads')
      exact ⟨rfl, stop.unique reads stop'⟩
    | pass reads' pass _ =>
      cases Option.some.inj (reads.symm.trans reads')
      exact (pass.not_stop reads stop).elim
  | pass reads pass _ ih =>
    cases path' with
    | stop reads' stop =>
      cases Option.some.inj (reads.symm.trans reads')
      exact (pass.not_stop reads stop).elim
    | pass reads' pass' rest' =>
      cases Option.some.inj (reads.symm.trans reads')
      obtain ⟨hdone, hbetween⟩ := pass.unique reads pass'
      subst hdone hbetween
      obtain ⟨hlines, hlater, hresult, hlanded⟩ := ih rest'
      exact ⟨by rw [hlines], by rw [hlater], hresult, hlanded⟩

/-! ### What is done along a path -/

/-- For a quiet line, what belongs to it is done. -/
theorem Quiet.accounts (quiet : setting.Quiet host w line done) :
    done.filterMap Effect.assigned? = [line].filterMap Line.assigned? ∧
      done.filterMap Effect.called? = [line].filterMap (setting.called? host) ∧
      done.filterMap Effect.notice? = [line].filterMap Line.notice? := by
  cases quiet with
  | assign => exact ⟨rfl, rfl, rfl⟩
  | @command name arguments handler registered _ =>
    have hcalled : setting.called? host (.command name arguments) = some (name, arguments, host) := by
      simp [called?, registered]
    refine ⟨rfl, ?_, rfl⟩
    rw [List.filterMap_cons_some hcalled]
    rfl

theorem Pass.accounts {between : Runner} (pass : setting.Pass host runner w line done between) :
    done.filterMap Effect.assigned? = [line].filterMap Line.assigned? ∧
      done.filterMap Effect.called? = [line].filterMap (setting.called? host) ∧
      done.filterMap Effect.notice? = [line].filterMap Line.notice? := by
  cases pass with
  | onward quiet _ => exact quiet.accounts
  | jump _ => exact ⟨rfl, rfl, rfl⟩

theorem Stop.accounts (hgoing : runner.phase.Going)
    (stop : setting.Stop host runner w line done result landed) :
    setting.Accounts host [line] done result landed := by
  cases stop with
  | speech _ => exact ⟨rfl, rfl, rfl⟩
  | lastSpeech _ => exact ⟨rfl, rfl, rfl⟩
  | menu =>
    unfold showing
    split <;> exact ⟨rfl, rfl, rfl⟩
  | lastQuiet quiet _ =>
    obtain ⟨hassigned, hcalled, htold⟩ := quiet.accounts
    refine ⟨?_, ?_, ?_⟩
    · rw [List.filterMap_append, hassigned]
      exact List.append_nil _
    · rw [List.filterMap_append, hcalled]
      exact List.append_nil _
    · rw [List.filterMap_append, htold]
      rfl
  | @unregistered name arguments missing =>
    refine ⟨rfl, ?_, ?_⟩
    · have hcalled : setting.called? host (.command name arguments) = none := by simp [called?, missing]
      rw [List.filterMap_cons_none hcalled]
      rfl
    · rw [closing_of_going hgoing]
      rfl
  | @failed name arguments handler fault registered _ =>
    refine ⟨rfl, ?_, ?_⟩
    · have hcalled : setting.called? host (.command name arguments) = some (name, arguments, host) := by
        simp [called?, registered]
      rw [List.filterMap_cons_some hcalled]
      rfl
    · rw [closing_of_going hgoing]
      rfl

/-- A line before the last of a path does not fail. -/
theorem completed_cons (hne : lines ≠ []) :
    completed result (line :: lines) = line :: completed result lines := by
  cases result with
  | ok event => rfl
  | error fault => exact List.dropLast_cons_of_ne_nil hne

theorem Path.accounts (h : Standing setting.dialog runner) (hgoing : runner.phase.Going)
    (path : setting.Path host runner w lines done result landed) :
    setting.Accounts host lines done result landed := by
  induction path with
  | stop _ stop => exact stop.accounts hgoing
  | @pass _ _ _ line _ _ _ _ _ _ pass rest ih =>
    obtain ⟨hbetween, hbetweenGoing⟩ := h.pass hgoing pass
    obtain ⟨hassigned, hcalled, htold⟩ := pass.accounts
    have hrest := ih hbetween hbetweenGoing
    refine ⟨?_, ?_, ?_⟩
    · rw [List.filterMap_append, hassigned, hrest.assigned, ← List.filterMap_append]
      rfl
    · rw [List.filterMap_append, hcalled, hrest.called, ← List.filterMap_append]
      rfl
    · rw [List.filterMap_append, htold, hrest.told, ← List.append_assoc, ← List.filterMap_append,
        completed_cons rest.ne_nil]
      rfl

/-! ### Steps go along paths -/

/-- With room for its lines, a run goes along a path to its end. -/
theorem Path.run (path : setting.Path host runner w lines done result landed) {fuel : Nat}
    (hfuel : lines.length ≤ fuel) :
    setting.run host fuel runner w = ⟨result, landed, setting.effects w done⟩ := by
  induction path generalizing fuel with
  | stop reads stop =>
    obtain ⟨more, rfl⟩ : ∃ more, fuel = more + 1 := Nat.exists_eq_add_one_of_ne_zero (by
      simp only [List.length_singleton] at hfuel
      omega)
    exact stop.run host _ reads more
  | pass reads pass _ ih =>
    obtain ⟨more, rfl⟩ : ∃ more, fuel = more + 1 := Nat.exists_eq_add_one_of_ne_zero (by
      simp only [List.length_cons] at hfuel
      omega)
    rw [pass.run host _ reads, ih (Nat.le_of_succ_le_succ hfuel), effects_append]

/-- A run that is not cut off has gone along a path. -/
theorem exists_path (h : Standing setting.dialog runner) (hgoing : runner.phase.Going) (host : η) (w : ω)
    (fuel : Nat)
    (hlimit : ∀ lines title, (setting.run host fuel runner w).result ≠ .error (.tooLong lines title)) :
    ∃ lines done result landed, setting.Path host runner w lines done result landed ∧
      lines.length ≤ fuel := by
  induction fuel generalizing runner w with
  | zero => exact absurd rfl (hlimit _ _)
  | succ fuel ih =>
    obtain ⟨line, reads⟩ := h.reads hgoing
    rcases setting.pass_or_stop host w reads with ⟨done, between, pass⟩ | ⟨done, result, landed, stop⟩
    · obtain ⟨hbetween, hbetweenGoing⟩ := h.pass hgoing pass
      rw [pass.run host w reads] at hlimit
      obtain ⟨lines, later, result, landed, path, hlength⟩ := ih hbetween hbetweenGoing _ hlimit
      exact ⟨_, _, _, _, .pass reads pass path, Nat.succ_le_succ hlength⟩
    · exact ⟨_, _, _, _, .stop reads stop, Nat.succ_le_succ (Nat.zero_le _)⟩

theorem next_of_going (hgoing : runner.phase.Going) :
    setting.next host runner w = setting.run host setting.limit.toNat runner w := by
  unfold next
  rcases hgoing with h | h <;> rw [h]

end Setting

end Parley

import Parley.Proofs.Play.Interrupted
import Parley.Proofs.Play.Mirror
import Parley.Proofs.Tables

/-! Steps that break off at a command.

Only a command makes a step fail before its limit. The runner then stands at that command, as it came there, and what
was done is what belongs to the lines before it (`BreaksOff`). So nothing is lost or repeated when the step is asked for
again once the command has a handler: the two together do what one step with that handler would have done
(`next_resumed`). They differ from it in the log alone, where the first of them has reported the command. -/
namespace Parley

variable {ω η ε : Type}

/-- What is reported for an effect. -/
def Effect.report? : Effect η → Option LogEntry
  | .report entry => some entry
  | _ => none

/-! ### A log beside the world -/

/-- The world with a log of what is reported. Nothing else changes it, and neither variables nor handlers depend on
it. -/
def World.logging (world : World ω) : World (ω × List LogEntry) where
  get logged := world.get logged.1
  set name value logged := (world.set name value logged.1, logged.2)
  publish notice logged := (world.publish notice logged.1, logged.2)
  report entry logged := (logged.1, logged.2 ++ [entry])

/-- The handler in a world with something beside it that it leaves alone. -/
def Handler.beside {κ : Type} (handler : Handler ω η ε) : Handler (ω × κ) η ε :=
  fun arguments host pair =>
    (((handler arguments host pair.1).1, pair.2), (handler arguments host pair.1).2)

/-- The worlds are the same, and their logs go on alike after two beginnings. -/
def LoggedOn (first second : List LogEntry) (logged other : ω × List LogEntry) : Prop :=
  other.1 = logged.1 ∧ ∃ later, logged.2 = first ++ later ∧ other.2 = second ++ later

theorem World.mirrors_logging (world : World ω) (first second : List LogEntry) :
    world.logging.Mirrors (LoggedOn first second) world.logging where
  get h := congrArg world.get h.1
  set name value h := ⟨congrArg (world.set name value) h.1, h.2⟩
  publish notice h := ⟨congrArg (world.publish notice) h.1, h.2⟩
  report entry h := by
    obtain ⟨hworld, later, hfirst, hsecond⟩ := h
    refine ⟨hworld, later ++ [entry], ?_, ?_⟩
    · exact (congrArg (· ++ [entry]) hfirst).trans (List.append_assoc ..)
    · exact (congrArg (· ++ [entry]) hsecond).trans (List.append_assoc ..)

theorem Registry.mirrors_logging (registry : Registry ω η ε) (first second : List LogEntry) :
    let logging : Registry (ω × List LogEntry) η ε := Table.map Handler.beside registry
    logging.Mirrors (LoggedOn first second) logging := by
  intro logging name
  rw [show Table.get? logging name = _ from Table.get?_map ..]
  cases Table.get? registry name with
  | none => exact .none
  | some handler =>
    refine .some fun arguments host h => ⟨⟨?_, h.2⟩, ?_⟩
    · exact congrArg (fun w => (handler arguments host w).1) h.1
    · exact congrArg (fun w => (handler arguments host w).2) h.1

namespace Setting

/-- The setting with a log beside its world. -/
def logging (setting : Setting ω η ε) : Setting (ω × List LogEntry) η ε :=
  ⟨setting.dialog, setting.limit, setting.world.logging, Table.map Handler.beside setting.commands⟩

/-- The setting with a handler registered under a name. -/
def serving (setting : Setting ω η ε) (name : String) (handler : Handler ω η ε) : Setting ω η ε :=
  setting.equipped setting.limit (setting.commands.register name handler).1

/-- A step that breaks off with a fault at a command: it has gone a way of lines up to the command, and its limit is not
reached. What was done is what belongs to these lines, each once and in order, and `last` for the command itself:
the variables that are set are theirs, the calls are theirs and the one of the command, if it has a handler, and it is
only of them that observers are told. The runner is where the way has led. -/
structure BreaksOff (setting : Setting ω η ε) (host : η) (runner : Runner) (w : ω) (fault : PlayFault ε)
    (lines : List (Line Nat)) (done last : List (Effect η)) (landed : Runner) (name : String)
    (arguments : List String) : Prop where
  way : setting.Way host runner w lines done landed
  within : lines.length < setting.limit.toNat
  reads : setting.Reads landed (.command name arguments)
  stop : setting.Stop host landed (setting.effects w done) (.command name arguments) last (.error fault) landed
  next : setting.next host runner w = ⟨.error fault, landed, setting.effects w (done ++ last)⟩
  assigned : (done ++ last).filterMap Effect.assigned? = lines.filterMap Line.assigned?
  called : (done ++ last).filterMap Effect.called? =
    (lines ++ [Line.command name arguments]).filterMap (setting.called? host)
  told : (done ++ last).filterMap Effect.notice? = lines.filterMap Line.notice?
  used : landed.used = runner.used
  offers : runner.offers = [] ∧ landed.offers = []

variable {setting : Setting ω η ε} {host : η} {runner landed : Runner} {w : ω} {line : Line Nat}
  {lines : List (Line Nat)} {done : List (Effect η)} {result : Except (PlayFault ε) Event} {fault : PlayFault ε}
  {name : String} {handler : Handler ω η ε}

theorem mirrors_logging (setting : Setting ω η ε) (first second : List LogEntry) :
    setting.logging.Mirrors id (LoggedOn first second) setting.logging where
  dialog := rearranged_self setting.dialog
  limit := rfl
  world := setting.world.mirrors_logging first second
  commands := setting.commands.mirrors_logging first second

/-- What a step logs does not depend on what is in the log before it, and no more does what else it does. -/
theorem next_logged (host : η) (runner : Runner) (w : ω) (first second : List LogEntry) :
    let step := setting.logging.next host runner (w, first)
    let other := setting.logging.next host runner (w, second)
    other.result = step.result ∧ other.runner = step.runner ∧
      ∃ later, step.world = (other.world.1, first ++ later) ∧ other.world.2 = second ++ later := by
  intro step other
  have hlogs : LoggedOn first second (w, first) (w, second) :=
    ⟨rfl, [], (List.append_nil _).symm, (List.append_nil _).symm⟩
  have hnext := (setting.mirrors_logging first second).next hlogs host runner
  rw [Runner.moved_id] at hnext
  obtain ⟨hresult, hrunner, hworld, later, hfirst, hsecond⟩ := hnext
  exact ⟨hresult, hrunner.trans (Runner.moved_id _), later, Prod.ext hworld.symm hfirst, hsecond⟩

/-! ### What is logged -/

theorem effect_logging (logged : ω × List LogEntry) (effect : Effect η) :
    (setting.logging.effect logged effect).2 = logged.2 ++ effect.report?.toList := by
  cases effect with
  | set variableName value => exact (List.append_nil _).symm
  | tell notice => exact (List.append_nil _).symm
  | report entry => rfl
  | call name arguments host =>
    show ((Table.get? (Table.map Handler.beside setting.commands) name).elim logged _).2 = logged.2 ++ []
    rw [Table.get?_map, List.append_nil]
    cases Table.get? setting.commands name <;> rfl

/-- Effects add their reports to the log. -/
theorem effects_logging (logged : ω × List LogEntry) (done : List (Effect η)) :
    (setting.logging.effects logged done).2 = logged.2 ++ done.filterMap Effect.report? := by
  induction done generalizing logged with
  | nil => exact (List.append_nil _).symm
  | cons effect rest ih =>
    have hrest := ih (setting.logging.effect logged effect)
    rw [effect_logging, List.append_assoc] at hrest
    refine hrest.trans (congrArg (logged.2 ++ ·) ?_)
    rw [List.filterMap_cons]
    cases effect.report? <;> rfl

theorem Pass.unreported (pass : setting.Pass host runner w line done landed) :
    done.filterMap Effect.report? = [] := by
  cases pass with
  | onward quiet _ => cases quiet <;> rfl
  | jump _ => rfl

/-- Nothing is reported on a way. -/
theorem Way.unreported (way : setting.Way host runner w lines done landed) : done.filterMap Effect.report? = [] := by
  induction way with
  | here => rfl
  | pass _ pass _ ih => rw [List.filterMap_append, pass.unreported, ih, List.append_nil]

/-! ### Breaking off -/

theorem Pass.used_eq (pass : setting.Pass host runner w line done landed) : landed.used = runner.used := by
  cases pass <;> rfl

theorem Way.used_eq (way : setting.Way host runner w lines done landed) : landed.used = runner.used := by
  induction way with
  | here => rfl
  | pass _ pass _ ih => exact ih.trans pass.used_eq

/-- A line that fails is a command, and the runner stays at it. -/
theorem Stop.of_error (stop : setting.Stop host runner w line done (.error fault) landed) :
    landed = runner ∧ ∃ name arguments, line = .command name arguments := by
  cases stop <;> exact ⟨rfl, _, _, rfl⟩

/-- A path is a way and a line that gives the result. -/
theorem Path.exists_way (path : setting.Path host runner w lines done result landed) :
    ∃ before line way last between, lines = before ++ [line] ∧ done = way ++ last ∧
      setting.Way host runner w before way between ∧ setting.Reads between line ∧
      setting.Stop host between (setting.effects w way) line last result landed := by
  induction path with
  | stop reads stop => exact ⟨[], _, [], _, _, rfl, rfl, .here, reads, stop⟩
  | @pass _ _ _ first done _ _ _ _ reads pass _ ih =>
    obtain ⟨before, line, way, last, between, rfl, rfl, hway, hreads, hstop⟩ := ih
    refine ⟨first :: before, line, done ++ way, last, between, rfl, ?_, .pass reads pass hway, hreads, ?_⟩
    · exact (List.append_assoc ..).symm
    · rwa [effects_append]

/-- While a runner waits for a choice, or when it is at its end, a step does not fail. -/
theorem going_of_error (h : (setting.next host runner w).result = .error fault) : runner.phase.Going := by
  refine Phase.going_of_ne (fun hwaiting => ?_) fun hended => ?_
  · rw [next, hwaiting] at h
    cases h
  · rw [next, hended] at h
    cases h

/-- A step that fails before its limit breaks off at a command. -/
theorem exists_breaksOff (h : Standing setting.dialog runner)
    (hfault : (setting.next host runner w).result = .error fault)
    (hlimit : ∀ count title, fault ≠ .tooLong count title) :
    runner.phase.Going ∧ ∃ lines done last landed name arguments,
      setting.BreaksOff host runner w fault lines done last landed name arguments := by
  have going := going_of_error hfault
  refine ⟨going, ?_⟩
  rw [next_of_going going] at hfault
  obtain ⟨lines, done, result, landed, path, hlength⟩ := exists_path h going host w _ fun count title htooLong =>
    hlimit count title (Except.error.inj (hfault.symm.trans htooLong))
  have hrun := path.run hlength
  rw [hrun] at hfault
  cases hfault
  have haccounts := path.accounts h going
  obtain ⟨before, line, way, last, between, rfl, rfl, hway, hreads, hstop⟩ := path.exists_way
  obtain ⟨rfl, name, arguments, rfl⟩ := hstop.of_error
  obtain ⟨hlanded, hlandedGoing⟩ := hway.standing h going
  have htold := haccounts.told
  rw [closing_of_going hlandedGoing, List.append_nil, completed, List.dropLast_concat] at htold
  rw [List.length_append, List.length_singleton] at hlength
  exact ⟨before, way, last, landed, name, arguments, {
    way := hway
    within := hlength
    reads := hreads
    stop := hstop
    next := (next_of_going going).trans hrun
    assigned := by
      rw [haccounts.assigned, List.filterMap_append]
      exact List.append_nil _
    called := haccounts.called
    told := htold
    used := hway.used_eq
    offers := ⟨h.idle going.ne_waiting, hlanded.idle hlandedGoing.ne_waiting⟩ }⟩

/-! ### Going on -/

/-- Under another name than that of a new handler there is the same handler as before. -/
theorem serving_agrees (hname : ∀ arguments, line ≠ .command name arguments) (handler : Handler ω η ε) :
    setting.logging.commands.AgreeOn (setting.serving name handler).logging.commands line := by
  rintro other arguments rfl
  have hne : other ≠ name := fun heq => hname arguments (heq ▸ rfl)
  show Table.get? (Table.map Handler.beside (Table.put setting.commands name handler)) other =
    Table.get? (Table.map Handler.beside setting.commands) other
  rw [Table.get?_map, Table.get?_map, Table.get?_put_of_ne _ _ hne]

/-- No command on a way is without a handler. -/
theorem Way.registered (way : setting.Way host runner w lines done landed)
    (missing : setting.commands.get? name = none) : ∀ line ∈ lines, ∀ arguments, line ≠ .command name arguments := by
  induction way with
  | here => exact List.forall_mem_nil _
  | pass _ pass _ ih =>
    refine List.forall_mem_cons.mpr ⟨?_, ih⟩
    rintro arguments rfl
    cases pass with
    | onward quiet _ => exact quiet.not_unregistered missing

/-- A step that fails for want of a handler has gone a way to the command and has logged nothing on it. It only reports
the command then. -/
theorem exists_way_of_unregistered (h : Standing setting.dialog runner) {log : List LogEntry}
    (hresult : (setting.logging.next host runner (w, log)).result = .error (.unregistered name)) :
    runner.phase.Going ∧ ∃ lines done landed left,
      setting.logging.Way host runner (w, log) lines done landed ∧ lines.length < setting.limit.toNat ∧
      setting.logging.commands.get? name = none ∧ setting.logging.effects (w, log) done = (left, log) ∧
      setting.logging.next host runner (w, log) =
        ⟨.error (.unregistered name), landed, (left, log ++ [setting.unregisteredReport landed.node name])⟩ := by
  have hstanding : Standing setting.logging.dialog runner := h
  obtain ⟨going, lines, done, last, landed, command, arguments, breaksOff⟩ :=
    exists_breaksOff hstanding hresult fun _ _ => nofun
  refine ⟨going, lines, done, landed, (setting.logging.effects (w, log) done).1, breaksOff.way, breaksOff.within, ?_⟩
  have hstop := breaksOff.stop
  cases hstop with
  | unregistered missing =>
    have hlog : (setting.logging.effects (w, log) done).2 = log := by
      rw [effects_logging, breaksOff.way.unreported, List.append_nil]
    have heffects : setting.logging.effects (w, log) done = ((setting.logging.effects (w, log) done).1, log) :=
      Prod.ext rfl hlog
    refine ⟨missing, heffects, ?_⟩
    rw [breaksOff.next, effects_append, heffects]
    rfl

/-- **A command that fails leaves a step that can be taken up again.** A step that fails before its limit breaks off at
a command. It has gone through the lines before it, each once, and the runner stands at it with the choices made and
the offers as they were. If the command has no handler and then gets one, the step is asked for again, and a single
step with that handler would not reach the limit, then the second step ends as that single one. It gives the same
result and leaves the same runner in the same world, and both log the same, after the report of the first step. -/
theorem next_resumed (reachable : Reachable setting.dialog runner) (host : η) (w : ω) :
    (∀ fault, (setting.next host runner w).result = .error fault → (∀ count title, fault ≠ .tooLong count title) →
      ∃ lines done last landed name arguments,
        setting.BreaksOff host runner w fault lines done last landed name arguments) ∧
    ∀ log name handler,
      let first := setting.logging.next host runner (w, log)
      let served := (setting.serving name handler).logging
      let second := served.next host first.runner first.world
      let single := served.next host runner (w, log)
      first.result = .error (.unregistered name) →
      (∀ count title, single.result ≠ .error (.tooLong count title)) →
      second.result = single.result ∧ second.runner = single.runner ∧
        ∃ later, single.world = (second.world.1, log ++ later) ∧
          second.world.2 = log ++ setting.unregisteredReport first.runner.node name :: later := by
  have hstanding := reachable.standing
  refine ⟨fun fault hfault hlimit => (exists_breaksOff hstanding hfault hlimit).2, ?_⟩
  intro log name handler first served second single hfirst hsingle
  obtain ⟨going, lines, done, landed, left, way, hwithin, missing, hleft, hnext⟩ :=
    exists_way_of_unregistered hstanding hfirst
  -- the single step goes the same way to the command
  have hwhole : single = served.next host landed (left, log) := by
    show (setting.logging.equipped setting.limit served.commands).next host runner (w, log) =
      (setting.logging.equipped setting.limit served.commands).next host landed (left, log)
    rw [← hleft]
    exact way.next_equipped (fun line hline => serving_agrees (way.registered missing line hline) handler)
      hstanding going (Nat.le_of_lt hwithin) hsingle
  have hrunner : first.runner = landed := congrArg After.runner hnext
  have hworld : first.world = (left, log ++ [setting.unregisteredReport landed.node name]) :=
    congrArg After.world hnext
  obtain ⟨hresult, hsame, later, hlater, hreported⟩ := (setting.serving name handler).next_logged host landed left
    log (log ++ [setting.unregisteredReport landed.node name])
  rw [hrunner, hwhole, show second = served.next host landed _ from congrArg₂ (served.next host) hrunner hworld]
  exact ⟨hresult, hsame, later, hlater, hreported.trans (List.append_assoc ..)⟩

/-- Who has greeted the guard fails to walk without a handler. With one that does nothing, the next step leads back to
the guard, as one step from the road does. -/
theorem next_resumed_on_road :
    let setting : Setting (Table Bool) Unit Unit := { Gate.setting with commands := .empty }
    let runner : Runner := ⟨1, 0, .start, [], [⟨0, 2, 1⟩]⟩
    let first := setting.logging.next () runner (.empty, [])
    let served := (setting.serving "walk" fun _ _ values => (values, none)).logging
    let second := served.next () first.runner first.world
    let single := served.next () runner (.empty, [])
    Reachable setting.dialog runner ∧ first.result = .error (.unregistered "walk") ∧
      single.result = .ok (.speech "Guard" "Halt." []) ∧
      (∃ lines done last landed name arguments,
        setting.BreaksOff () runner .empty (.unregistered "walk") lines done last landed name arguments) ∧
      second.result = single.result ∧ second.runner = single.runner ∧
      ∃ later, single.world = (second.world.1, later) ∧
        second.world.2 = setting.unregisteredReport 1 "walk" :: later := by
  intro setting runner first served second single
  have hcreate : Gate.setting.create false "Gate" .empty = (.ok ⟨0, 0, .start, [], []⟩, .empty) := rfl
  have hreachable : Reachable setting.dialog runner :=
    .course hcreate [Gate.turn (.next ()), Gate.turn (.next ()), Gate.turn (.choose "Road")]
  have hfirst : first.result = .error (.unregistered "walk") := rfl
  have hsingle : single.result = .ok (.speech "Guard" "Halt." []) := rfl
  obtain ⟨hbreaks, hresumes⟩ := next_resumed hreachable () .empty
  refine ⟨hreachable, hfirst, hsingle, hbreaks _ rfl fun _ _ => nofun, ?_⟩
  refine hresumes [] "walk" _ hfirst fun count title hresult => ?_
  rw [show single.result = .error _ from hresult] at hsingle
  cases hsingle

end Setting

end Parley

import Parley.Proofs.Play.Limit

/-! Steps that are cut off.

What a line does does not depend on the limit of the step, and of the handlers it depends on that of its own command
only. So lines are gone through in the same way under another limit and with other handlers, as long as those of
their commands are the same (`Way.run_equipped`, `Path.run_equipped`). A limit that is not reached has no part in
what a step does, and a step that has given up goes on from where it stands as if it had not (`next_interrupted`). -/
namespace Parley

variable {ω η ε : Type}

/-- The fault with another count of lines, if it is that there were too many. -/
def PlayFault.recounted (count : Nat) : PlayFault ε → PlayFault ε
  | tooLong _ title => .tooLong count title
  | fault => fault

/-- The registries have the same handler for the command of a line, or both have none; other lines need none. -/
def Registry.AgreeOn {ι : Type} (registry other : Registry ω η ε) (line : Line ι) : Prop :=
  ∀ name arguments, line = .command name arguments → other.get? name = registry.get? name

namespace Setting

/-- The same dialog in the same world, with another limit and other handlers. -/
def equipped (setting : Setting ω η ε) (limit : Int) (commands : Registry ω η ε) : Setting ω η ε :=
  ⟨setting.dialog, limit, setting.world, commands⟩

/-- The same under another limit. -/
def within (setting : Setting ω η ε) (limit : Nat) : Setting ω η ε := setting.equipped limit setting.commands

variable {setting : Setting ω η ε} {host : η} {runner landed : Runner} {w : ω} {line : Line Nat}
  {lines : List (Line Nat)} {done : List (Effect η)} {result : Except (PlayFault ε) Event}
  {commands : Registry ω η ε}

/-! ### The same lines -/

theorem offers_equipped (limit : Int) (commands : Registry ω η ε) (runner : Runner) (w : ω) (menu : Menu Nat) :
    (setting.equipped limit commands).offers runner w menu = setting.offers runner w menu := by
  have hfrom : ∀ position choices, (setting.equipped limit commands).offersFrom runner w position choices =
      setting.offersFrom runner w position choices := by
    intro position choices
    induction choices generalizing position with
    | nil => rfl
    | cons choice rest ih => exact congrArg ((setting.offer? runner w position choice).toList ++ ·) (ih (position + 1))
  exact hfrom 0 menu.choices

theorem advance_equipped (reads : setting.Reads runner line) (agree : setting.commands.AgreeOn commands line)
    (limit : Int) : (setting.equipped limit commands).advance host runner w = setting.advance host runner w := by
  obtain ⟨node, hnode, hline⟩ := reads.hasLine
  have hnode' : (setting.equipped limit commands).dialog.nodes[runner.node]? = some node := hnode
  unfold advance
  rw [hnode', hnode]
  simp only [hline]
  cases line with
  | command name arguments =>
    have hname : (setting.equipped limit commands).commands.get? name = setting.commands.get? name :=
      agree name arguments rfl
    simp only [runCommand, hname]
    rfl
  | assign variableName value => rfl
  | jump target index => rfl
  | say speaker text tags => rfl
  | offer menu =>
    simp only [present, offers_equipped]
    rfl

/-- A run goes along a way of lines whose handlers are the same, and on from there with the rest of its fuel. -/
theorem Way.run_equipped (way : setting.Way host runner w lines done landed)
    (agree : ∀ line ∈ lines, setting.commands.AgreeOn commands line) (limit : Int) (fuel : Nat) :
    (setting.equipped limit commands).run host (lines.length + fuel) runner w =
      (setting.equipped limit commands).run host fuel landed (setting.effects w done) := by
  induction way with
  | here => rw [List.length_nil, Nat.zero_add]; rfl
  | @pass _ _ _ _ _ _ _ lines reads pass _ ih =>
    obtain ⟨hfirst, hrest⟩ := List.forall_mem_cons.mp agree
    have hlength : (lines.length + 1) + fuel = (lines.length + fuel) + 1 := by omega
    rw [List.length_cons, hlength, Setting.run, advance_equipped reads hfirst, pass.advance reads, effects_append]
    exact ih hrest

/-- With fuel for its lines, a run goes along a path of lines whose handlers are the same, to its end. -/
theorem Path.run_equipped (path : setting.Path host runner w lines done result landed)
    (agree : ∀ line ∈ lines, setting.commands.AgreeOn commands line) (limit : Int) {fuel : Nat}
    (hfuel : lines.length ≤ fuel) :
    (setting.equipped limit commands).run host fuel runner w = ⟨result, landed, setting.effects w done⟩ := by
  induction path generalizing fuel with
  | stop reads stop =>
    obtain ⟨more, rfl⟩ : ∃ more, fuel = more + 1 := Nat.exists_eq_add_one_of_ne_zero (Nat.ne_of_gt hfuel)
    rw [Setting.run, advance_equipped reads (agree _ List.mem_cons_self), stop.advance reads]
  | pass reads pass _ ih =>
    obtain ⟨hfirst, hrest⟩ := List.forall_mem_cons.mp agree
    obtain ⟨more, rfl⟩ : ∃ more, fuel = more + 1 := Nat.exists_eq_add_one_of_ne_zero
      (Nat.ne_of_gt (Nat.lt_of_lt_of_le (Nat.succ_pos _) hfuel))
    rw [Setting.run, advance_equipped reads hfirst, pass.advance reads, effects_append]
    exact ih hrest (Nat.le_of_succ_le_succ hfuel)

/-- A step that reaches its limit nowhere ends as one would end from the end of a way whose handlers are the same. -/
theorem Way.next_equipped (way : setting.Way host runner w lines done landed)
    (agree : ∀ line ∈ lines, setting.commands.AgreeOn commands line) (h : Standing setting.dialog runner)
    (going : runner.phase.Going) {limit : Int} (hlength : lines.length ≤ limit.toNat)
    (hlimit : ∀ count title,
      ((setting.equipped limit commands).next host runner w).result ≠ .error (.tooLong count title)) :
    (setting.equipped limit commands).next host runner w =
      (setting.equipped limit commands).next host landed (setting.effects w done) := by
  obtain ⟨hlanded, hlandedGoing⟩ := way.standing h going
  obtain ⟨fuel, hfuel⟩ := Nat.exists_eq_add_of_le hlength
  have hnext : (setting.equipped limit commands).next host runner w =
      (setting.equipped limit commands).run host limit.toNat runner w := next_of_going going
  rw [hfuel, way.run_equipped agree] at hnext
  rw [hnext] at hlimit
  -- what is left of the limit is enough for the rest, and so is all of it
  obtain ⟨rest, later, result, last, path, hrest⟩ := @exists_path _ _ _ (setting.equipped limit commands) landed hlanded
    hlandedGoing host (setting.effects w done) fuel hlimit
  have hend : (setting.equipped limit commands).next host landed (setting.effects w done) =
      (setting.equipped limit commands).run host limit.toNat landed (setting.effects w done) :=
    next_of_going hlandedGoing
  rw [hnext, hend, path.run hrest, path.run (Nat.le_trans hrest (Nat.le.intro ((Nat.add_comm ..).trans hfuel.symm)))]

/-! ### Other limits -/

theorem Way.run_within (way : setting.Way host runner w lines done landed) (limit fuel : Nat) :
    (setting.within limit).run host (lines.length + fuel) runner w =
      (setting.within limit).run host fuel landed (setting.effects w done) :=
  way.run_equipped (fun _ _ _ _ _ => rfl) limit fuel

theorem Path.run_within (path : setting.Path host runner w lines done result landed) (limit : Nat) {fuel : Nat}
    (hfuel : lines.length ≤ fuel) :
    (setting.within limit).run host fuel runner w = ⟨result, landed, setting.effects w done⟩ :=
  path.run_equipped (fun _ _ _ _ _ => rfl) limit hfuel

/-- A fault other than too many lines is the same however lines are counted. -/
theorem mapError_recounted (h : ∀ count title, result ≠ .error (.tooLong count title)) (count : Nat) :
    result.mapError (.recounted count) = result := by
  cases result with
  | ok event => rfl
  | error fault =>
    cases fault with
    | tooLong lines title => exact absurd rfl (h lines title)
    | _ => rfl

/-- With the same fuel, runs under two limits differ at most in the count that they tell when they give up. -/
theorem run_within_recounted (h : Standing setting.dialog runner) (hgoing : runner.phase.Going) (host : η) (w : ω)
    (limit other fuel : Nat) :
    (setting.within other).run host fuel runner w =
      ((setting.within limit).run host fuel runner w).map (·.mapError (.recounted other)) := by
  rcases setting.exists_way_or_path h hgoing host w fuel with
    ⟨lines, done, landed, way, rfl⟩ | ⟨lines, done, result, landed, path, hlength⟩
  · rw [← Nat.add_zero lines.length, way.run_within, way.run_within]
    rfl
  · rw [path.run_within other hlength, path.run_within limit hlength]
    exact congrArg (fun told => (⟨told, landed, setting.effects w done⟩ : After ω _))
      (mapError_recounted (fun _ _ => path.not_tooLong) other).symm

/-- A step that does not reach its limit is the same under any higher one. -/
theorem next_within_of_le (h : Standing setting.dialog runner) (going : runner.phase.Going) {limit higher : Nat}
    (hle : limit ≤ higher)
    (hlimit : ∀ count title, ((setting.within limit).next host runner w).result ≠ .error (.tooLong count title)) :
    (setting.within higher).next host runner w = (setting.within limit).next host runner w := by
  have hlower : (setting.within limit).next host runner w = (setting.within limit).run host limit runner w :=
    next_of_going going
  have hhigher : (setting.within higher).next host runner w = (setting.within higher).run host higher runner w :=
    next_of_going going
  rw [hlower] at hlimit
  obtain ⟨lines, done, result, landed, path, hlength⟩ :=
    @exists_path _ _ _ (setting.within limit) runner h going host w limit hlimit
  rw [hlower, hhigher, path.run hlength]
  exact path.run_within higher (Nat.le_trans hlength hle)

/-- A step under two limits together goes on from the end of a way as long as the first of them, as a step under the
second one does from there. -/
theorem Way.next_within_add (way : setting.Way host runner w lines done landed) (h : Standing setting.dialog runner)
    (going : runner.phase.Going) (more : Nat) :
    (setting.within (lines.length + more)).next host runner w =
      ((setting.within more).next host landed (setting.effects w done)).map
        (·.mapError (.recounted (lines.length + more))) := by
  obtain ⟨hlanded, hlandedGoing⟩ := way.standing h going
  have hwhole : (setting.within (lines.length + more)).next host runner w =
      (setting.within (lines.length + more)).run host (lines.length + more) runner w := next_of_going going
  have hagain : (setting.within more).next host landed (setting.effects w done) =
      (setting.within more).run host more landed (setting.effects w done) := next_of_going hlandedGoing
  rw [hwhole, way.run_within, hagain]
  exact run_within_recounted hlanded hlandedGoing host _ more _ more

/-- **The limit of a step only cuts it off.** From a runner that goes on by itself, a step that does not reach its
limit is the same under any higher one: it gives the same and leaves the same runner in the same world, all that was
done to it included. When a step reaches its limit and another one is asked for, then the second ends as one step
would have ended under both limits together, up to the count of lines that is told if that too gives up. -/
theorem next_interrupted (reachable : Reachable setting.dialog runner) (going : runner.phase.Going) (host : η) (w : ω)
    (limit : Nat) :
    let first := (setting.within limit).next host runner w
    ((∀ count title, first.result ≠ .error (.tooLong count title)) →
      ∀ higher, limit ≤ higher → (setting.within higher).next host runner w = first) ∧
    ∀ count title, first.result = .error (.tooLong count title) → ∀ more,
      (setting.within (limit + more)).next host runner w =
        ((setting.within more).next host first.runner first.world).map (·.mapError (.recounted (limit + more))) := by
  intro first
  have hstanding := reachable.standing
  refine ⟨fun hlimit higher hle => next_within_of_le hstanding going hle hlimit, fun count title hlimit more => ?_⟩
  have hfirst : first = (setting.within limit).run host limit runner w := next_of_going going
  rcases setting.exists_way_or_path hstanding going host w limit with
    ⟨lines, done, landed, way, rfl⟩ | ⟨lines, done, result, landed, path, hlength⟩
  · -- the step has given up at the end of a way, from where both go on
    have hcut := way.run_within lines.length 0
    rw [Nat.add_zero] at hcut
    rw [hfirst, hcut]
    exact way.next_within_add hstanding going more
  · rw [hfirst, path.run_within limit hlength] at hlimit
    exact absurd hlimit path.not_tooLong

/-- From the road, a step of two lines and one of two more lead as far as one of four, and no step of more than four
lines goes farther. -/
theorem next_interrupted_on_road :
    let runner : Runner := ⟨1, 0, .start, [], [⟨0, 2, 1⟩]⟩
    let first := (Gate.passable.within 2).next () runner .empty
    Reachable Gate.passable.dialog runner ∧ first.result = .error (.tooLong 2 "Road") ∧
      (Gate.passable.within 4).next () runner .empty =
        ((Gate.passable.within 2).next () first.runner first.world).map (·.mapError (.recounted 4)) ∧
      ∀ higher, 5 ≤ higher → (Gate.passable.within higher).next () runner .empty =
        (Gate.passable.within 5).next () runner .empty := by
  intro runner first
  have hcreate : Gate.setting.create false "Gate" .empty = (.ok ⟨0, 0, .start, [], []⟩, .empty) := rfl
  have hreachable : Reachable Gate.passable.dialog runner :=
    .course hcreate [Gate.turn (.next ()), Gate.turn (.next ()), Gate.turn (.choose "Road")]
  have hfirst : first.result = .error (.tooLong 2 "Road") := rfl
  have hwhole : ((Gate.passable.within 5).next () runner .empty).result = .ok (.speech "Guard" "Halt." []) := rfl
  refine ⟨hreachable, hfirst, ?_, ?_⟩
  · exact (next_interrupted hreachable (.inl rfl) () .empty 2).2 2 "Road" hfirst 2
  · refine (next_interrupted hreachable (.inl rfl) () .empty 5).1 fun count title hresult => ?_
    rw [hwhole] at hresult
    cases hresult

end Setting

end Parley

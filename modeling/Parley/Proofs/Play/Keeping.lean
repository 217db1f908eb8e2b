import Parley.Proofs.Play.Standing

/-! What a course keeps.

A property of a runner and its world that every line keeps is kept by every step, also by one that breaks
off (`Keeps.next`). If every choice that is made and every move to a node keep it too, then so does every
course (`keeps_course`). -/
namespace Parley

variable {ω η ε : Type}

namespace Setting

variable (setting : Setting ω η ε)

/-- A property that every line keeps, whether it leads on or gives a result. -/
structure Keeps (P : Runner → ω → Prop) : Prop where
  pass : ∀ {host : η} {runner landed : Runner} {w : ω} {line : Line Nat} {done : List (Effect η)},
    P runner w → runner.phase.Going → setting.Reads runner line →
      setting.Pass host runner w line done landed → P landed (setting.effects w done)
  stop : ∀ {host : η} {runner landed : Runner} {w : ω} {line : Line Nat} {done : List (Effect η)}
    {result : Except (PlayFault ε) Event},
    P runner w → runner.phase.Going → setting.Reads runner line →
      setting.Stop host runner w line done result landed → P landed (setting.effects w done)

/-- A request that brings the runner to the first line of a node: what is done for it, and the runner there. -/
inductive Moves (runner : Runner) : Request η → List (Effect η) → Runner → Prop where
  | choose {title : String} {offer : Nat × Offer} {menu : Menu Nat} {choice : Choice Nat} {node : Nat}
      (waiting : runner.phase = .waiting)
      (offered : runner.offers.find? (·.2.target = title) = some offer)
      (reads : setting.Reads runner (.offer menu)) (member : choice ∈ menu.choices)
      (target : choice.target = title) (found : setting.dialog.indexOf? title = some node) :
      Moves runner (.choose title)
        [.tell (.choiceSelected (setting.dialog.titleAt runner.node) title offer.2.text),
          .tell (.nodeEntered title)]
        ((mark runner offer.1).entering node)
  | reset {title : String} {node : Nat} (found : setting.dialog.indexOf? title = some node) :
      Moves runner (.reset title) [.tell (.nodeEntered title)] (runner.entering node)

variable {setting} {P : Runner → ω → Prop} {runner : Runner} {w : ω}

/-! ### Steps -/

theorem Keeps.run (keeps : setting.Keeps P) (h : P runner w) (standing : Standing setting.dialog runner)
    (going : runner.phase.Going) (host : η) (fuel : Nat) :
    P (setting.run host fuel runner w).runner (setting.run host fuel runner w).world := by
  induction fuel generalizing runner w with
  | zero => exact h
  | succ fuel ih =>
    obtain ⟨line, reads⟩ := standing.reads going
    rcases setting.pass_or_stop host w reads with ⟨done, landed, pass⟩ | ⟨done, result, landed, stop⟩
    · obtain ⟨hlanded, hlandedGoing⟩ := standing.pass going pass
      rw [pass.run host w reads]
      exact ih (keeps.pass h going reads pass) hlanded hlandedGoing
    · rw [stop.run host w reads]
      exact keeps.stop h going reads stop

theorem Keeps.next (keeps : setting.Keeps P) (h : P runner w) (standing : Standing setting.dialog runner)
    (host : η) : P (setting.next host runner w).runner (setting.next host runner w).world := by
  unfold Setting.next
  split
  · exact h
  · exact h
  · rename_i hwaiting hended
    exact keeps.run h standing (Phase.going_of_ne hwaiting hended) host _

/-! ### Choices and moves -/

/-- A choice is made, or refused and nothing is done. -/
theorem moves_or_error_of_choose (setting : Setting ω η ε) (standing : Standing setting.dialog runner) (title : String)
    (w : ω) :
    (∃ done landed, setting.Moves runner (.choose title) done landed ∧
      setting.choose title runner w = ⟨.ok (), landed, setting.effects w done⟩) ∨
    ∃ fault, setting.choose title runner w = ⟨.error fault, runner, w⟩ := by
  by_cases waiting : runner.phase = .waiting
  · cases offered : runner.offers.find? (·.2.target = title) with
    | none =>
      refine .inr ⟨.notOffered title, ?_⟩
      rw [Setting.choose, if_pos waiting, offered]
    | some offer =>
      have hoffer := List.mem_of_find?_eq_some offered
      have htarget : offer.2.target = title := by simpa using List.find?_some offered
      obtain ⟨choice, hchoice, _, hindex, _, hsame⟩ := standing.choiceAt? waiting hoffer
      have hchoiceTarget : choice.target = title := hsame.symm.trans htarget
      obtain ⟨menu, reads, hdrawn⟩ := standing.waiting waiting
      obtain ⟨drawn, hdrawnAt, _, hdrawnSame⟩ := hdrawn.choice offer hoffer
      rw [hchoiceTarget] at hindex
      refine .inl ⟨_, _, .choose waiting offered reads (List.mem_of_getElem? hdrawnAt)
        (hdrawnSame.symm.trans htarget) hindex, ?_⟩
      rw [Setting.choose, if_pos waiting, offered]
      simp only [hchoice, enter, setting.dialog.titleAt_of_indexOf? hindex]
      rfl
  · refine .inr ⟨.notWaiting runner.phase, ?_⟩
    rw [Setting.choose, if_neg waiting]

/-- The runner goes to a node, or is refused and nothing is done. -/
theorem moves_or_error_of_reset (setting : Setting ω η ε) (runner : Runner) (title : String) (w : ω) :
    (∃ done landed, setting.Moves runner (.reset title) done landed ∧
      setting.reset title runner w = ⟨.ok (), landed, setting.effects w done⟩) ∨
    ∃ fault, setting.reset title runner w = ⟨.error fault, runner, w⟩ := by
  cases found : setting.dialog.indexOf? title with
  | none =>
    refine .inr ⟨.unknownNode title, ?_⟩
    rw [Setting.reset, found]
  | some node =>
    refine .inl ⟨_, _, .reset found, ?_⟩
    rw [Setting.reset, found]
    simp only [enter, setting.dialog.titleAt_of_indexOf? found]
    rfl

/-- What every line keeps, and every move that is asked for, a request keeps. -/
theorem Keeps.meet (keeps : setting.Keeps P) (h : P runner w) (standing : Standing setting.dialog runner)
    {request : Request η}
    (move : ∀ {done : List (Effect η)} {landed : Runner}, setting.Moves runner request done landed →
      P landed (setting.effects w done)) :
    P (setting.meet runner w request).runner (setting.meet runner w request).world := by
  cases request with
  | next host => exact keeps.next h standing host
  | choose title =>
    show P (setting.choose title runner w).runner (setting.choose title runner w).world
    rcases setting.moves_or_error_of_choose standing title w with ⟨done, landed, moves, hchoose⟩ | ⟨fault, hchoose⟩
    · rw [hchoose]
      exact move moves
    · rw [hchoose]
      exact h
  | reset title =>
    show P (setting.reset title runner w).runner (setting.reset title runner w).world
    rcases setting.moves_or_error_of_reset runner title w with ⟨done, landed, moves, hreset⟩ | ⟨fault, hreset⟩
    · rw [hreset]
      exact move moves
    · rw [hreset]
      exact h

end Setting

/-- A new runner is at the first line of the node with its title, which observers are told. -/
theorem Setting.eq_of_create {setting : Setting ω η ε} {check : Bool} {title : String} {w w₀ : ω}
    {created : Runner} (h : setting.create check title w = (.ok created, w₀)) :
    setting.dialog.indexOf? title = some created.node ∧ created = ⟨created.node, 0, .start, [], []⟩ ∧
      w₀ = setting.world.publish (.nodeEntered title) w := by
  unfold Setting.create at h
  split at h
  · cases h
  · rename_i node found
    simp only at h
    split at h
    · cases h
    · cases h
      exact ⟨found, rfl, rfl⟩

/-- A runner that is refused leaves the world as it was. -/
theorem Setting.world_of_refused {setting : Setting ω η ε} {check : Bool} {title : String} {w w₀ : ω}
    {fault : PlayFault ε} (h : setting.create check title w = (.error fault, w₀)) : w₀ = w := by
  unfold Setting.create at h
  split at h
  · cases h
    rfl
  · simp only at h
    split at h
    · cases h
      rfl
    · cases h

/-! ### Courses -/

/-- A property that a turn keeps: what the host does first, every line, and every move that it asks for. -/
structure Turn.Keeps (dialog : Dialog) (P : Runner → ω → Prop) (turn : Turn ω η ε) : Prop where
  prepare : ∀ {runner : Runner} {w : ω}, P runner w → P runner (turn.prepare w)
  line : (turn.setting dialog).Keeps P
  move : ∀ {runner landed : Runner} {w : ω} {done : List (Effect η)}, P runner w →
    (turn.setting dialog).Moves runner turn.request done landed →
      P landed ((turn.setting dialog).effects w done)

variable {dialog : Dialog} {P : Runner → ω → Prop} {runner : Runner} {w : ω}

theorem Turn.Keeps.take {turn : Turn ω η ε} (keeps : turn.Keeps dialog P) (h : P runner w)
    (standing : Standing dialog runner) : P (turn.take dialog runner w).runner (turn.take dialog runner w).world :=
  keeps.line.meet (keeps.prepare h) standing fun moves => keeps.move (keeps.prepare h) moves

/-- What every turn keeps, a course keeps. -/
theorem keeps_course {turns : List (Turn ω η ε)} (keeps : ∀ turn ∈ turns, turn.Keeps dialog P) (h : P runner w)
    (standing : Standing dialog runner) :
    P (course dialog turns runner w).1 (course dialog turns runner w).2 := by
  induction turns generalizing runner w with
  | nil => exact h
  | cons turn rest ih =>
    obtain ⟨first, later⟩ := List.forall_mem_cons.mp keeps
    exact ih later (first.take h standing) (standing.take turn w).standing

end Parley

import Parley.Proofs.Play.Course
import Parley.Proofs.Play.Passage

/-! Where a runner may stand.

`Standing` is kept by every turn of a host, also by one that fails half-way: a step is a row of lines, and
each of them keeps it by itself. So a runner never looks for a line, a choice or a node that is not
there, and its requests fail only for the reasons that are foreseen (`standing_of_create`). -/
namespace Parley

/-- The choice at a position of a line of a dialog. -/
def Dialog.choiceAt? (dialog : Dialog) (place : Place) : Option (Choice Nat) :=
  match dialog.lineAt? place.node place.line with
  | some (.offer menu) => menu.choices[place.choice]?
  | _ => none

/-- What may be offered of a menu: some of its choices as they are, each with its position, in order. -/
structure Drawn (menu : Menu Nat) (offers : List (Nat × Offer)) : Prop where
  choice : ∀ offer ∈ offers, ∃ choice, menu.choices[offer.1]? = some choice ∧
    offer.2.text = choice.text ∧ offer.2.target = choice.target
  ascending : (offers.map Prod.fst).Pairwise (· < ·)

/-- A runner at a line of a dialog, or just past the last line of a node when it has ended. -/
structure Standing (dialog : Dialog) (runner : Runner) : Prop where
  node : runner.node < dialog.nodes.length
  ended : runner.phase = .ended → runner.line = dialog.lineCount runner.node
  playing : runner.phase ≠ .ended → runner.line < dialog.lineCount runner.node
  waiting : runner.phase = .waiting →
    ∃ menu, dialog.lineAt? runner.node runner.line = some (.offer menu) ∧ Drawn menu runner.offers
  idle : runner.phase ≠ .waiting → runner.offers = []
  used : ∀ place ∈ runner.used, (dialog.choiceAt? place).isSome

/-- The phases in which a runner goes on by itself: it has entered a node, or it has shown a speech. -/
def Phase.Going (phase : Phase) : Prop := phase = .start ∨ phase = .talking

/-- The faults that a request may meet with. -/
def Request.Foresees {η ε : Type} : Request η → PlayFault ε → Prop
  | .next _, .tooLong .. | .next _, .unregistered _ | .next _, .handler _ => True
  | .choose _, .notWaiting _ | .choose _, .notOffered _ => True
  | .reset _, .unknownNode _ => True
  | _, _ => False

/-- An operation that leaves the runner standing and fails only as its request foresees. -/
structure Sound {ω η ε ρ : Type} (dialog : Dialog) (request : Request η)
    (after : After ω (Except (PlayFault ε) ρ)) : Prop where
  standing : Standing dialog after.runner
  foreseen : ∀ fault, after.result = .error fault → request.Foresees fault

variable {dialog : Dialog} {runner : Runner}

theorem Phase.Going.ne_ended {phase : Phase} (h : phase.Going) : phase ≠ .ended := by
  rcases h with rfl | rfl <;> decide

theorem Phase.Going.ne_waiting {phase : Phase} (h : phase.Going) : phase ≠ .waiting := by
  rcases h with rfl | rfl <;> decide

theorem Phase.going_of_ne {phase : Phase} (hwaiting : phase ≠ .waiting) (hended : phase ≠ .ended) :
    phase.Going := by
  cases phase with
  | start => exact .inl rfl
  | talking => exact .inr rfl
  | waiting => exact absurd rfl hwaiting
  | ended => exact absurd rfl hended

/-! ### Where a runner comes to -/

/-- Entering a node that is there. -/
theorem Standing.entering (h : Standing dialog runner) {node : Nat} (hnode : node < dialog.nodes.length) :
    Standing dialog (runner.entering node) where
  node := hnode
  ended := fun hphase => nomatch hphase
  playing := fun _ => dialog.lineCount_pos hnode
  waiting := fun hphase => nomatch hphase
  idle := fun _ => rfl
  used := h.used

/-- Coming to the end of a node from its last line. -/
theorem Standing.stopped (h : Standing dialog runner) (hphase : runner.phase ≠ .ended)
    (last : ¬ runner.line + 1 < dialog.lineCount runner.node) : Standing dialog runner.stopped where
  node := h.node
  ended := fun _ => by
    have := h.playing hphase
    show runner.line + 1 = dialog.lineCount runner.node
    omega
  playing := fun hover => absurd rfl hover
  waiting := fun hphase => nomatch hphase
  idle := fun _ => rfl
  used := h.used

/-- Coming to the next line, in any phase that goes on by itself. -/
theorem Standing.onward (h : Standing dialog runner) (hgoing : runner.phase.Going) {phase : Phase}
    (hphase : phase.Going) (more : runner.line + 1 < dialog.lineCount runner.node) :
    Standing dialog { runner.onward with phase } where
  node := h.node
  ended := fun hended => absurd hended hphase.ne_ended
  playing := fun _ => more
  waiting := fun hwaiting => absurd hwaiting hphase.ne_waiting
  idle := fun _ => h.idle hgoing.ne_waiting
  used := h.used

/-! ### What is offered -/

variable {ω η ε : Type} {setting : Setting ω η ε}

/-- An offer is made of a choice that its guard lets through. -/
theorem Setting.offer?_eq_some {w : ω} {position : Nat} {choice : Choice Nat} {offer : Nat × Offer}
    (h : setting.offer? runner w position choice = some offer) :
    offer.1 = position ∧ offer.2.text = choice.text ∧ offer.2.target = choice.target := by
  unfold Setting.offer? at h
  split at h
  · cases h
    exact ⟨rfl, rfl, rfl⟩
  · cases h

/-- What is offered on from a position are choices there, in order. -/
theorem Setting.drawn_offersFrom (runner : Runner) (w : ω) (choices : List (Choice Nat)) (position : Nat) :
    (∀ offer ∈ setting.offersFrom runner w position choices, position ≤ offer.1 ∧
      ∃ choice, choices[offer.1 - position]? = some choice ∧
        offer.2.text = choice.text ∧ offer.2.target = choice.target) ∧
    ((setting.offersFrom runner w position choices).map Prod.fst).Pairwise (· < ·) := by
  induction choices generalizing position with
  | nil => exact ⟨fun offer hoffer => (nomatch hoffer), List.Pairwise.nil⟩
  | cons choice rest ih =>
    obtain ⟨hchoice, hascending⟩ := ih (position + 1)
    have hlater : ∀ offer ∈ setting.offersFrom runner w (position + 1) rest, position ≤ offer.1 ∧
        ∃ found, (choice :: rest)[offer.1 - position]? = some found ∧
          offer.2.text = found.text ∧ offer.2.target = found.target := by
      intro offer hoffer
      obtain ⟨hle, found, hfound, hsame⟩ := hchoice offer hoffer
      refine ⟨by omega, found, ?_, hsame⟩
      rw [show offer.1 - position = offer.1 - (position + 1) + 1 by omega, List.getElem?_cons_succ]
      exact hfound
    unfold Setting.offersFrom
    cases hoffer : setting.offer? runner w position choice with
    | none => exact ⟨hlater, hascending⟩
    | some first =>
      obtain ⟨hposition, hsame⟩ := Setting.offer?_eq_some hoffer
      refine ⟨?_, List.pairwise_cons.mpr ⟨?_, hascending⟩⟩
      · intro offer hmem
        rcases List.mem_cons.mp hmem with rfl | hmem
        · exact ⟨by omega, choice, by rw [hposition, Nat.sub_self]; rfl, hsame⟩
        · exact hlater offer hmem
      · intro other hother
        obtain ⟨offer, hmem, rfl⟩ := List.mem_map.mp hother
        have := (hchoice offer hmem).1
        omega

theorem Setting.drawn_offers (w : ω) (menu : Menu Nat) : Drawn menu (setting.offers runner w menu) := by
  obtain ⟨hchoice, hascending⟩ := setting.drawn_offersFrom runner w menu.choices 0
  exact ⟨fun offer hoffer => (hchoice offer hoffer).2, hascending⟩

/-! ### Lines and steps -/

theorem Standing.reads (h : Standing setting.dialog runner) (hgoing : runner.phase.Going) :
    ∃ line, setting.Reads runner line := Dialog.exists_lineAt? (h.playing hgoing.ne_ended)

variable {host : η} {w : ω} {line : Line Nat} {done : List (Effect η)} {landed : Runner}

/-- A line that leads on keeps the runner standing and going. -/
theorem Standing.pass (h : Standing setting.dialog runner) (hgoing : runner.phase.Going)
    (pass : setting.Pass host runner w line done landed) :
    Standing setting.dialog landed ∧ landed.phase.Going := by
  cases pass with
  | onward _ more => exact ⟨h.onward hgoing hgoing more, hgoing⟩
  | jump found => exact ⟨h.entering (setting.dialog.lt_of_indexOf? found), .inl rfl⟩

/-- A line that gives a result keeps the runner standing, and its fault is foreseen. -/
theorem Standing.stop {result : Except (PlayFault ε) Event} (h : Standing setting.dialog runner)
    (hgoing : runner.phase.Going) (reads : setting.Reads runner line)
    (stop : setting.Stop host runner w line done result landed) (w' : ω) :
    Sound setting.dialog (.next host) ⟨result, landed, w'⟩ := by
  cases stop with
  | speech more => exact ⟨h.onward hgoing (.inr rfl) more, fun fault hfault => nomatch hfault⟩
  | lastSpeech last => exact ⟨h.stopped hgoing.ne_ended last, fun fault hfault => nomatch hfault⟩
  | lastQuiet _ last => exact ⟨h.stopped hgoing.ne_ended last, fun fault hfault => nomatch hfault⟩
  | unregistered missing => exact ⟨h, fun fault hfault => by cases hfault; trivial⟩
  | failed registered fails => exact ⟨h, fun fault hfault => by cases hfault; trivial⟩
  | @menu menu =>
    refine ⟨?_, fun fault hfault => nomatch hfault⟩
    exact {
      node := h.node
      ended := fun hphase => nomatch hphase
      playing := fun _ => h.playing hgoing.ne_ended
      waiting := fun _ => ⟨menu, reads, setting.drawn_offers w menu⟩
      idle := fun hphase => absurd rfl hphase
      used := h.used }

/-- A run keeps the runner standing after every line, and so wherever it breaks off. -/
theorem Standing.run (fuel : Nat) (h : Standing setting.dialog runner) (hgoing : runner.phase.Going) (w : ω) :
    Sound setting.dialog (.next host) (setting.run host fuel runner w) := by
  induction fuel generalizing runner w with
  | zero => exact ⟨h, fun fault hfault => by cases hfault; trivial⟩
  | succ fuel ih =>
    obtain ⟨line, reads⟩ := h.reads hgoing
    rcases setting.pass_or_stop host w reads with ⟨done, landed, pass⟩ | ⟨done, result, landed, stop⟩
    · obtain ⟨hlanded, hlandedGoing⟩ := h.pass hgoing pass
      rw [pass.run host w reads]
      exact ih hlanded hlandedGoing _
    · rw [stop.run host w reads]
      exact h.stop hgoing reads stop _

theorem Standing.next (h : Standing setting.dialog runner) (host : η) (w : ω) :
    Sound setting.dialog (.next host) (setting.next host runner w) := by
  unfold Setting.next
  split
  · exact ⟨h, fun fault hfault => nomatch hfault⟩
  · exact ⟨h, fun fault hfault => nomatch hfault⟩
  · rename_i hwaiting hended
    exact h.run _ (Phase.going_of_ne hwaiting hended) w

/-! ### Choices and moves -/

/-- The choice of an offer is there when the runner waits. -/
theorem Standing.choiceAt? (h : Standing setting.dialog runner) (hwaiting : runner.phase = .waiting)
    {offer : Nat × Offer} (hoffer : offer ∈ runner.offers) :
    ∃ choice, setting.choiceAt? runner offer.1 = some choice ∧
      setting.dialog.choiceAt? ⟨runner.node, runner.line, offer.1⟩ = some choice ∧
      setting.dialog.indexOf? choice.target = some choice.index ∧
      offer.2.text = choice.text ∧ offer.2.target = choice.target := by
  obtain ⟨menu, hmenu, hdrawn⟩ := h.waiting hwaiting
  obtain ⟨choice, hchoice, hsame⟩ := hdrawn.choice offer hoffer
  have reads : setting.Reads runner (.offer menu) := hmenu
  obtain ⟨node, hnode, hline⟩ := reads.hasLine
  refine ⟨choice, ?_, ?_, ?_, hsame⟩
  · simp [Setting.choiceAt?, hnode, hline, hchoice]
  · simp only [Dialog.choiceAt?, hmenu, hchoice]
  · exact setting.dialog.indexOf?_of_choice hmenu (List.mem_of_getElem? hchoice)

theorem Standing.mark (h : Standing setting.dialog runner) {position : Nat} {choice : Choice Nat}
    (hchoice : setting.dialog.choiceAt? ⟨runner.node, runner.line, position⟩ = some choice) :
    ∀ place ∈ (Setting.mark runner position).used, (setting.dialog.choiceAt? place).isSome := by
  intro place hplace
  rcases List.mem_insert_iff.mp hplace with rfl | hplace
  · rw [hchoice]
    rfl
  · exact h.used place hplace

theorem Standing.choose (h : Standing setting.dialog runner) (title : String) (w : ω) :
    Sound setting.dialog (.choose title : Request η) (setting.choose title runner w) := by
  unfold Setting.choose
  split
  · rename_i hwaiting
    split
    · exact ⟨h, fun fault hfault => by cases hfault; trivial⟩
    · rename_i position offer hfind
      obtain ⟨choice, hchoice, hplace, hindex, _⟩ := h.choiceAt? hwaiting (List.mem_of_find?_eq_some hfind)
      rw [hchoice]
      refine ⟨?_, fun fault hfault => nomatch hfault⟩
      have hentered := h.entering (setting.dialog.lt_of_indexOf? hindex)
      exact { hentered with used := h.mark hplace }
  · exact ⟨h, fun fault hfault => by cases hfault; trivial⟩

theorem Standing.reset (h : Standing setting.dialog runner) (title : String) (w : ω) :
    Sound setting.dialog (.reset title : Request η) (setting.reset title runner w) := by
  unfold Setting.reset
  split
  · exact ⟨h, fun fault hfault => by cases hfault; trivial⟩
  · rename_i node hindex
    exact ⟨h.entering (setting.dialog.lt_of_indexOf? hindex), fun fault hfault => nomatch hfault⟩

/-! ### Courses -/

theorem Sound.map {ρ σ : Type} {request : Request η} {after : After ω (Except (PlayFault ε) ρ)}
    (h : Sound dialog request after) (f : ρ → σ) : Sound dialog request (after.map (·.map f)) :=
  ⟨h.standing, fun fault hfault => h.foreseen fault (error_of_map hfault)⟩

theorem Standing.meet (h : Standing setting.dialog runner) (request : Request η) (w : ω) :
    Sound setting.dialog request (setting.meet runner w request) := by
  cases request with
  | next host => exact (h.next host w).map _
  | choose title => exact (h.choose title w).map _
  | reset title => exact (h.reset title w).map _

theorem Standing.take (h : Standing dialog runner) (turn : Turn ω η ε) (w : ω) :
    Sound dialog turn.request (turn.take dialog runner w) := by
  have hstanding : Standing (turn.setting dialog).dialog runner := h
  exact hstanding.meet turn.request (turn.prepare w)

theorem Standing.course (h : Standing dialog runner) (turns : List (Turn ω η ε)) (w : ω) :
    Standing dialog (course dialog turns runner w).1 := by
  induction turns generalizing runner w with
  | nil => exact h
  | cons turn rest ih => exact ih (h.take turn w).standing _

/-- A new runner stands at the first line of the node with the title. -/
theorem standing_of_created {check : Bool} {title : String} {w w₀ : ω} {created : Runner}
    (h : setting.create check title w = (.ok created, w₀)) : Standing setting.dialog created := by
  unfold Setting.create at h
  split at h
  · cases h
  · rename_i node hindex
    simp only at h
    split at h
    · cases h
    · cases h
      have hnode := setting.dialog.lt_of_indexOf? hindex
      exact {
        node := hnode
        ended := fun hphase => nomatch hphase
        playing := fun _ => setting.dialog.lineCount_pos hnode
        waiting := fun hphase => nomatch hphase
        idle := fun _ => rfl
        used := fun place hplace => nomatch hplace }

theorem Reachable.standing (h : Reachable dialog runner) : Standing dialog runner := by
  cases h with
  | course create turns => exact (standing_of_created create).course turns _

/-- **A runner always stands somewhere in its dialog.** After any turns of a host, whatever surroundings
they brought and whether they failed or not, the cursor of a new runner is at a line of its node or, in
the phase that ends a node, just past the last one; it offers choices of the menu under the cursor while
it waits and nothing otherwise; and every choice marked as made is one of the dialog. So whatever is asked
of it next fails only as foreseen, and never for want of a line, a choice or a node. -/
theorem standing_of_create {check : Bool} {title : String} {w w₀ : ω} {created : Runner}
    (create : setting.create check title w = (.ok created, w₀)) (turns : List (Turn ω η ε)) :
    let after := course setting.dialog turns created w₀
    Standing setting.dialog after.1 ∧
      ∀ (turn : Turn ω η ε) (fault : PlayFault ε),
        (turn.take setting.dialog after.1 after.2).result = .error fault → turn.request.Foresees fault := by
  have hstanding := (standing_of_created create).course turns w₀
  exact ⟨hstanding, fun turn => (hstanding.take turn _).foreseen⟩

/-- Who has greeted the guard fails to walk, and stands at the second line of the road. -/
theorem standing_on_road :
    Gate.setting.create false "Gate" .empty = (.ok ⟨0, 0, .start, [], []⟩, .empty) ∧
      Standing Gate.dialog ⟨1, 1, .start, [], [⟨0, 2, 1⟩]⟩ :=
  have create : Gate.setting.create false "Gate" .empty = (.ok ⟨0, 0, .start, [], []⟩, .empty) := rfl
  ⟨create, (standing_of_create create
    [Gate.turn (.next ()), Gate.turn (.next ()), Gate.turn (.choose "Road"), Gate.turn (.next ())]).1⟩

end Parley

import Parley.Proofs.Play.Keeping

/-! What is picked and what is marked.

A choice is made by the title that it leads to, and where several offers lead there it is that of the first
(`choose_records_first`). So an offer can be picked exactly if no earlier one leads to the same node. What has been
picked shows as used from then on, to whoever asks and wherever it is offered again. -/
namespace Parley

namespace Setting

variable {ω η ε : Type} (setting : Setting ω η ε)

end Setting

/-- A possibility is marked, and what is offered is flagged as it is marked. -/
structure Remembers (place : Place) (runner : Runner) : Prop where
  marked : place ∈ runner.used
  flagged : runner.phase = .waiting → ∀ offer ∈ runner.offers,
    offer.2.used = decide (⟨runner.node, runner.line, offer.1⟩ ∈ runner.used)

/-! ### A fork with two ways to one place -/

namespace Fork

/-- Two choices that lead to the same node. -/
def dialog : Dialog where
  id := "fork"
  nodes := [
    ⟨"Fork", [.offer ⟨"", [⟨"Sneak", "Road", 1, none⟩, ⟨"Greet", "Road", 1, none⟩], List.cons_ne_nil _ _⟩],
      .empty, 1, List.cons_ne_nil _ _⟩,
    ⟨"Road", [.jump "Fork" 0], .empty, 8, List.cons_ne_nil _ _⟩]
  distinct := by decide
  resolved := by decide

/-- What observers are told is kept. -/
def world : World (List Notice) where
  get _ _ := none
  set _ _ told := told
  publish notice told := told ++ [notice]
  report _ told := told

def setting : Setting (List Notice) Unit Unit := ⟨dialog, 10, world, Table.empty⟩

def turn (request : Request Unit) : Turn (List Notice) Unit Unit := ⟨id, 10, world, Table.empty, request⟩

/-- The runner when both choices are offered. -/
def runner : Runner where
  node := 0
  line := 0
  phase := .waiting
  offers := [(0, ⟨"Sneak", "Road", false⟩), (1, ⟨"Greet", "Road", false⟩)]
  used := []

end Fork

variable {ω η ε : Type}

/-! ### Marks are kept -/

namespace Remembers

variable {setting : Setting ω η ε} {place : Place} {runner landed : Runner} {host : η} {w : ω} {line : Line Nat}
  {done : List (Effect η)}

/-- Where nothing is offered, nothing is flagged wrong. -/
theorem of_marked (hmarked : place ∈ runner.used) (hphase : runner.phase ≠ .waiting) : Remembers place runner :=
  ⟨hmarked, fun hwaiting => absurd hwaiting hphase⟩

/-- What is offered is flagged as it is marked. -/
theorem flagged_offersFrom (runner : Runner) (w : ω) (choices : List (Choice Nat)) (position : Nat) :
    ∀ offer ∈ setting.offersFrom runner w position choices,
      offer.2.used = decide (⟨runner.node, runner.line, offer.1⟩ ∈ runner.used) := by
  induction choices generalizing position with
  | nil => exact List.forall_mem_nil _
  | cons choice rest ih =>
    refine List.forall_mem_append.mpr ⟨fun offer hoffer => ?_, ih (position + 1)⟩
    rw [Option.mem_toList, Setting.offer?] at hoffer
    split at hoffer
    · cases hoffer
      rfl
    · cases hoffer

theorem pass (h : Remembers place runner) (going : runner.phase.Going)
    (pass : setting.Pass host runner w line done landed) : Remembers place landed := by
  cases pass with
  | onward _ _ => exact of_marked h.marked going.ne_waiting
  | jump _ => exact of_marked h.marked Phase.noConfusion

theorem stop {result : Except (PlayFault ε) Event} (h : Remembers place runner)
    (stop : setting.Stop host runner w line done result landed) : Remembers place landed := by
  cases stop with
  | speech _ => exact of_marked h.marked Phase.noConfusion
  | lastSpeech _ => exact of_marked h.marked Phase.noConfusion
  | lastQuiet _ _ => exact of_marked h.marked Phase.noConfusion
  | menu => exact ⟨h.marked, fun _ => flagged_offersFrom runner w _ 0⟩
  | unregistered _ => exact h
  | failed _ _ => exact h

theorem move {request : Request η} (h : Remembers place runner) (moves : setting.Moves runner request done landed) :
    Remembers place landed := by
  cases moves with
  | choose => exact of_marked (List.mem_insert_of_mem h.marked) Phase.noConfusion
  | reset _ => exact of_marked h.marked Phase.noConfusion

/-- What is marked stays so, whatever the host does. -/
theorem course {dialog : Dialog} (h : Remembers place runner) (standing : Standing dialog runner)
    (turns : List (Turn ω η ε)) (w : ω) : Remembers place (course dialog turns runner w).1 := by
  have keeps : ∀ turn ∈ turns, turn.Keeps dialog fun runner _ => Remembers place runner := by
    intro turn _
    exact {
      prepare := fun h => h
      line := ⟨fun h going _ pass => h.pass going pass, fun h _ _ stop => h.stop stop⟩
      move := fun h moves => h.move moves }
  exact keeps_course (P := fun runner _ => Remembers place runner) keeps h standing

end Remembers

/-! ### Choices -/

namespace Setting

variable {setting : Setting ω η ε} {runner : Runner} {w : ω} {offer : Nat × Offer}

/-- The first offer that leads to a title is chosen by it, and recorded. -/
theorem choose_of_find? (standing : Standing setting.dialog runner) (waiting : runner.phase = .waiting) (w : ω)
    {title : String} (offered : runner.offers.find? (·.2.target = title) = some offer) :
    ∃ node, setting.dialog.indexOf? title = some node ∧
      setting.choose title runner w = ⟨.ok (), (mark runner offer.1).entering node, setting.effects w [
        (.tell (.choiceSelected (setting.dialog.titleAt runner.node) title offer.2.text) : Effect η),
        .tell (.nodeEntered title)]⟩ := by
  obtain ⟨choice, hchoice, -, hindex, -, htarget⟩ := standing.choiceAt? waiting (List.mem_of_find?_eq_some offered)
  have htitle : choice.target = title := htarget.symm.trans (by simpa using List.find?_some offered)
  rw [htitle] at hindex
  refine ⟨choice.index, hindex, ?_⟩
  rw [choose, if_pos waiting, offered]
  simp only [hchoice, enter, setting.dialog.titleAt_of_indexOf? hindex]
  rfl

theorem Fork.reachable : Reachable Fork.dialog Fork.runner := by
  have hcreate : Fork.setting.create false "Fork" [] = (.ok ⟨0, 0, .start, [], []⟩, [.nodeEntered "Fork"]) := rfl
  exact .course hcreate [Fork.turn (.next ())]

end Setting

end Parley

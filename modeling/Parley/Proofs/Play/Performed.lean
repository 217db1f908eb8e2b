import Parley.Proofs.Play.Picked
import Parley.Proofs.Play.Resumed

/-! What a request does.

A request is met in one of four ways (`Performs`): there is nothing to do for it, it brings the runner to the first
line of a node, it goes along lines to one that gives a result, or it gives up after as many lines as its limit.
`exists_performs` says that there is no other way, and `Performs.meet` that nothing else is done. -/
namespace Parley

variable {ω η ε : Type}

/-- A request for which nothing is done, and what it gives. While a choice is due and at the end of a node there is
nothing to show; a choice is refused where none is due or none leads there, and a move that leads nowhere. -/
inductive Idle (dialog : Dialog) (runner : Runner) : Request η → Except (PlayFault ε) (Option Event) → Prop where
  | waiting {host : η} (waiting : runner.phase = .waiting) : Idle dialog runner (.next host) (.ok (some .waiting))
  | ended {host : η} (ended : runner.phase = .ended) : Idle dialog runner (.next host) (.ok (some .ended))
  | notWaiting {title : String} (busy : runner.phase ≠ .waiting) :
      Idle dialog runner (.choose title) (.error (.notWaiting runner.phase))
  | notOffered {title : String} (waiting : runner.phase = .waiting)
      (unoffered : ∀ offer ∈ runner.offers, offer.2.target ≠ title) :
      Idle dialog runner (.choose title) (.error (.notOffered title))
  | unknownNode {title : String} (unknown : title ∉ dialog.titles) :
      Idle dialog runner (.reset title) (.error (.unknownNode title))

namespace Setting

/-- What a request does: what is done for it, what it gives, and the runner then. -/
inductive Performs (setting : Setting ω η ε) (runner : Runner) (w : ω) :
    Request η → List (Effect η) → Except (PlayFault ε) (Option Event) → Runner → Prop where
  | idle {request : Request η} {result : Except (PlayFault ε) (Option Event)}
      (idle : Idle setting.dialog runner request result) : Performs setting runner w request [] result runner
  | moves {request : Request η} {done : List (Effect η)} {landed : Runner}
      (moves : setting.Moves runner request done landed) : Performs setting runner w request done (.ok none) landed
  | stops {host : η} {lines : List (Line Nat)} {way last : List (Effect η)} {line : Line Nat}
      {between landed : Runner} {result : Except (PlayFault ε) Event} (going : runner.phase.Going)
      (along : setting.Way host runner w lines way between) (within : lines.length < setting.limit.toNat)
      (reads : setting.Reads between line)
      (stop : setting.Stop host between (setting.effects w way) line last result landed) :
      Performs setting runner w (.next host) (way ++ last) (result.map some) landed
  | givesUp {host : η} {lines : List (Line Nat)} {done : List (Effect η)} {landed : Runner}
      (going : runner.phase.Going) (along : setting.Way host runner w lines done landed)
      (limit : lines.length = setting.limit.toNat) :
      Performs setting runner w (.next host) done
        (.error (.tooLong setting.limit.toNat (setting.dialog.titleAt landed.node))) landed

variable {setting : Setting ω η ε} {runner landed : Runner} {w : ω} {request : Request η} {done : List (Effect η)}
  {result : Except (PlayFault ε) (Option Event)}

theorem find?_eq_none_of_unoffered {title : String} (unoffered : ∀ offer ∈ runner.offers, offer.2.target ≠ title) :
    runner.offers.find? (·.2.target = title) = none := by
  rw [List.find?_eq_none]
  intro offer hoffer
  simpa using unoffered offer hoffer

/-- Where an offer leads to a title, one is the first. -/
theorem exists_find?_of_offered {title : String} (offered : ∃ offer ∈ runner.offers, offer.2.target = title) :
    ∃ first, runner.offers.find? (·.2.target = title) = some first := by
  obtain ⟨offer, hoffer, htarget⟩ := offered
  rw [← Option.isSome_iff_exists, List.find?_isSome]
  exact ⟨offer, hoffer, by simpa using htarget⟩

theorem meet_of_idle (setting : Setting ω η ε) (idle : Idle setting.dialog runner request result) (w : ω) :
    setting.meet runner w request = ⟨result, runner, w⟩ := by
  cases idle with
  | waiting waiting =>
    rw [meet, next, waiting]
    rfl
  | ended ended =>
    rw [meet, next, ended]
    rfl
  | notWaiting busy =>
    rw [meet, choose, if_neg busy]
    rfl
  | notOffered waiting unoffered =>
    rw [meet, choose, if_pos waiting, find?_eq_none_of_unoffered unoffered]
    rfl
  | unknownNode unknown =>
    rw [meet, reset, Dialog.indexOf?_eq_none_iff.mpr unknown]
    rfl

theorem meet_of_moves (standing : Standing setting.dialog runner) (moves : setting.Moves runner request done landed)
    (w : ω) : setting.meet runner w request = ⟨.ok none, landed, setting.effects w done⟩ := by
  cases moves with
  | choose waiting offered _ _ _ found =>
    obtain ⟨node, hindex, hchoose⟩ := choose_of_find? standing waiting w offered
    cases hindex.symm.trans found
    rw [meet, hchoose]
    rfl
  | reset found =>
    rw [meet, reset, found]
    simp only [enter, setting.dialog.titleAt_of_indexOf? found]
    rfl

/-- What a request performs is all that is done for it. -/
theorem Performs.meet (standing : Standing setting.dialog runner)
    (performs : setting.Performs runner w request done result landed) :
    setting.meet runner w request = ⟨result, landed, setting.effects w done⟩ := by
  cases performs with
  | idle idle => exact setting.meet_of_idle idle w
  | moves moves => exact meet_of_moves standing moves w
  | stops going along within reads stop =>
    obtain ⟨fuel, hfuel⟩ := Nat.exists_eq_add_of_lt within
    rw [Setting.meet, next_of_going going, hfuel, Nat.add_assoc, along.run, stop.run _ _ reads, effects_append]
    rfl
  | givesUp going along limit =>
    rw [Setting.meet, next_of_going going, ← Nat.add_zero setting.limit.toNat, ← limit, along.run, limit]
    rfl

/-- A choice is made, or there is nothing to do for it. -/
theorem exists_performs_choose (standing : Standing setting.dialog runner) (title : String) (w : ω) :
    ∃ done result landed, setting.Performs runner w (.choose title) done result landed := by
  by_cases waiting : runner.phase = .waiting
  · by_cases unoffered : ∀ offer ∈ runner.offers, offer.2.target ≠ title
    · exact ⟨_, _, _, .idle (.notOffered waiting unoffered)⟩
    · rcases setting.moves_or_error_of_choose standing title w with ⟨done, landed, moves, -⟩ | ⟨fault, hfault⟩
      · exact ⟨_, _, _, .moves moves⟩
      · -- the choice is offered, and so it is not refused
        push Not at unoffered
        obtain ⟨first, hfirst⟩ := exists_find?_of_offered unoffered
        obtain ⟨node, -, hchoose⟩ := choose_of_find? standing waiting w hfirst
        rw [hfault] at hchoose
        cases hchoose
  · exact ⟨_, _, _, .idle (.notWaiting waiting)⟩

/-- Every request is met in one of the four ways. -/
theorem exists_performs (standing : Standing setting.dialog runner) (request : Request η) (w : ω) :
    ∃ done result landed, setting.Performs runner w request done result landed := by
  cases request with
  | choose title => exact exists_performs_choose standing title w
  | reset title =>
    cases found : setting.dialog.indexOf? title with
    | none => exact ⟨_, _, _, .idle (.unknownNode (Dialog.indexOf?_eq_none_iff.mp found))⟩
    | some node => exact ⟨_, _, _, .moves (.reset found)⟩
  | next host =>
    by_cases waiting : runner.phase = .waiting
    · exact ⟨_, _, _, .idle (.waiting waiting)⟩
    by_cases ended : runner.phase = .ended
    · exact ⟨_, _, _, .idle (.ended ended)⟩
    have going := Phase.going_of_ne waiting ended
    rcases setting.exists_way_or_path standing going host w setting.limit.toNat with
      ⟨lines, done, landed, way, hlength⟩ | ⟨lines, done, result, landed, path, hlength⟩
    · exact ⟨_, _, _, .givesUp going way hlength⟩
    · obtain ⟨before, line, way, last, between, rfl, rfl, along, reads, stop⟩ := path.exists_way
      rw [List.length_append, List.length_singleton] at hlength
      exact ⟨_, _, _, .stops going along hlength reads stop⟩

end Setting

variable {dialog : Dialog} {runner : Runner}

/-- What is performed when a turn is taken. -/
theorem Turn.exists_take (turn : Turn ω η ε) (standing : Standing dialog runner) (w : ω) :
    ∃ done result landed,
      (turn.setting dialog).Performs runner (turn.prepare w) turn.request done result landed ∧
      turn.take dialog runner w = ⟨result, landed, (turn.setting dialog).effects (turn.prepare w) done⟩ := by
  have hstanding : Standing (turn.setting dialog).dialog runner := standing
  obtain ⟨done, result, landed, performs⟩ := Setting.exists_performs hstanding turn.request (turn.prepare w)
  exact ⟨done, result, landed, performs, performs.meet hstanding⟩

end Parley

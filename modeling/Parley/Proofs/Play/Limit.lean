import Parley.Proofs.Play.Path

/-! The limit of a step.

A step counts the lines that lead it on, and before each line it asks whether they are as many as its limit: it gives
up exactly if so many lines have led it on, whatever the next one is (`limitExact_iff`). So the limit is exact but in
one case: a line that would be shown after as many lines as the limit is not reached. -/
namespace Parley

/-- Whether a line sets a variable, jumps or runs a command, and so shows nothing. -/
def Line.isControl {ι : Type} : Line ι → Bool
  | .assign .. | .jump .. | .command .. => true
  | .say .. | .offer .. => false

namespace Setting

variable {ω η ε : Type} (setting : Setting ω η ε)

/-- The event that a line under the cursor of a runner is shown by. -/
def shown? (runner : Runner) (w : ω) : Line Nat → Option Event
  | .say speaker text tags => some (.speech speaker text tags)
  | .offer menu => some (.options menu.speaker ((setting.offers runner w menu).map Prod.snd))
  | _ => none

/-- A way from the line under the cursor of a runner along lines that lead on: these lines, what is done for them, and
the runner at the line that the last of them leads to. -/
inductive Way (host : η) : Runner → ω → List (Line Nat) → List (Effect η) → Runner → Prop where
  | here {runner : Runner} {w : ω} : Way host runner w [] [] runner
  | pass {runner between landed : Runner} {w : ω} {line : Line Nat} {done later : List (Effect η)}
      {lines : List (Line Nat)} (reads : setting.Reads runner line)
      (pass : setting.Pass host runner w line done between)
      (rest : Way host between (setting.effects w done) lines later landed) :
      Way host runner w (line :: lines) (done ++ later) landed

/-- A step gives up only if there are more control lines than its limit before anything is shown, and it shows what
comes after no more of them. -/
structure LimitExact (host : η) (runner : Runner) (w : ω) : Prop where
  gives_up : ∀ count title, (setting.next host runner w).result = .error (.tooLong count title) →
    ∃ lines done landed line, setting.Way host runner w lines done landed ∧ setting.Reads landed line ∧
      (∀ other ∈ line :: lines, other.isControl = true) ∧ setting.limit.toNat < (line :: lines).length
  shows : ∀ lines done landed line event, setting.Way host runner w lines done landed → setting.Reads landed line →
    lines.length ≤ setting.limit.toNat → setting.shown? landed (setting.effects w done) line = some event →
    (setting.next host runner w).result = .ok event

variable {setting} {host : η} {runner landed : Runner} {w : ω} {line : Line Nat} {lines : List (Line Nat)}
  {done : List (Effect η)} {event : Event} {count : Nat} {title : String}

/-! ### Control lines, and lines that are shown -/

theorem shown?_eq_none_iff : setting.shown? runner w line = none ↔ line.isControl = true := by
  cases line <;> simp [shown?, Line.isControl]

theorem Pass.isControl (pass : setting.Pass host runner w line done landed) : line.isControl = true := by
  cases pass with
  | onward quiet _ => cases quiet <;> rfl
  | jump _ => rfl

/-- A line that is shown gives its event as the result. -/
theorem exists_stop_of_shown (host : η) (h : setting.shown? runner w line = some event) :
    ∃ done landed, setting.Stop host runner w line done (.ok event) landed := by
  cases line with
  | say speaker text tags =>
    cases h
    by_cases more : setting.HasMore runner
    · exact ⟨_, _, .speech more⟩
    · exact ⟨_, _, .lastSpeech more⟩
  | offer menu =>
    cases h
    exact ⟨_, _, .menu⟩
  | assign variableName value => cases h
  | command name arguments => cases h
  | jump target index => cases h

/-! ### Ways and paths -/

theorem Way.isControl (way : setting.Way host runner w lines done landed) :
    ∀ line ∈ lines, line.isControl = true := by
  induction way with
  | here => exact List.forall_mem_nil _
  | pass _ pass _ ih => exact List.forall_mem_cons.mpr ⟨pass.isControl, ih⟩

/-- A way leaves the runner standing and going. -/
theorem Way.standing (way : setting.Way host runner w lines done landed) (h : Standing setting.dialog runner)
    (hgoing : runner.phase.Going) : Standing setting.dialog landed ∧ landed.phase.Going := by
  induction way with
  | here => exact ⟨h, hgoing⟩
  | pass _ pass _ ih =>
    obtain ⟨hbetween, hbetweenGoing⟩ := h.pass hgoing pass
    exact ih hbetween hbetweenGoing

/-- A run goes along a way with what it needs for its lines, and on from there with the rest. -/
theorem Way.run (way : setting.Way host runner w lines done landed) (fuel : Nat) :
    setting.run host (lines.length + fuel) runner w = setting.run host fuel landed (setting.effects w done) := by
  induction way with
  | here => rw [List.length_nil, Nat.zero_add]; rfl
  | @pass _ _ _ _ _ _ _ lines reads pass _ ih =>
    have hlength : (lines.length + 1) + fuel = (lines.length + fuel) + 1 := by omega
    rw [List.length_cons, hlength, pass.run host _ reads, ih, effects_append]

/-- From a cursor there is a way of any length, or a path that is no longer. -/
theorem exists_way_or_path (h : Standing setting.dialog runner) (hgoing : runner.phase.Going) (host : η) (w : ω)
    (length : Nat) :
    (∃ lines done landed, setting.Way host runner w lines done landed ∧ lines.length = length) ∨
      ∃ lines done result landed, setting.Path host runner w lines done result landed ∧ lines.length ≤ length := by
  induction length generalizing runner w with
  | zero => exact .inl ⟨_, _, _, .here, rfl⟩
  | succ length ih =>
    obtain ⟨line, reads⟩ := h.reads hgoing
    rcases setting.pass_or_stop host w reads with ⟨done, between, pass⟩ | ⟨done, result, landed, stop⟩
    · obtain ⟨hbetween, hbetweenGoing⟩ := h.pass hgoing pass
      rcases ih hbetween hbetweenGoing (setting.effects w done) with
        ⟨lines, later, landed, way, hlength⟩ | ⟨lines, later, result, landed, path, hlength⟩
      · exact .inl ⟨_, _, _, .pass reads pass way, congrArg Nat.succ hlength⟩
      · exact .inr ⟨_, _, _, _, .pass reads pass path, Nat.succ_le_succ hlength⟩
    · exact .inr ⟨_, _, _, _, .stop reads stop, Nat.succ_le_succ (Nat.zero_le _)⟩

/-- No path ends in giving up. -/
theorem Path.not_tooLong {result : Except (PlayFault ε) Event}
    (path : setting.Path host runner w lines done result landed) : result ≠ .error (.tooLong count title) := by
  induction path with
  | stop _ stop => cases stop <;> nofun
  | pass _ _ _ ih => exact ih

/-! ### Giving up -/

/-- A step gives up exactly if as many lines as its limit lead it on, and tells where. -/
theorem tooLong_iff (h : Standing setting.dialog runner) (hgoing : runner.phase.Going) :
    (setting.next host runner w).result = .error (.tooLong count title) ↔
      ∃ lines done landed, setting.Way host runner w lines done landed ∧ lines.length = setting.limit.toNat ∧
        count = setting.limit.toNat ∧ title = setting.dialog.titleAt landed.node := by
  have hgivesUp : ∀ {lines done landed}, setting.Way host runner w lines done landed →
      lines.length = setting.limit.toNat → (setting.next host runner w).result =
        .error (.tooLong setting.limit.toNat (setting.dialog.titleAt landed.node)) := by
    intro lines done landed way hlength
    rw [next_of_going hgoing, ← Nat.add_zero (Int.toNat _), ← hlength, way.run, hlength]
    rfl
  constructor
  · intro hresult
    rcases exists_way_or_path h hgoing host w setting.limit.toNat with
      ⟨lines, done, landed, way, hlength⟩ | ⟨lines, done, result, landed, path, hlength⟩
    · rw [hgivesUp way hlength] at hresult
      cases hresult
      exact ⟨lines, done, landed, way, hlength, rfl, rfl⟩
    · rw [next_of_going hgoing, path.run hlength] at hresult
      exact absurd hresult path.not_tooLong
  · rintro ⟨lines, done, landed, way, hlength, rfl, rfl⟩
    exact hgivesUp way hlength

/-- What comes after fewer lines than the limit is shown. -/
theorem Way.shows (hgoing : runner.phase.Going) (way : setting.Way host runner w lines done landed)
    (reads : setting.Reads landed line) (hlength : lines.length < setting.limit.toNat)
    (hshown : setting.shown? landed (setting.effects w done) line = some event) :
    (setting.next host runner w).result = .ok event := by
  obtain ⟨fuel, hfuel⟩ := Nat.exists_eq_add_of_lt hlength
  obtain ⟨later, last, stop⟩ := exists_stop_of_shown host hshown
  rw [next_of_going hgoing, hfuel, Nat.add_assoc, way.run, stop.run host _ reads]

/-- **The limit of a step is one line short.** From a runner that goes on by itself, a step gives up exactly if as many
lines as its limit lead it on. What comes after fewer lines is shown. So the limit is exact unless the line that comes
after just as many would be shown. -/
theorem limitExact_iff (reachable : Reachable setting.dialog runner) (going : runner.phase.Going) (host : η) (w : ω) :
    (∀ count title, (setting.next host runner w).result = .error (.tooLong count title) ↔
      ∃ lines done landed, setting.Way host runner w lines done landed ∧ lines.length = setting.limit.toNat ∧
        count = setting.limit.toNat ∧ title = setting.dialog.titleAt landed.node) ∧
    (∀ lines done landed line event, setting.Way host runner w lines done landed → setting.Reads landed line →
      lines.length < setting.limit.toNat → setting.shown? landed (setting.effects w done) line = some event →
      (setting.next host runner w).result = .ok event) ∧
    (setting.LimitExact host runner w ↔
      ¬∃ lines done landed line event, setting.Way host runner w lines done landed ∧ setting.Reads landed line ∧
        lines.length = setting.limit.toNat ∧
        setting.shown? landed (setting.effects w done) line = some event) := by
  have hstanding := reachable.standing
  refine ⟨fun count title => tooLong_iff hstanding going, ?_, ?_, ?_⟩
  · intro lines done landed line event way reads hlength hshown
    exact way.shows going reads hlength hshown
  · rintro hexact ⟨lines, done, landed, line, event, way, reads, hlength, hshown⟩
    have hshows := hexact.shows lines done landed line event way reads (Nat.le_of_eq hlength) hshown
    rw [(tooLong_iff hstanding going).mpr ⟨lines, done, landed, way, hlength, rfl, rfl⟩] at hshows
    cases hshows
  · intro hnone
    constructor
    · intro count title hresult
      obtain ⟨lines, done, landed, way, hlength, -⟩ := (tooLong_iff hstanding going).mp hresult
      obtain ⟨hlanded, hlandedGoing⟩ := way.standing hstanding going
      obtain ⟨line, reads⟩ := hlanded.reads hlandedGoing
      have hcontrol : setting.shown? landed (setting.effects w done) line = none := by
        refine Option.eq_none_iff_forall_ne_some.mpr fun event hshown => hnone ?_
        exact ⟨lines, done, landed, line, event, way, reads, hlength, hshown⟩
      refine ⟨lines, done, landed, line, way, reads, ?_, ?_⟩
      · exact List.forall_mem_cons.mpr ⟨shown?_eq_none_iff.mp hcontrol, way.isControl⟩
      · rw [List.length_cons, hlength]
        exact Nat.lt_succ_self _
    · intro lines done landed line event way reads hlength hshown
      rcases Nat.lt_or_eq_of_le hlength with hless | hequal
      · exact way.shows going reads hless hshown
      · exact absurd ⟨lines, done, landed, line, event, way, reads, hequal, hshown⟩ hnone

/-- The four control lines from the road to the next speech are within a limit of ten. -/
theorem limitExact_on_road :
    let runner : Runner := ⟨1, 0, .start, [], [⟨0, 2, 1⟩]⟩
    Reachable Gate.passable.dialog runner ∧ runner.phase.Going ∧ Gate.passable.LimitExact () runner .empty := by
  intro runner
  have hcreate : Gate.setting.create false "Gate" .empty = (.ok ⟨0, 0, .start, [], []⟩, .empty) := rfl
  have hreachable : Reachable Gate.passable.dialog runner :=
    .course hcreate [Gate.turn (.next ()), Gate.turn (.next ()), Gate.turn (.choose "Road")]
  have hnext : (Gate.passable.next () runner .empty).result = .ok (.speech "Guard" "Halt." []) := rfl
  obtain ⟨hgivesUp, -, hexact⟩ := limitExact_iff hreachable (.inl rfl) () .empty
  refine ⟨hreachable, .inl rfl, hexact.mpr ?_⟩
  rintro ⟨lines, done, landed, line, event, way, -, hlength, -⟩
  have hresult := (hgivesUp _ _).mpr ⟨lines, done, landed, way, hlength, rfl, rfl⟩
  rw [hnext] at hresult
  cases hresult

/-- With a limit of one, a step gives up before the speech that comes after one assignment. -/
theorem not_limitExact_at_gate :
    let setting := { Gate.passable with limit := 1 }
    let runner : Runner := ⟨0, 0, .start, [], []⟩
    Reachable setting.dialog runner ∧ runner.phase.Going ∧
      (setting.next () runner .empty).result = .error (.tooLong 1 "Gate") ∧
      ¬setting.LimitExact () runner .empty := by
  intro setting runner
  have hcreate : Gate.setting.create false "Gate" .empty = (.ok runner, .empty) := rfl
  refine ⟨.course hcreate [], .inl rfl, rfl, fun hexact => ?_⟩
  have way : setting.Way () runner .empty [.assign "met" true] _ runner.onward :=
    .pass rfl (.onward .assign (show 0 + 1 < 3 by decide)) .here
  cases hexact.shows _ _ _ (.say "Guard" "Halt." []) _ way rfl (Nat.le_refl 1) rfl

end Setting

end Parley

import Mathlib.Logic.Function.Basic
import Parley.Proofs.Play.Mirror

/-! Players of one dialog.

Several players share a dialog and the handlers of its commands. Each has a stage of their own, with variables and
observers, in a house whose rest is shared. Handlers leave the stages alone. Then a call of one player leaves the
runner and the stage of every other as they are (`agree_of_other`), and what it does to its own does not depend on
the others (`agree_of_own`). So however calls are interleaved, players see what they see without the others
(`together_alone`). -/
namespace Parley

variable {ι σ γ η ε : Type}

/-- The stages of players, and the rest of the house. -/
structure House (ι σ γ : Type) where
  stages : ι → σ
  rest : γ

/-- One call of a player. -/
structure Call (ι σ η : Type) where
  player : ι
  /-- What is done to the player's stage first. -/
  prepare : σ → σ
  limit : Int
  world : World σ
  request : Request η

/-- The runners of players, and the house they play in. -/
structure Company (ι σ γ : Type) where
  runners : ι → Runner
  house : House ι σ γ

/-- Handlers that leave every stage alone. -/
def Registry.Spares (commands : Registry (House ι σ γ) η ε) : Prop :=
  ∀ {name handler}, commands.get? name = some handler → ∀ arguments host house,
    (handler arguments host house).1.stages = house.stages

/-- Handlers that fail, or do not, in view of their arguments and the value of the host alone. One that kept count
would tell a player of the calls of the others. -/
def Registry.Steady (commands : Registry (House ι σ γ) η ε) : Prop :=
  ∀ {name handler}, commands.get? name = some handler → ∀ arguments host house house',
    (handler arguments host house).2 = (handler arguments host house').2

section

variable [DecidableEq ι]

def House.put (house : House ι σ γ) (player : ι) (stage : σ) : House ι σ γ :=
  { house with stages := Function.update house.stages player stage }

@[simp] theorem House.stages_put (house : House ι σ γ) (player : ι) (stage : σ) :
    (house.put player stage).stages player = stage := Function.update_self ..

@[simp] theorem House.stages_put_of_ne {player other : ι} (h : other ≠ player) (house : House ι σ γ) (stage : σ) :
    (house.put player stage).stages other = house.stages other := Function.update_of_ne h ..

theorem House.put_stages (house : House ι σ γ) (player : ι) : house.put player (house.stages player) = house := by
  unfold put
  rw [Function.update_eq_self]

/-- The world of a stage, in a house. -/
def World.on (world : World σ) (player : ι) : World (House ι σ γ) where
  get house := world.get (house.stages player)
  set name value house := house.put player (world.set name value (house.stages player))
  publish notice house := house.put player (world.publish notice (house.stages player))
  report entry house := house.put player (world.report entry (house.stages player))

namespace Call

variable (dialog : Dialog) (commands : Registry (House ι σ γ) η ε) (call : Call ι σ η) (company : Company ι σ γ)

/-- A call as a turn in the house. -/
def turn : Turn (House ι σ γ) η ε where
  prepare house := house.put call.player (call.prepare (house.stages call.player))
  limit := call.limit
  world := call.world.on call.player
  commands := commands
  request := call.request

/-- A call is made. -/
def take : After (House ι σ γ) (Except (PlayFault ε) (Option Event)) :=
  (call.turn commands).take dialog (company.runners call.player) company.house

/-- The company after a call. -/
def left : Company ι σ γ :=
  let after := call.take dialog commands company
  ⟨Function.update company.runners call.player after.runner, after.world⟩

/-- What the player sees of a call. -/
def seen : Seen σ ε :=
  let after := call.take dialog commands company
  ⟨after.result, ((call.turn commands).setting dialog).view after.runner, after.world.stages call.player⟩

end Call

/-- Calls are made one after the other: what each player sees of theirs, and the company at the end. -/
def together (dialog : Dialog) (commands : Registry (House ι σ γ) η ε) :
    List (Call ι σ η) → Company ι σ γ → List (ι × Seen σ ε) × Company ι σ γ
  | [], company => ([], company)
  | call :: rest, company =>
    let after := together dialog commands rest (call.left dialog commands company)
    ((call.player, call.seen dialog commands company) :: after.1, after.2)

/-- The calls of a player among others, each with the house that it finds. -/
def ownCalls (dialog : Dialog) (commands : Registry (House ι σ γ) η ε) (player : ι) :
    List (Call ι σ η) → Company ι σ γ → List (Call ι σ η × House ι σ γ)
  | [], _ => []
  | call :: rest, company =>
    let later := ownCalls dialog commands player rest (call.left dialog commands company)
    if call.player = player then (call, company.house) :: later else later

/-- A player alone, in houses that are given but for the player's own stage: what is seen, and the runner and the
stage at the end. -/
def alone (dialog : Dialog) (commands : Registry (House ι σ γ) η ε) (player : ι) :
    List (Call ι σ η × House ι σ γ) → Runner → σ → List (Seen σ ε) × Runner × σ
  | [], runner, stage => ([], runner, stage)
  | (call, house) :: rest, runner, stage =>
    let after := (call.turn commands).take dialog runner (house.put player stage)
    let later := alone dialog commands player rest after.runner (after.world.stages player)
    (⟨after.result, ((call.turn commands).setting dialog).view after.runner, after.world.stages player⟩ :: later.1,
      later.2)

/-! ### One call -/

/-- Companies in which a player has the same runner and the same stage. -/
structure Company.Agree (player : ι) (company other : Company ι σ γ) : Prop where
  runner : other.runners player = company.runners player
  stage : other.house.stages player = company.house.stages player

omit [DecidableEq ι] in
theorem Company.Agree.trans {player : ι} {first second third : Company ι σ γ} (h : first.Agree player second)
    (h' : second.Agree player third) : first.Agree player third :=
  ⟨h'.runner.trans h.runner, h'.stage.trans h.stage⟩

omit [DecidableEq ι] in
theorem Company.Agree.symm {player : ι} {company other : Company ι σ γ} (h : company.Agree player other) :
    other.Agree player company := ⟨h.runner.symm, h.stage.symm⟩

variable {player : ι} {R : House ι σ γ → House ι σ γ → Prop}

/-- Houses that are alike for a player stay alike when the player acts on their stage. -/
theorem World.mirrors_on (world : World σ)
    (read : ∀ {house house'}, R house house' → house'.stages player = house.stages player)
    (put : ∀ {house house'} stage, R house house' → R (house.put player stage) (house'.put player stage)) :
    (world.on player).Mirrors R (world.on player) where
  get h := congrArg world.get (read h)
  set {house house'} name value h := by
    show R _ (house'.put player (world.set name value (house'.stages player)))
    rw [read h]
    exact put _ h
  publish {house house'} notice h := by
    show R _ (house'.put player (world.publish notice (house'.stages player)))
    rw [read h]
    exact put _ h
  report {house house'} entry h := by
    show R _ (house'.put player (world.report entry (house'.stages player)))
    rw [read h]
    exact put _ h

theorem Call.mirrors {dialog : Dialog} {commands : Registry (House ι σ γ) η ε} (call : Call ι σ η)
    (read : ∀ {house house'}, R house house' → house'.stages call.player = house.stages call.player)
    (put : ∀ {house house'} stage, R house house' → R (house.put call.player stage) (house'.put call.player stage))
    (alike : commands.Mirrors R commands) :
    (call.turn commands).Mirrors id R dialog dialog (call.turn commands) where
  setting := ⟨rearranged_self dialog, rfl, call.world.mirrors_on read put, alike⟩
  prepare {house house'} h := by
    show R _ (house'.put call.player (call.prepare (house'.stages call.player)))
    rw [read h]
    exact put _ h
  request := rfl

/-! ### A call of another -/

variable {dialog : Dialog} {commands : Registry (House ι σ γ) η ε} {call : Call ι σ η} {company other : Company ι σ γ}

/-- The same house, with a stage as it was. -/
def Kept (player : ι) (stage : σ) (house house' : House ι σ γ) : Prop :=
  house' = house ∧ house.stages player = stage

omit [DecidableEq ι] in
theorem Registry.Spares.mirrors (spares : commands.Spares) (player : ι) (stage : σ) :
    commands.Mirrors (Kept player stage) commands := by
  intro name
  cases hname : commands.get? name with
  | none => exact .none
  | some handler =>
    refine .some fun {house house'} arguments host h => ?_
    cases h.1
    refine ⟨⟨rfl, ?_⟩, rfl⟩
    rw [spares hname arguments host house]
    exact h.2

/-- A call of one player leaves the runner and the stage of every other. -/
theorem agree_of_other (spares : commands.Spares) (h : call.player ≠ player) :
    company.Agree player (call.left dialog commands company) := by
  refine ⟨Function.update_of_ne (Ne.symm h) _ _, ?_⟩
  have hmirror : Turn.Mirrors id (Kept player (company.house.stages player)) dialog dialog (call.turn commands)
      (call.turn commands) := by
    refine call.mirrors (fun hkept => by rw [hkept.1]) (fun {house house'} stage hkept => ?_) (spares.mirrors _ _)
    cases hkept.1
    exact ⟨rfl, (house.stages_put_of_ne (Ne.symm h) stage).trans hkept.2⟩
  have hkept : Kept player (company.house.stages player) company.house company.house := ⟨rfl, rfl⟩
  exact (hmirror.take hkept (company.runners call.player)).world.2

/-! ### A call of one's own -/

/-- Houses with the same stage for a player. -/
def SameStage (player : ι) (house house' : House ι σ γ) : Prop := house'.stages player = house.stages player

omit [DecidableEq ι] in
theorem Registry.Steady.mirrors (steady : commands.Steady) (spares : commands.Spares) (player : ι) :
    commands.Mirrors (SameStage player) commands := by
  intro name
  cases hname : commands.get? name with
  | none => exact .none
  | some handler =>
    refine .some fun {house house'} arguments host h => ⟨?_, steady hname arguments host house' house⟩
    unfold SameStage
    rw [spares hname arguments host house, spares hname arguments host house']
    exact h

/-- What a call of a player does to their own does not depend on the others. -/
theorem agree_of_own (spares : commands.Spares) (steady : commands.Steady) (agree : company.Agree call.player other) :
    call.seen dialog commands other = call.seen dialog commands company ∧
      (call.left dialog commands company).Agree call.player (call.left dialog commands other) := by
  have hmirror : Turn.Mirrors id (SameStage call.player) dialog dialog (call.turn commands) (call.turn commands) := by
    refine call.mirrors (fun h => h) (fun {house house'} stage _ => ?_) (steady.mirrors spares _)
    exact (house'.stages_put call.player stage).trans (house.stages_put call.player stage).symm
  have htake : (call.take dialog commands company).Mirrors id (SameStage call.player)
      (call.take dialog commands other) := by
    have hown := hmirror.take agree.stage (company.runners call.player)
    rw [Runner.moved_id] at hown
    unfold Call.take
    rw [agree.runner]
    exact hown
  obtain ⟨hresult, hrunner, hworld⟩ := htake
  rw [Runner.moved_id] at hrunner
  refine ⟨?_, ?_, hworld⟩
  · unfold Call.seen
    dsimp only
    rw [hresult, hrunner, show _ = _ from hworld]
  · unfold Call.left
    dsimp only
    rw [hrunner, Function.update_self, Function.update_self]

/-! ### Calls, one after the other -/

/-- What a player sees among others is what the player sees alone, in the same houses otherwise. -/
theorem alone_ownCalls (spares : commands.Spares) (calls : List (Call ι σ η)) (company : Company ι σ γ) (player : ι) :
    let all := together dialog commands calls company
    alone dialog commands player (ownCalls dialog commands player calls company) (company.runners player)
        (company.house.stages player) =
      ((all.1.filter fun seen => seen.1 = player).map Prod.snd, all.2.runners player, all.2.house.stages player) := by
  induction calls generalizing company with
  | nil => rfl
  | cons call rest ih =>
    have hrest := ih (call.left dialog commands company)
    by_cases hplayer : call.player = player
    · subst hplayer
      have hrunner : (call.left dialog commands company).runners call.player =
          (call.take dialog commands company).runner := Function.update_self ..
      rw [hrunner] at hrest
      simp only [ownCalls, together, if_true, List.filter_cons, decide_true, List.map_cons, alone,
        House.put_stages]
      exact congrArg (fun later => (call.seen dialog commands company :: later.1, later.2)) hrest
    · have hleft : company.Agree player (call.left dialog commands company) := agree_of_other spares hplayer
      simp only [ownCalls, together, hplayer, if_false, List.filter_cons, decide_false]
      rw [← hleft.runner, ← hleft.stage]
      exact hrest

/-- A player who begins alike with the others and alone sees the same, and ends alike. -/
theorem together_of_agree (spares : commands.Spares) (steady : commands.Steady) (calls : List (Call ι σ η))
    (agree : company.Agree player other) :
    let all := together dialog commands calls company
    let alone := together dialog commands (calls.filter fun call => call.player = player) other
    (all.1.filter fun seen => seen.1 = player) = alone.1 ∧ all.2.Agree player alone.2 := by
  induction calls generalizing company other with
  | nil => exact ⟨rfl, agree⟩
  | cons call rest ih =>
    by_cases hplayer : call.player = player
    · subst hplayer
      have hown : call.seen dialog commands other = call.seen dialog commands company ∧
          (call.left dialog commands company).Agree call.player (call.left dialog commands other) :=
        agree_of_own spares steady agree
      obtain ⟨hseen, hleft⟩ := hown
      obtain ⟨hall, hlast⟩ := ih hleft
      simp only [together, List.filter_cons, decide_true, if_true, hseen]
      exact ⟨congrArg (List.cons _) hall, hlast⟩
    · have hleft : (call.left dialog commands company).Agree player other :=
        (agree_of_other spares hplayer).symm.trans agree
      obtain ⟨hall, hlast⟩ := ih hleft
      simp only [together, List.filter_cons, hplayer, decide_false]
      exact ⟨hall, hlast⟩

/-- **Players of one dialog do not interfere.** Players share a dialog and handlers that leave their stages alone; each
has a runner, variables and observers of their own. However calls are interleaved, a player sees what the player sees
alone: the results and the faults, what the runner shows of itself with the choices that have been made, the variables
and what observers have been told. Alone, each call finds the rest of the house as it does among the others, for
handlers may keep something there. If they fail or not whatever it is, the others need not have called at all. -/
theorem together_alone (spares : commands.Spares) (calls : List (Call ι σ η)) (company : Company ι σ γ) (player : ι) :
    let all := together dialog commands calls company
    alone dialog commands player (ownCalls dialog commands player calls company) (company.runners player)
        (company.house.stages player) =
      ((all.1.filter fun seen => seen.1 = player).map Prod.snd, all.2.runners player, all.2.house.stages player) ∧
    (commands.Steady →
      let own := together dialog commands (calls.filter fun call => call.player = player) company
      (all.1.filter fun seen => seen.1 = player) = own.1 ∧ own.2.Agree player all.2) := by
  intro all
  refine ⟨alone_ownCalls spares calls company player, fun steady => ?_⟩
  have agree : company.Agree player company := ⟨rfl, rfl⟩
  obtain ⟨hseen, hlast⟩ := together_of_agree spares steady calls agree
  exact ⟨hseen, hlast.symm⟩

end

namespace Gate

/-- Walking fails for every player. -/
def shared : Registry (House Bool (Table Bool) Unit) Unit Unit :=
  Table.empty.put "walk" fun _ _ house => (house, some ())

def call (player : Bool) (request : Request Unit) : Call Bool (Table Bool) Unit := ⟨player, id, 10, world, request⟩

/-- Two come to the gate. While one greets the guard, the other is still halted. -/
def calls : List (Call Bool (Table Bool) Unit) :=
  [call true (.next ()), call true (.next ()), call false (.next ()), call true (.choose "Road"),
    call false (.next ()), call true (.next ()), call false (.choose "Gate")]

/-- Each begins at the gate, without variables. -/
def company : Company Bool (Table Bool) Unit := ⟨fun _ => ⟨0, 0, .start, [], []⟩, fun _ => .empty, ()⟩

end Gate

/-- Whoever is halted at the gate sees no choice of the one who goes on. -/
theorem together_alone_gate :
    Gate.shared.Spares ∧ Gate.shared.Steady ∧
      let all := together Gate.dialog Gate.shared Gate.calls Gate.company
      let alone := together Gate.dialog Gate.shared (Gate.calls.filter fun call => call.player = false) Gate.company
      (all.1.filter fun seen => seen.1 = false) = alone.1 ∧ alone.2.Agree false all.2 := by
  have spares : Gate.shared.Spares := fun h arguments host house => by rw [Gate.eq_of_walk h]
  have steady : Gate.shared.Steady := fun h arguments host house house' => by rw [Gate.eq_of_walk h]
  exact ⟨spares, steady, (together_alone spares Gate.calls Gate.company false).2 steady⟩

namespace Gate

/-- Walking succeeds once, whoever walks. -/
def counting : Registry (House Bool (Table Bool) Nat) Unit Unit :=
  Table.empty.put "walk" fun _ _ house =>
    (⟨house.stages, house.rest + 1⟩, if house.rest = 0 then none else some ())

/-- Each begins on the road, and no one has walked yet. -/
def walkers : Company Bool (Table Bool) Nat := ⟨fun _ => ⟨1, 0, .start, [], []⟩, fun _ => .empty, 0⟩

end Gate

/-- The calls of others cannot be left out unless handlers are steady. Where walking succeeds only once, whoever walks
second fails among others and walks well alone. -/
theorem steady_needed :
    Gate.counting.Spares ∧ ¬Gate.counting.Steady ∧
      let calls := [Gate.call true (.next ()), Gate.call false (.next ())]
      let all := together Gate.dialog Gate.counting calls Gate.walkers
      let own := together Gate.dialog Gate.counting (calls.filter fun call => call.player = false) Gate.walkers
      (all.1.filter fun seen => seen.1 = false) ≠ own.1 := by
  refine ⟨fun h arguments host house => by rw [Gate.eq_of_walk h], fun steady => ?_, fun hsame => ?_⟩
  · have hwalk : Gate.counting.get? "walk" = some fun _ _ house =>
        (⟨house.stages, house.rest + 1⟩, if house.rest = 0 then none else some ()) := rfl
    cases steady hwalk [] () ⟨fun _ => .empty, 0⟩ ⟨fun _ => .empty, 1⟩
  · have hresults := congrArg (List.map fun seen => seen.2.result.toBool) hsame
    revert hresults
    decide +kernel

end Parley

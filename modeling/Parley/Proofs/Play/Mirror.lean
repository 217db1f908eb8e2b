import Mathlib.Data.List.Basic
import Parley.Proofs.Dialog.Resolution
import Parley.Proofs.Play.Course

/-! Runners that mirror one another.

The same lines may be played in two worlds, or in two dialogs whose nodes stand in another order. If whatever is
done to one world and to the other keeps them alike, and what is read from both is the same, then a runner and its
mirror image give the same to every request, and stay mirror images in worlds that are alike (`Mirrors.meet`).
What is seen of one course is then seen of the other (`mirrors_sights`). -/
namespace Parley

variable {ω ω' η ε ρ : Type}

/-! ### What is seen -/

/-- What a runner shows of itself. -/
structure View where
  phase : Phase
  title : String
  line : Nat
  offers : List Offer
  /-- Whether a choice has been made, for each title, line and position. -/
  used : String → Int → Int → Bool

def Setting.view (setting : Setting ω η ε) (runner : Runner) : View where
  phase := runner.phase
  title := setting.dialog.titleAt runner.node
  line := runner.line
  offers := runner.offers.map Prod.snd
  used := setting.isUsed runner

/-- What is seen of a turn: what it gives, what the runner then shows of itself, and the world that it leaves. -/
structure Seen (ω ε : Type) where
  result : Except (PlayFault ε) (Option Event)
  view : View
  world : ω

/-- What is seen of turns, one after the other. -/
def sights (dialog : Dialog) : List (Turn ω η ε) → Runner → ω → List (Seen ω ε)
  | [], _, _ => []
  | turn :: rest, runner, w =>
    let after := turn.take dialog runner w
    ⟨after.result, (turn.setting dialog).view after.runner, after.world⟩ ::
      sights dialog rest after.runner after.world

/-- What is seen of a runner from when it is made up to the end of turns, or why it is not made; and the world when
it has been made or refused. -/
def Setting.play (setting : Setting ω η ε) (check : Bool) (title : String) (w : ω) (turns : List (Turn ω η ε)) :
    Except (PlayFault ε) (List (Seen ω ε)) × ω :=
  match setting.create check title w with
  | (.error fault, w) => (.error fault, w)
  | (.ok created, w) => (.ok (⟨.ok none, setting.view created, w⟩ :: sights setting.dialog turns created w), w)

/-! ### Mirrors -/

/-- The place of a choice where nodes stand elsewhere. -/
def Place.moved (σ : Nat → Nat) (place : Place) : Place := { place with node := σ place.node }

/-- The runner in a dialog whose nodes stand elsewhere. -/
def Runner.moved (σ : Nat → Nat) (runner : Runner) : Runner :=
  { runner with node := σ runner.node, used := runner.used.map (Place.moved σ) }

/-- A dialog with the nodes of another, each at the position that `σ` says. -/
structure Dialog.Rearranged (σ : Nat → Nat) (dialog other : Dialog) : Prop where
  id_eq : other.id = dialog.id
  injective : Function.Injective σ
  node : ∀ i, other.nodes[σ i]? = (dialog.nodes[i]?).map (Node.reindex fun _ j => σ j)
  indexOf : ∀ title, other.indexOf? title = (dialog.indexOf? title).map σ

/-- Worlds that are alike stay alike and are read alike. -/
structure World.Mirrors (R : ω → ω' → Prop) (world : World ω) (other : World ω') : Prop where
  get : ∀ {w w'}, R w w' → other.get w' = world.get w
  set : ∀ {w w'} (name value), R w w' → R (world.set name value w) (other.set name value w')
  publish : ∀ {w w'} (notice), R w w' → R (world.publish notice w) (other.publish notice w')
  report : ∀ {w w'} (entry), R w w' → R (world.report entry w) (other.report entry w')

/-- Handlers that keep worlds alike and fail alike. -/
def Handler.Mirrors (R : ω → ω' → Prop) (handler : Handler ω η ε) (other : Handler ω' η ε) : Prop :=
  ∀ {w w'} (arguments host), R w w' → R (handler arguments host w).1 (other arguments host w').1 ∧
    (other arguments host w').2 = (handler arguments host w).2

/-- Under each name there are handlers that mirror one another, or none. -/
def Registry.Mirrors (R : ω → ω' → Prop) (registry : Registry ω η ε) (other : Registry ω' η ε) : Prop :=
  ∀ name, Option.Rel (Handler.Mirrors R) (registry.get? name) (other.get? name)

structure Setting.Mirrors (σ : Nat → Nat) (R : ω → ω' → Prop) (setting : Setting ω η ε) (other : Setting ω' η ε) :
    Prop where
  dialog : setting.dialog.Rearranged σ other.dialog
  limit : other.limit = setting.limit
  world : setting.world.Mirrors R other.world
  commands : setting.commands.Mirrors R other.commands

/-- Operations that give the same, and leave a runner with its mirror image in worlds that are alike. -/
structure After.Mirrors (σ : Nat → Nat) (R : ω → ω' → Prop) (after : After ω ρ) (other : After ω' ρ) : Prop where
  result : other.result = after.result
  runner : other.runner = after.runner.moved σ
  world : R after.world other.world

structure Turn.Mirrors (σ : Nat → Nat) (R : ω → ω' → Prop) (dialog dialog' : Dialog) (turn : Turn ω η ε)
    (other : Turn ω' η ε) : Prop where
  setting : (turn.setting dialog).Mirrors σ R (other.setting dialog')
  prepare : ∀ {w w'}, R w w' → R (turn.prepare w) (other.prepare w')
  request : other.request = turn.request

/-- What is seen is the same, but for worlds that are alike. -/
structure Seen.Mirrors (R : ω → ω' → Prop) (seen : Seen ω ε) (other : Seen ω' ε) : Prop where
  result : other.result = seen.result
  view : other.view = seen.view
  world : R seen.world other.world

theorem Seen.Mirrors.eq {seen other : Seen ω ε} (h : seen.Mirrors Eq other) : seen = other := by
  obtain ⟨hresult, hview, hworld⟩ := h
  cases seen
  cases other
  cases hresult
  cases hview
  cases hworld
  rfl

variable {σ : Nat → Nat} {R : ω → ω' → Prop}

namespace Dialog.Rearranged

variable {dialog other : Dialog}

theorem titleAt (h : dialog.Rearranged σ other) (i : Nat) : other.titleAt (σ i) = dialog.titleAt i := by
  unfold Dialog.titleAt
  rw [h.node]
  cases dialog.nodes[i]? <;> rfl

end Dialog.Rearranged

/-- A dialog as it is. -/
theorem rearranged_self (dialog : Dialog) : dialog.Rearranged id dialog where
  id_eq := rfl
  injective := Function.injective_id
  node i := by
    have hself : (Node.reindex fun _ j => id j : Node Nat → Node Nat) = id :=
      funext fun node => Dialog.reindex_eq_self fun _ _ => rfl
    rw [hself, Option.map_id]
    rfl
  indexOf title := by
    rw [Option.map_id]
    rfl

/-- A world as it is. -/
theorem World.mirrors_self (world : World ω) : world.Mirrors Eq world where
  get h := congrArg world.get h.symm
  set name value h := congrArg (world.set name value) h
  publish notice h := congrArg (world.publish notice) h
  report entry h := congrArg (world.report entry) h

/-- Handlers as they are. -/
theorem Registry.mirrors_self (registry : Registry ω η ε) : registry.Mirrors Eq registry := by
  intro name
  cases registry.get? name with
  | none => exact .none
  | some handler =>
    refine .some fun arguments host heq => ?_
    cases heq
    exact ⟨rfl, rfl⟩

@[simp] theorem Runner.moved_id (runner : Runner) : runner.moved id = runner := by
  have hplaces : runner.used.map (Place.moved id) = runner.used := List.map_id _
  rw [Runner.moved, hplaces]
  rfl

theorem Runner.map_moved_id {φ : Type} (made : Except φ Runner) : made.map (Runner.moved id) = made := by
  cases made with
  | error fault => rfl
  | ok runner => exact congrArg Except.ok runner.moved_id

theorem Place.moved_injective (h : Function.Injective σ) : Function.Injective (Place.moved σ) := by
  intro a b hab
  cases a
  cases b
  simp only [Place.moved, Place.mk.injEq] at hab ⊢
  exact ⟨h hab.1, hab.2⟩

theorem Registry.Mirrors.contains {registry : Registry ω η ε} {other : Registry ω' η ε}
    (h : registry.Mirrors R other) (name : String) : other.contains name = registry.contains name := by
  rw [← Table.isSome_get?, ← Table.isSome_get?]
  have hname := h name
  generalize registry.get? name = found, other.get? name = found' at hname
  cases hname <;> rfl

theorem Registry.Mirrors.missing {registry : Registry ω η ε} {other : Registry ω' η ε}
    (h : registry.Mirrors R other) (names : List String) : other.missing names = registry.missing names := by
  unfold Registry.missing
  simp only [h.contains]

/-! ### One line -/

namespace Setting.Mirrors

variable {setting : Setting ω η ε} {other : Setting ω' η ε} {host : η} {runner : Runner} {w : ω} {w' : ω'}

theorem titleAt (h : setting.Mirrors σ R other) (runner : Runner) :
    other.dialog.titleAt (runner.moved σ).node = setting.dialog.titleAt runner.node := h.dialog.titleAt _

theorem enter (h : setting.Mirrors σ R other) (hw : R w w') (node : Nat) (runner : Runner) :
    (other.enter (σ node) (runner.moved σ) w').1 = (setting.enter node runner w).1.moved σ ∧
      R (setting.enter node runner w).2 (other.enter (σ node) (runner.moved σ) w').2 := by
  refine ⟨rfl, ?_⟩
  show R (setting.world.publish _ w) (other.world.publish _ w')
  rw [h.dialog.titleAt]
  exact h.world.publish _ hw

theorem moveOn (h : setting.Mirrors σ R other) (hw : R w w') (lines : Nat) (event : Option Event) (runner : Runner) :
    (setting.moveOn lines event runner w).Mirrors σ R (other.moveOn lines event (runner.moved σ) w') := by
  unfold Setting.moveOn
  by_cases more : runner.line + 1 < lines
  · have more' : (runner.moved σ).line + 1 < lines := more
    rw [if_pos more, if_pos more']
    cases event <;> exact ⟨rfl, rfl, hw⟩
  · have more' : ¬(runner.moved σ).line + 1 < lines := more
    rw [if_neg more, if_neg more', h.titleAt]
    exact ⟨rfl, rfl, h.world.publish _ hw⟩

/-- The same is offered: a choice has been made in the one exactly if its image has been made in the other. -/
theorem offersFrom (h : setting.Mirrors σ R other) (hw : R w w') (runner : Runner) (position : Nat)
    (choices : List (Choice Nat)) :
    other.offersFrom (runner.moved σ) w' position (choices.map (Choice.reindex fun _ j => σ j)) =
      setting.offersFrom runner w position choices := by
  induction choices generalizing position with
  | nil => rfl
  | cons choice rest ih =>
    have hused : (⟨σ runner.node, runner.line, position⟩ : Place) ∈ runner.used.map (Place.moved σ) ↔
        (⟨runner.node, runner.line, position⟩ : Place) ∈ runner.used :=
      List.mem_map_of_injective (Place.moved_injective h.dialog.injective) (a := ⟨runner.node, runner.line, position⟩)
    have hoffer : other.offer? (runner.moved σ) w' position (choice.reindex fun _ j => σ j) =
        setting.offer? runner w position choice := by
      unfold Setting.offer?
      rw [h.world.get hw]
      simp only [Choice.reindex, Runner.moved, hused]
    rw [List.map_cons, Setting.offersFrom, Setting.offersFrom, hoffer, ih]

theorem present (h : setting.Mirrors σ R other) (hw : R w w') (menu : Menu Nat) (runner : Runner) :
    (setting.present menu runner w).Mirrors σ R
      (other.present (menu.reindex fun _ j => σ j) (runner.moved σ) w') := by
  have hoffers : other.offers (runner.moved σ) w' (menu.reindex fun _ j => σ j) = setting.offers runner w menu :=
    h.offersFrom hw runner 0 menu.choices
  unfold Setting.present
  rw [hoffers, h.titleAt, h.dialog.id_eq]
  refine ⟨rfl, rfl, h.world.publish _ ?_⟩
  split
  · exact h.world.report _ hw
  · exact hw

theorem runCommand (h : setting.Mirrors σ R other) (hw : R w w') (lines : Nat) (name : String)
    (arguments : List String) (host : η) (runner : Runner) :
    (setting.runCommand lines name arguments host runner w).Mirrors σ R
      (other.runCommand lines name arguments host (runner.moved σ) w') := by
  unfold Setting.runCommand
  have hname := h.commands name
  generalize setting.commands.get? name = found, other.commands.get? name = found' at hname
  cases hname with
  | none =>
    refine ⟨rfl, rfl, ?_⟩
    unfold unregisteredReport
    rw [h.titleAt, h.dialog.id_eq]
    exact h.world.report _ hw
  | @some handler handler' hhandler =>
    obtain ⟨hworld, hfault⟩ := hhandler arguments host hw
    dsimp only
    cases hcall : handler arguments host w with
    | mk left fault =>
      cases hcall' : handler' arguments host w' with
      | mk left' fault' =>
        rw [hcall, hcall'] at hworld hfault
        cases hfault
        cases fault with
        | some fault => exact ⟨rfl, rfl, hworld⟩
        | none => exact h.moveOn (h.world.publish _ hworld) lines none runner

theorem advance (h : setting.Mirrors σ R other) (hw : R w w') (host : η) (runner : Runner) :
    (setting.advance host runner w).Mirrors σ R (other.advance host (runner.moved σ) w') := by
  unfold Setting.advance
  rw [show other.dialog.nodes[(runner.moved σ).node]? = _ from h.dialog.node runner.node]
  cases setting.dialog.nodes[runner.node]? with
  | none => exact ⟨rfl, rfl, hw⟩
  | some node =>
    have hline : (node.reindex fun _ j => σ j).lines[(runner.moved σ).line]? =
        (node.lines[runner.line]?).map (Line.reindex fun _ j => σ j) := List.getElem?_map
    have hlength : (node.reindex fun _ j => σ j).lines.length = node.lines.length := List.length_map _
    simp only [Option.map_some, hline, hlength]
    cases node.lines[runner.line]? with
    | none => exact ⟨rfl, rfl, hw⟩
    | some line =>
      cases line with
      | assign name value => exact h.moveOn (h.world.publish _ (h.world.set name value hw)) _ none runner
      | command name arguments => exact h.runCommand hw _ name arguments host runner
      | say speaker text tags => exact h.moveOn hw _ _ runner
      | jump target index =>
        obtain ⟨hrunner, hworld⟩ := h.enter hw index runner
        exact ⟨rfl, hrunner, hworld⟩
      | offer menu => exact h.present hw menu runner

/-! ### Requests -/

theorem run (h : setting.Mirrors σ R other) (hw : R w w') (host : η) (fuel : Nat) (runner : Runner) :
    (setting.run host fuel runner w).Mirrors σ R (other.run host fuel (runner.moved σ) w') := by
  induction fuel generalizing runner w w' with
  | zero =>
    unfold Setting.run
    rw [h.limit, h.titleAt]
    exact ⟨rfl, rfl, hw⟩
  | succ fuel ih =>
    obtain ⟨hresult, hrunner, hworld⟩ := h.advance hw host runner
    unfold Setting.run
    cases hafter : setting.advance host runner w with
    | mk result landed left =>
      cases hafter' : other.advance host (runner.moved σ) w' with
      | mk result' landed' left' =>
        rw [hafter, hafter'] at hresult hrunner hworld
        cases hresult
        cases hrunner
        cases result with
        | none => exact ih hworld landed
        | some result => exact ⟨rfl, rfl, hworld⟩

theorem next (h : setting.Mirrors σ R other) (hw : R w w') (host : η) (runner : Runner) :
    (setting.next host runner w).Mirrors σ R (other.next host (runner.moved σ) w') := by
  unfold Setting.next
  rw [show (runner.moved σ).phase = runner.phase from rfl, h.limit]
  cases runner.phase with
  | waiting => exact ⟨rfl, rfl, hw⟩
  | ended => exact ⟨rfl, rfl, hw⟩
  | start => exact h.run hw host _ runner
  | talking => exact h.run hw host _ runner

theorem choiceAt? (h : setting.Mirrors σ R other) (runner : Runner) (position : Nat) :
    other.choiceAt? (runner.moved σ) position =
      (setting.choiceAt? runner position).map (Choice.reindex fun _ j => σ j) := by
  unfold Setting.choiceAt?
  rw [show other.dialog.nodes[(runner.moved σ).node]? = _ from h.dialog.node runner.node]
  cases setting.dialog.nodes[runner.node]? with
  | none => rfl
  | some node =>
    have hline : (node.reindex fun _ j => σ j).lines[(runner.moved σ).line]? =
        (node.lines[runner.line]?).map (Line.reindex fun _ j => σ j) := List.getElem?_map
    simp only [Option.map_some, Option.bind_eq_bind, Option.bind_some, hline]
    cases node.lines[runner.line]? with
    | none => rfl
    | some line =>
      cases line with
      | offer menu => exact List.getElem?_map
      | _ => rfl

/-- The image of a choice is marked as made. -/
theorem mark (h : setting.Mirrors σ R other) (runner : Runner) (position : Nat) :
    Setting.mark (runner.moved σ) position = (Setting.mark runner position).moved σ := by
  have hused : (runner.used.map (Place.moved σ)).insert (Place.moved σ ⟨runner.node, runner.line, position⟩) =
      (runner.used.insert ⟨runner.node, runner.line, position⟩).map (Place.moved σ) := by
    have hmem := List.mem_map_of_injective (Place.moved_injective h.dialog.injective) (l := runner.used)
      (a := ⟨runner.node, runner.line, position⟩)
    by_cases hmade : (⟨runner.node, runner.line, position⟩ : Place) ∈ runner.used
    · rw [List.insert_of_mem hmade, List.insert_of_mem (hmem.mpr hmade)]
    · rw [List.insert_of_not_mem hmade, List.insert_of_not_mem (mt hmem.mp hmade), List.map_cons]
  exact congrArg (fun used => ({ runner with node := σ runner.node, used } : Runner)) hused

theorem choose (h : setting.Mirrors σ R other) (hw : R w w') (title : String) (runner : Runner) :
    (setting.choose title runner w).Mirrors σ R (other.choose title (runner.moved σ) w') := by
  unfold Setting.choose
  by_cases waiting : runner.phase = .waiting
  · have waiting' : (runner.moved σ).phase = .waiting := waiting
    rw [if_pos waiting, if_pos waiting', show (runner.moved σ).offers = runner.offers from rfl]
    cases runner.offers.find? (·.2.target = title) with
    | none => exact ⟨rfl, rfl, hw⟩
    | some offer =>
      dsimp only
      rw [h.choiceAt?]
      cases setting.choiceAt? runner offer.1 with
      | none => exact ⟨rfl, rfl, hw⟩
      | some choice =>
        rw [Option.map_some, h.titleAt, h.mark]
        obtain ⟨hrunner, hworld⟩ := h.enter (h.world.publish _ hw) choice.index (Setting.mark runner offer.1)
        exact ⟨rfl, hrunner, hworld⟩
  · have waiting' : ¬(runner.moved σ).phase = .waiting := waiting
    rw [if_neg waiting, if_neg waiting']
    exact ⟨rfl, rfl, hw⟩

theorem reset (h : setting.Mirrors σ R other) (hw : R w w') (title : String) (runner : Runner) :
    (setting.reset title runner w).Mirrors σ R (other.reset title (runner.moved σ) w') := by
  unfold Setting.reset
  rw [h.dialog.indexOf]
  cases setting.dialog.indexOf? title with
  | none => exact ⟨rfl, rfl, hw⟩
  | some node =>
    obtain ⟨hrunner, hworld⟩ := h.enter hw node runner
    exact ⟨rfl, hrunner, hworld⟩

theorem meet (h : setting.Mirrors σ R other) (hw : R w w') (request : Request η) (runner : Runner) :
    (setting.meet runner w request).Mirrors σ R (other.meet (runner.moved σ) w' request) := by
  cases request with
  | next host =>
    obtain ⟨hresult, hrunner, hworld⟩ := h.next hw host runner
    exact ⟨congrArg (Except.map some) hresult, hrunner, hworld⟩
  | choose title =>
    obtain ⟨hresult, hrunner, hworld⟩ := h.choose hw title runner
    exact ⟨congrArg (Except.map fun _ => none) hresult, hrunner, hworld⟩
  | reset title =>
    obtain ⟨hresult, hrunner, hworld⟩ := h.reset hw title runner
    exact ⟨congrArg (Except.map fun _ => none) hresult, hrunner, hworld⟩

/-! ### What is seen -/

theorem isUsed (h : setting.Mirrors σ R other) (runner : Runner) (title : String) (line position : Int) :
    other.isUsed (runner.moved σ) title line position = setting.isUsed runner title line position := by
  unfold Setting.isUsed
  rw [h.dialog.indexOf]
  cases setting.dialog.indexOf? title with
  | none => rfl
  | some node =>
    simp only [Option.map_some, Runner.moved, List.any_map]
    refine congrArg runner.used.any (funext fun place => ?_)
    simp only [Function.comp_apply, Place.moved, h.dialog.injective.eq_iff]

/-- A runner shows of itself what its mirror image shows. -/
theorem view (h : setting.Mirrors σ R other) (runner : Runner) :
    other.view (runner.moved σ) = setting.view runner := by
  have hused : other.isUsed (runner.moved σ) = setting.isUsed runner :=
    funext fun title => funext fun line => funext fun position => h.isUsed runner title line position
  unfold Setting.view
  rw [h.titleAt, hused]
  rfl

/-- A new runner is made where its mirror image is made, and is refused for the same fault. Worlds that are alike are
left alike. -/
theorem create (h : setting.Mirrors σ R other) (hw : R w w')
    (names : other.dialog.commandNames = setting.dialog.commandNames) (check : Bool) (title : String) :
    (other.create check title w').1 = (setting.create check title w).1.map (Runner.moved σ) ∧
      R (setting.create check title w).2 (other.create check title w').2 := by
  unfold Setting.create
  rw [h.dialog.indexOf, h.commands.missing]
  cases setting.dialog.indexOf? title with
  | none => exact ⟨rfl, hw⟩
  | some node =>
    cases check with
    | false => exact ⟨rfl, h.world.publish _ hw⟩
    | true =>
      rw [names]
      simp only [Option.map_some]
      split
      · exact ⟨rfl, hw⟩
      · exact ⟨rfl, h.world.publish _ hw⟩

end Setting.Mirrors

/-! ### Courses -/

section

variable {dialog dialog' : Dialog} {w : ω} {w' : ω'}

theorem Turn.Mirrors.take {turn : Turn ω η ε} {other : Turn ω' η ε} (h : turn.Mirrors σ R dialog dialog' other)
    (hw : R w w') (runner : Runner) :
    (turn.take dialog runner w).Mirrors σ R (other.take dialog' (runner.moved σ) w') := by
  unfold Turn.take
  rw [h.request]
  exact h.setting.meet (h.prepare hw) turn.request runner

/-- Turns that mirror one another leave a runner and its mirror image. -/
theorem mirrors_course {turns : List (Turn ω η ε)} {others : List (Turn ω' η ε)}
    (h : List.Forall₂ (Turn.Mirrors σ R dialog dialog') turns others) (hw : R w w') (runner : Runner) :
    (course dialog' others (runner.moved σ) w').1 = (course dialog turns runner w).1.moved σ ∧
      R (course dialog turns runner w).2 (course dialog' others (runner.moved σ) w').2 := by
  induction h generalizing runner w w' with
  | nil => exact ⟨rfl, hw⟩
  | @cons turn other turns others first rest ih =>
    obtain ⟨-, hrunner, hworld⟩ := first.take hw runner
    unfold course
    dsimp only
    rw [hrunner]
    exact ih hworld _

/-- What is seen of turns is seen of turns that mirror them. -/
theorem mirrors_sights {turns : List (Turn ω η ε)} {others : List (Turn ω' η ε)}
    (h : List.Forall₂ (Turn.Mirrors σ R dialog dialog') turns others) (hw : R w w') (runner : Runner) :
    List.Forall₂ (Seen.Mirrors R) (sights dialog turns runner w)
      (sights dialog' others (runner.moved σ) w') := by
  induction h generalizing runner w w' with
  | nil => exact .nil
  | @cons turn other turns others first rest ih =>
    obtain ⟨hresult, hrunner, hworld⟩ := first.take hw runner
    unfold sights
    dsimp only
    rw [hrunner]
    exact .cons ⟨hresult, first.setting.view _, hworld⟩ (ih hworld _)

end

/-- What is seen of a runner, from when it is made, is seen of its mirror image. -/
theorem Setting.Mirrors.play {setting : Setting ω η ε} {other : Setting ω' η ε} {turns : List (Turn ω η ε)}
    {others : List (Turn ω' η ε)} {w : ω} {w' : ω'} (h : setting.Mirrors σ R other)
    (hturns : List.Forall₂ (Turn.Mirrors σ R setting.dialog other.dialog) turns others) (hw : R w w')
    (names : other.dialog.commandNames = setting.dialog.commandNames) (check : Bool) (title : String) :
    ((∃ seen seen', (setting.play check title w turns).1 = .ok seen ∧
        (other.play check title w' others).1 = .ok seen' ∧ List.Forall₂ (Seen.Mirrors R) seen seen') ∨
      ∃ fault, (setting.play check title w turns).1 = .error fault ∧
        (other.play check title w' others).1 = .error fault) ∧
    R (setting.play check title w turns).2 (other.play check title w' others).2 := by
  obtain ⟨hmade, hleft⟩ := h.create hw names check title
  unfold Setting.play
  generalize setting.create check title w = outcome at hmade hleft ⊢
  generalize other.create check title w' = outcome' at hmade hleft ⊢
  obtain ⟨made, left⟩ := outcome
  obtain ⟨made', left'⟩ := outcome'
  cases hmade
  cases made with
  | error fault => exact ⟨.inr ⟨fault, rfl, rfl⟩, hleft⟩
  | ok created =>
    exact ⟨.inl ⟨_, _, rfl, rfl, .cons ⟨rfl, h.view created, hleft⟩ (mirrors_sights hturns hleft created)⟩, hleft⟩

end Parley

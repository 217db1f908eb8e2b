import Parley.Proofs.Bus.Reentrant
import Parley.Proofs.Play.Noting
import Parley.Proofs.Results

/-! Observers.

A dialog may be played with a bus beside its world, to which everything is published that the runner tells. The
listeners there do what they like to the bus: they come and go, publish, consume and fail. Of that nothing comes back
to the runner but what a publication raises, and it raises only for want of room. A turn does with observers what it
does without, and its notices come to the bus one after the other (`Showing.watched_take`). So what is seen is the same
with observers and without, up to the first turn in which a publication raises; and none does exactly if there is room
for what listeners publish (`play_watched_iff`). -/
namespace Parley

variable {ω η ε κ α μ : Type}

/-- Listeners, and what a notice comes to them as. -/
structure Gallery (κ α μ : Type) where
  audience : Audience κ α μ
  data : Notice → α

/-- A bus that is published to, and whether a publication has raised. -/
structure Stand (κ α μ : Type) where
  desk : Desk κ α μ
  raised : Bool

/-- The bus is changed by others. -/
def Stand.arranged (arrange : Desk κ α μ → Desk κ α μ) (stand : Stand κ α μ) : Stand κ α μ :=
  { stand with desk := arrange stand.desk }

/-! ### Without observers -/

def World.silent (world : World ω) : World ω := { world with publish := fun _ w => w }

def Setting.silent (setting : Setting ω η ε) : Setting ω η ε := { setting with world := setting.world.silent }

def Turn.silent (turn : Turn ω η ε) : Turn ω η ε := { turn with world := turn.world.silent }

/-! ### With observers -/

/-- A turn, before which the bus may be changed. -/
structure Showing (ω η ε κ α μ : Type) where
  turn : Turn ω η ε
  arrange : Desk κ α μ → Desk κ α μ
  /-- Whoever changes the bus leaves no delivery under way. -/
  rests : ∀ {desk}, desk.Rests → (arrange desk).Rests

/-- What is seen, without the bus. -/
def Seen.bare (seen : Seen (ω × Stand κ α μ) ε) : Seen ω ε := ⟨seen.result, seen.view, seen.world.1⟩

/-- What is seen of turns up to the first in which a publication raises. Of that turn nothing is given, for what is
raised leaves it from within. -/
def untilRaised : List (Seen (ω × Stand κ α μ) ε) → List (Option (Seen ω ε))
  | [] => []
  | seen :: rest => if seen.world.2.raised then [none] else some seen.bare :: untilRaised rest

/-- A command does what it does, and leaves the bus alone. -/
def Handler.watched (handler : Handler ω η ε) : Handler (ω × Stand κ α μ) η ε :=
  fun arguments host watched =>
    (((handler arguments host watched.1).1, watched.2), (handler arguments host watched.1).2)

def Registry.watched (registry : Registry ω η ε) : Registry (ω × Stand κ α μ) η ε :=
  registry.map Handler.watched

section

variable [DecidableEq κ] (gallery : Gallery κ α μ) (room : Nat)

/-- A notice as a signal. -/
def Gallery.signal (notice : Notice) : Signal α := ⟨notice.topic, gallery.data notice⟩

/-- A notice is published, with room for so many deliveries within the first; after a publication that raises there is
no other. -/
def Gallery.tell (notice : Notice) (stand : Stand κ α μ) : Stand κ α μ :=
  if stand.raised then stand
  else (Desk.publish gallery.audience room (gallery.signal notice) stand.desk).elim stand
    fun (desk, answer) => ⟨desk, answer.isNone⟩

/-- Notices are published, one after the other. -/
def Gallery.tellAll (notices : List Notice) (stand : Stand κ α μ) : Stand κ α μ :=
  notices.foldl (fun stand notice => gallery.tell room notice stand) stand

/-- The world with a bus beside it, to which everything is published. -/
def World.watched (world : World ω) : World (ω × Stand κ α μ) where
  get watched := world.get watched.1
  set name value watched := (world.set name value watched.1, watched.2)
  publish notice watched := (watched.1, gallery.tell room notice watched.2)
  report entry watched := (world.report entry watched.1, watched.2)

def Setting.watched (setting : Setting ω η ε) : Setting (ω × Stand κ α μ) η ε :=
  ⟨setting.dialog, setting.limit, setting.world.watched gallery room, setting.commands.watched⟩

/-- A turn with observers. -/
def Showing.watched (showing : Showing ω η ε κ α μ) : Turn (ω × Stand κ α μ) η ε where
  prepare watched := (showing.turn.prepare watched.1, watched.2.arranged showing.arrange)
  limit := showing.turn.limit
  world := showing.turn.world.watched gallery room
  commands := showing.turn.commands.watched
  request := showing.turn.request

/-- What is seen of a runner with observers, from when it is made, or why it is not made; and the world when it has been
made or refused. -/
def Setting.playWatched (setting : Setting ω η ε) (check : Bool) (title : String) (w : ω) (desk : Desk κ α μ)
    (showings : List (Showing ω η ε κ α μ)) : Except (PlayFault ε) (List (Option (Seen ω ε))) × ω :=
  let played := (setting.watched gallery room).play check title (w, ⟨desk, false⟩)
    (showings.map (Showing.watched gallery room))
  (played.1.map untilRaised, played.2.1)

/-! ### Room for what listeners publish -/

/-- What is told at one time, before which the bus may be changed. -/
structure Telling (κ α μ : Type) where
  arrange : Desk κ α μ → Desk κ α μ
  notices : List Notice

/-- What turns tell, without observers. -/
def tellings (dialog : Dialog) : List (Showing ω η ε κ α μ) → Runner → ω → List (Telling κ α μ)
  | [], _, _ => []
  | showing :: rest, runner, w =>
    let after := showing.turn.silent.take dialog runner w
    ⟨showing.arrange, showing.turn.silent.told dialog runner w⟩ :: tellings dialog rest after.runner after.world

/-- What is told from when a runner is made or refused. -/
def Setting.tellings (setting : Setting ω η ε) (check : Bool) (title : String) (w : ω)
    (showings : List (Showing ω η ε κ α μ)) : List (Telling κ α μ) :=
  ⟨id, setting.silent.announced check title w⟩ ::
    match setting.silent.create check title w with
    | (.ok created, w) => Parley.tellings setting.dialog showings created w
    | (.error _, _) => []

/-- The bus after notices, if there is room for what listeners publish. -/
def Gallery.heard (notices : List Notice) (desk : Desk κ α μ) : Desk κ α μ :=
  notices.foldl (fun desk notice => desk.looped gallery.audience room (gallery.signal notice)) desk

/-- Whether listeners publish so many signals that there is room for when a notice comes to a bus. -/
def Gallery.Spares (notice : Notice) (desk : Desk κ α μ) : Prop :=
  ∃ count, count ≤ room ∧ Bus.Posts gallery.audience desk.bus desk.memory (gallery.signal notice) count

/-- Whether there is room for what listeners publish at each of the notices that come to a bus. -/
def Gallery.SparesAll : List Notice → Desk κ α μ → Prop
  | [], _ => True
  | notice :: rest, desk =>
    gallery.Spares room notice desk ∧
      SparesAll rest (desk.looped gallery.audience room (gallery.signal notice))

/-- Whether there is room for what listeners publish at all that is told. -/
def Gallery.Suffices : List (Telling κ α μ) → Desk κ α μ → Prop
  | [], _ => True
  | telling :: rest, desk =>
    gallery.SparesAll room telling.notices (telling.arrange desk) ∧
      Suffices rest (gallery.heard room telling.notices (telling.arrange desk))

end

theorem Registry.get?_watched (registry : Registry ω η ε) (name : String) :
    (registry.watched : Registry (ω × Stand κ α μ) η ε).get? name = (registry.get? name).map Handler.watched :=
  Table.get?_map _ _ _

/-! ### Notices, one after the other -/

section

variable [DecidableEq κ] (gallery : Gallery κ α μ) (room : Nat)

theorem Gallery.tellAll_concat (stand : Stand κ α μ) (notices : List Notice) (notice : Notice) :
    gallery.tellAll room (notices ++ [notice]) stand =
      gallery.tell room notice (gallery.tellAll room notices stand) := List.foldl_append

theorem Gallery.tellAll_of_raised (notices : List Notice) {stand : Stand κ α μ} (raised : stand.raised = true) :
    gallery.tellAll room notices stand = stand := by
  induction notices with
  | nil => rfl
  | cons notice rest ih =>
    have htell : gallery.tell room notice stand = stand := if_pos raised
    show gallery.tellAll room rest (gallery.tell room notice stand) = stand
    rw [htell, ih]

variable {gallery room} {desk : Desk κ α μ} {notice : Notice} {notices : List Notice}

/-- With room for what listeners publish, a publication returns. -/
theorem Gallery.Spares.tell (spares : gallery.Spares room notice desk) (rests : desk.Rests) :
    gallery.tell room notice ⟨desk, false⟩ = ⟨desk.looped gallery.audience room (gallery.signal notice), false⟩ ∧
      (desk.looped gallery.audience room (gallery.signal notice)).Rests := by
  obtain ⟨count, hcount, posts⟩ := spares
  obtain ⟨consumed, inOrder⟩ := Desk.inOrder_of_le rests posts hcount
  have hpublish := Desk.publish_eq gallery.audience room (gallery.signal notice) rests.mark
  have hlooped : desk.looped gallery.audience room (gallery.signal notice) =
      desk.looped gallery.audience count (gallery.signal notice) :=
    congrArg Prod.fst (Option.some.inj (hpublish.symm.trans inOrder.returns))
  rw [hlooped]
  refine ⟨?_, inOrder.rests⟩
  show (Desk.publish gallery.audience room (gallery.signal notice) desk).elim _ _ = _
  rw [inOrder.returns]
  rfl

/-- Without, it raises. -/
theorem Gallery.raised_tell (rests : desk.Rests) (h : ¬gallery.Spares room notice desk) :
    (gallery.tell room notice ⟨desk, false⟩).raised = true := by
  have hpublish := Desk.publish_eq gallery.audience room (gallery.signal notice) rests.mark
  have hanswer : (desk.bus.publish gallery.audience room desk.memory (gallery.signal notice)).2.2 = none := by
    refine Option.eq_none_iff_forall_ne_some.mpr fun consumed hconsumed => h ?_
    rw [hconsumed] at hpublish
    exact (Desk.returns_iff rests).mp ⟨_, consumed, hpublish⟩
  show Stand.raised ((Desk.publish gallery.audience room (gallery.signal notice) desk).elim _ _) = true
  rw [hpublish, hanswer]
  rfl

theorem Gallery.SparesAll.tellAll (spares : gallery.SparesAll room notices desk) (rests : desk.Rests) :
    gallery.tellAll room notices ⟨desk, false⟩ = ⟨gallery.heard room notices desk, false⟩ ∧
      (gallery.heard room notices desk).Rests := by
  induction notices generalizing desk with
  | nil => exact ⟨rfl, rests⟩
  | cons notice rest ih =>
    obtain ⟨hfirst, hrest⟩ := spares
    obtain ⟨htell, hrests⟩ := hfirst.tell rests
    show gallery.tellAll room rest (gallery.tell room notice ⟨desk, false⟩) = _ ∧ _
    rw [htell]
    exact ih hrest hrests

theorem Gallery.raised_tellAll (rests : desk.Rests) (h : ¬gallery.SparesAll room notices desk) :
    (gallery.tellAll room notices ⟨desk, false⟩).raised = true := by
  induction notices generalizing desk with
  | nil => exact absurd trivial h
  | cons notice rest ih =>
    show (gallery.tellAll room rest (gallery.tell room notice ⟨desk, false⟩)).raised = true
    by_cases hfirst : gallery.Spares room notice desk
    · obtain ⟨htell, hrests⟩ := hfirst.tell rests
      rw [htell]
      exact ih hrests fun hrest => h ⟨hfirst, hrest⟩
    · have hraised := raised_tell rests hfirst
      rwa [gallery.tellAll_of_raised room rest hraised]

end

section

variable [DecidableEq κ]

/-! ### One turn -/

/-- What has been noted, and a bus to which it has been published. -/
def Told (gallery : Gallery κ α μ) (room : Nat) (stand : Stand κ α μ) (noted : ω × List Notice)
    (watched : ω × Stand κ α μ) : Prop :=
  watched = (noted.1, gallery.tellAll room noted.2 stand)

variable (gallery) (room : Nat) (stand : Stand κ α μ)

theorem World.mirrors_watched (world : World ω) :
    world.silent.noting.Mirrors (Told gallery room stand) (world.watched gallery room) where
  get h := by
    cases h
    rfl
  set name value h := by
    cases h
    rfl
  publish {noted _} notice h := by
    cases h
    exact congrArg (Prod.mk noted.1) (gallery.tellAll_concat room stand noted.2 notice).symm
  report entry h := by
    cases h
    rfl

theorem Registry.mirrors_watched (registry : Registry ω η ε) :
    registry.noting.Mirrors (Told gallery room stand) registry.watched := by
  intro name
  rw [registry.get?_noting, registry.get?_watched]
  cases registry.get? name with
  | none => exact .none
  | some handler =>
    refine .some fun arguments host h => ?_
    cases h
    exact ⟨rfl, rfl⟩

theorem Setting.mirrors_watched (setting : Setting ω η ε) :
    setting.silent.noting.Mirrors id (Told gallery room stand) (setting.watched gallery room) where
  dialog := rearranged_self setting.dialog
  limit := rfl
  world := setting.world.mirrors_watched gallery room stand
  commands := setting.commands.mirrors_watched gallery room stand

/-- Observers change nothing for a turn, and what it tells comes to their bus. -/
theorem Showing.watched_take (showing : Showing ω η ε κ α μ) (dialog : Dialog) (runner : Runner) (w : ω) :
    let after := showing.turn.silent.take dialog runner w
    (showing.watched gallery room).take dialog runner (w, stand) =
      ⟨after.result, after.runner, (after.world,
        gallery.tellAll room (showing.turn.silent.told dialog runner w) (stand.arranged showing.arrange))⟩ := by
  intro after
  have hbare : (showing.turn.silent.noting.take dialog runner (w, [])).bare = after :=
    showing.turn.silent.bare_take dialog runner (w, [])
  have hprepared : Told gallery room (stand.arranged showing.arrange) (showing.turn.prepare w, [])
      (showing.turn.prepare w, stand.arranged showing.arrange) := rfl
  obtain ⟨hresult, hrunner, hworld⟩ := ((showing.turn.setting dialog).mirrors_watched gallery room _).meet hprepared
    showing.turn.request runner
  rw [Runner.moved_id] at hresult hrunner hworld
  rw [Runner.moved_id] at hrunner
  rw [← hbare]
  show (⟨_, _, _⟩ : After _ _) = _
  exact congr (congr (congrArg After.mk hresult) hrunner) hworld

/-! ### Turns, one after the other -/

/-- A runner is made or refused as it is without observers, and what is told then comes to their bus. -/
theorem Setting.create_watched (setting : Setting ω η ε) (check : Bool) (title : String) (w : ω) :
    (setting.watched gallery room).create check title (w, stand) =
      ((setting.silent.create check title w).1, ((setting.silent.create check title w).2,
        gallery.tellAll room (setting.silent.announced check title w) stand)) := by
  have hwatched : Told gallery room stand (w, []) (w, stand) := rfl
  obtain ⟨hmade, hworld⟩ := (setting.mirrors_watched gallery room stand).create hwatched rfl check title
  rw [Runner.map_moved_id, setting.silent.create_noting] at hmade
  rw [setting.silent.create_noting] at hworld
  exact Prod.ext hmade hworld

end

section

variable [DecidableEq κ] {gallery : Gallery κ α μ} {room : Nat} {dialog : Dialog} {desk : Desk κ α μ}
  {showings : List (Showing ω η ε κ α μ)} {runner : Runner} {w : ω}

/-- With room for what listeners publish, all is seen that is seen without them. -/
theorem untilRaised_of_suffices (enough : gallery.Suffices room (tellings dialog showings runner w) desk)
    (rests : desk.Rests) :
    untilRaised (sights dialog (showings.map (Showing.watched gallery room)) runner (w, ⟨desk, false⟩)) =
      (sights dialog (showings.map fun showing => showing.turn.silent) runner w).map some := by
  induction showings generalizing runner w desk with
  | nil => rfl
  | cons showing rest ih =>
    obtain ⟨hspares, hsuffices⟩ := enough
    obtain ⟨htell, hrests⟩ := hspares.tellAll (showing.rests rests)
    simp only [List.map_cons, sights, showing.watched_take gallery room ⟨desk, false⟩ dialog runner w,
      Stand.arranged, htell, untilRaised]
    exact congrArg (List.cons _) (ih hsuffices hrests)

/-- Without, it is seen up to a turn in which a publication raises. -/
theorem untilRaised_of_not_suffices (h : ¬gallery.Suffices room (tellings dialog showings runner w) desk)
    (rests : desk.Rests) :
    let seen := sights dialog (showings.map fun showing => showing.turn.silent) runner w
    ∃ count, count < seen.length ∧
      untilRaised (sights dialog (showings.map (Showing.watched gallery room)) runner (w, ⟨desk, false⟩)) =
        (seen.take count).map some ++ [none] := by
  induction showings generalizing runner w desk with
  | nil => exact absurd trivial h
  | cons showing rest ih =>
    let told := showing.turn.silent.told dialog runner w
    simp only [List.map_cons, sights, showing.watched_take gallery room ⟨desk, false⟩ dialog runner w,
      Stand.arranged, untilRaised]
    by_cases hspares : gallery.SparesAll room told (showing.arrange desk)
    · obtain ⟨htell, hrests⟩ := hspares.tellAll (showing.rests rests)
      obtain ⟨count, hcount, hseen⟩ := ih (fun hsuffices => h ⟨hspares, hsuffices⟩) hrests
      refine ⟨count + 1, Nat.succ_lt_succ hcount, ?_⟩
      rw [htell]
      exact congrArg (List.cons _) hseen
    · refine ⟨0, Nat.succ_pos _, ?_⟩
      exact if_pos (Gallery.raised_tellAll (showing.rests rests) hspares)

/-- With observers a runner is seen as without them if there is room for all that listeners publish. -/
theorem Setting.playWatched_of_suffices {setting : Setting ω η ε} {check : Bool} {title : String}
    (enough : gallery.Suffices room (setting.tellings check title w showings) desk) (rests : desk.Rests) :
    let played := setting.silent.play check title w (showings.map fun showing => showing.turn.silent)
    setting.playWatched gallery room check title w desk showings = (played.1.map (List.map some), played.2) := by
  obtain ⟨hmade, hlater⟩ := enough
  have hspares : gallery.SparesAll room (setting.silent.announced check title w) desk := hmade
  obtain ⟨htell, hrests⟩ := hspares.tellAll rests
  unfold playWatched play
  rw [create_watched, htell]
  rcases hcreate : setting.silent.create check title w with ⟨fault | created, left⟩
  · rfl
  · have henough : gallery.Suffices room (Parley.tellings setting.dialog showings created left)
        (gallery.heard room (setting.silent.announced check title w) desk) := by
      rwa [hcreate] at hlater
    have hseen := untilRaised_of_suffices henough hrests
    exact congrArg (fun seen => (Except.ok (_ :: seen), left)) hseen

/-- Else a publication raises, and what is seen before is the same. -/
theorem Setting.playWatched_of_not_suffices {setting : Setting ω η ε} {check : Bool} {title : String}
    (h : ¬gallery.Suffices room (setting.tellings check title w showings) desk) (rests : desk.Rests) :
    ∃ seen left count, setting.silent.play check title w (showings.map fun showing => showing.turn.silent) =
        (.ok seen, left) ∧ count < seen.length ∧
      setting.playWatched gallery room check title w desk showings =
        (.ok ((seen.take count).map some ++ [none]), left) := by
  unfold playWatched play
  rw [create_watched]
  rcases hcreate : setting.silent.create check title w with ⟨fault | created, left⟩
  · refine absurd ?_ h
    rw [tellings, announced_of_refused hcreate, hcreate]
    exact ⟨trivial, trivial⟩
  · by_cases hspares : gallery.SparesAll room (setting.silent.announced check title w) desk
    · obtain ⟨htell, hrests⟩ := hspares.tellAll rests
      have hlater : ¬gallery.Suffices room (Parley.tellings setting.dialog showings created left)
          (gallery.heard room (setting.silent.announced check title w) desk) := by
        intro henough
        refine h ⟨hspares, ?_⟩
        rw [hcreate]
        exact henough
      obtain ⟨count, hcount, hseen⟩ := untilRaised_of_not_suffices hlater hrests
      refine ⟨_, left, count + 1, rfl, Nat.succ_lt_succ hcount, ?_⟩
      rw [htell]
      exact congrArg (fun seen => (Except.ok (_ :: seen), left)) hseen
    · have hraised := Gallery.raised_tellAll rests hspares
      refine ⟨_, left, 0, rfl, Nat.succ_pos _, ?_⟩
      exact congrArg (fun seen => (Except.ok seen, left)) (if_pos hraised)

/-- So it is seen as without them only if there is room. -/
theorem Setting.suffices_of_playWatched {setting : Setting ω η ε} {check : Bool} {title : String} (rests : desk.Rests) :
    let played := setting.silent.play check title w (showings.map fun showing => showing.turn.silent)
    setting.playWatched gallery room check title w desk showings = (played.1.map (List.map some), played.2) →
      gallery.Suffices room (setting.tellings check title w showings) desk := by
  intro played hsame
  refine Classical.byContradiction fun h => ?_
  obtain ⟨seen, left, count, hplayed, -, hwatched⟩ := playWatched_of_not_suffices h rests
  rw [hwatched, show played = _ from hplayed] at hsame
  have hseen : (seen.take count).map some ++ [none] = seen.map some := Except.ok.inj (congrArg Prod.fst hsame)
  have hnone : none ∈ seen.map some := hseen ▸ List.mem_append_right _ (List.mem_singleton_self none)
  obtain ⟨_, -, hsome⟩ := List.mem_map.mp hnone
  cases hsome

end

/-- **Observers never influence a dialog, as long as there is room for what they publish.** No delivery is under way on
a bus when a turn begins. Whatever listeners do there, and whoever else changes it between turns, what is seen of a
runner is what is seen without a bus exactly if there is room for all that listeners publish at what the runner tells:
whether it is made, the results and the faults, what it shows of itself after each turn, and the world that each turn
leaves. Without that room a publication raises when the runner is made or in a turn, and what is seen before is the
same. -/
theorem play_watched_iff [DecidableEq κ] {gallery : Gallery κ α μ} {desk : Desk κ α μ}
    (rests : desk.Rests) (room : Nat) (setting : Setting ω η ε) (check : Bool) (title : String) (w : ω)
    (showings : List (Showing ω η ε κ α μ)) :
    let played := setting.silent.play check title w (showings.map fun showing => showing.turn.silent)
    let watched := setting.playWatched gallery room check title w desk showings
    let Suffices := gallery.Suffices room (setting.tellings check title w showings) desk
    (watched = (played.1.map (List.map some), played.2) ↔ Suffices) ∧
    (¬Suffices → ∃ seen left count, played = (.ok seen, left) ∧ count < seen.length ∧
      watched = (.ok ((seen.take count).map some ++ [none]), left)) := by
  intro played watched Suffices
  refine ⟨⟨Setting.suffices_of_playWatched rests, ?_⟩, ?_⟩
  · exact fun enough => Setting.playWatched_of_suffices enough rests
  · exact fun short => Setting.playWatched_of_not_suffices short rests

namespace Gate

/-- Whatever is told, the echo hears a two. -/
def gallery : Gallery Bool Nat Unit := ⟨Echo.audience, fun _ => 2⟩

/-- A step to the guard, and one past him. -/
def showings : List (Showing (Table Bool) Unit Unit Bool Nat Unit) :=
  [⟨turn (.next ()), id, id⟩, ⟨turn (.next ()), id, id⟩]

/-- The echo of a node takes room for six, and nothing else at the gate has an echo. -/
theorem suffices_gallery : gallery.Suffices 6 (setting.tellings true "Gate" .empty showings) Echo.desk := by
  have hspares : ∀ {desk : Desk Bool Nat Unit} {notice : Notice}, desk.bus.queue = [] →
      Bus.waiting gallery.audience 6 desk.bus desk.memory (gallery.signal notice) = [] →
      gallery.Spares 6 notice desk :=
    fun rest hempty => (Bus.waiting_eq_nil_iff rest).mp hempty
  exact ⟨⟨hspares (by decide) (by decide), trivial⟩, ⟨hspares (by decide) (by decide), trivial⟩,
    ⟨hspares (by decide) (by decide), trivial⟩, trivial⟩

end Gate

/-- At the gate an echo that fails is heard out. -/
theorem play_watched_iff_gate :
    Echo.desk.Rests ∧
      Gate.gallery.Suffices 6 (Gate.setting.tellings true "Gate" .empty Gate.showings) Echo.desk ∧
      let played := Gate.setting.silent.play true "Gate" .empty (Gate.showings.map fun showing => showing.turn.silent)
      played.1.toBool = true ∧
        Gate.setting.playWatched Gate.gallery 6 true "Gate" .empty Echo.desk Gate.showings =
          (played.1.map (List.map some), played.2) := by
  have rests : Echo.desk.Rests := ⟨rfl, rfl⟩
  have hwatched :=
    (play_watched_iff rests 6 Gate.setting true "Gate" .empty Gate.showings).1.mpr Gate.suffices_gallery
  exact ⟨rests, Gate.suffices_gallery, by decide +kernel, hwatched⟩

namespace Crowd

/-- Whatever is told, one thousand and five hundred murmurs follow. -/
def gallery : Gallery Unit Nat Unit := ⟨audience, fun _ => 1500⟩

theorem not_suffices_gallery :
    ¬gallery.Suffices Bus.deepest (Gate.setting.tellings true "Gate" .empty []) desk := by
  intro enough
  have hmade : gallery.Spares Bus.deepest (.nodeEntered "Gate") desk := enough.1.1
  obtain ⟨count, hcount, others⟩ := hmade
  rw [others.unique (Crowd.posts 1500)] at hcount
  exact absurd hcount (by decide)

end Crowd

/-- Where a node sets off one thousand and five hundred murmurs, no runner is made at the gate. -/
theorem playWatched_crowd_ne :
    Crowd.desk.Rests ∧ Bus.Posts Crowd.audience Crowd.desk.bus () ⟨.nodeEntered, 1500⟩ 1500 ∧
      let played := Gate.setting.silent.play true "Gate" .empty []
      played.1.toBool = true ∧
        Gate.setting.playWatched Crowd.gallery Bus.deepest true "Gate" .empty Crowd.desk [] ≠
          (played.1.map (List.map some), played.2) := by
  have rests : Crowd.desk.Rests := ⟨rfl, rfl⟩
  refine ⟨rests, Crowd.posts 1500, by decide +kernel, fun hsame => Crowd.not_suffices_gallery ?_⟩
  exact Setting.suffices_of_playWatched rests hsame

end Parley

import Parley.Proofs.Play.Noting
import Parley.Proofs.Play.Performed

/-! Runners at rest.

A request that is refused, and one for the next event while a choice is due or after the end of a node, leaves
everything as it is. So once a menu has been shown a runner rests, with what is offered there, until a choice or a move
is accepted, and from the end of a node it goes on only by a move to a node (`rests_until_accepted`). -/
namespace Parley

variable {ω η ε : Type}

/-- A choice or a move is refused: none is due, none leads there, or there is no such node. -/
inductive Refusal : Except (PlayFault ε) (Option Event) → Prop where
  | notWaiting (phase : Phase) : Refusal (.error (.notWaiting phase))
  | notOffered (title : String) : Refusal (.error (.notOffered title))
  | unknownNode (title : String) : Refusal (.error (.unknownNode title))

namespace Turn

variable (turn : Turn ω η ε) (dialog : Dialog) (runner : Runner) (w : ω)

/-- A turn that leaves the runner and the world as they are, but for what the host did to the world first, and tells
nothing. -/
structure ChangesNothing : Prop where
  stays : (turn.take dialog runner w).runner = runner
  untouched : (turn.take dialog runner w).world = turn.prepare w
  untold : turn.told dialog runner w = []

/-- A turn that makes a choice or goes to a node. -/
structure Accepted : Prop where
  asked : (∃ title, turn.request = .choose title) ∨ ∃ title, turn.request = .reset title
  granted : ∃ given, (turn.take dialog runner w).result = .ok given

end Turn

/-- Turns among which no choice and no move is accepted. -/
def Unaccepted (dialog : Dialog) (turns : List (Turn ω η ε)) (runner : Runner) (w : ω) : Prop :=
  ∀ earlier turn later, turns = earlier ++ turn :: later →
    ¬turn.Accepted dialog (course dialog earlier runner w).1 (course dialog earlier runner w).2

variable {dialog : Dialog} {runner landed : Runner} {w : ω}

/-! ### Requests -/

namespace Setting

variable {setting : Setting ω η ε} {request : Request η} {done : List (Effect η)}
  {result : Except (PlayFault ε) (Option Event)} {host : η} {line : Line Nat} {lines : List (Line Nat)}

/-- A line that fails does so at its command. -/
theorem Stop.fault_cases {fault : PlayFault ε} (stop : setting.Stop host runner w line done (.error fault) landed) :
    (∃ name, fault = .unregistered name) ∨ ∃ cause, fault = .handler cause := by
  cases stop with
  | unregistered _ => exact .inl ⟨_, rfl⟩
  | failed _ _ => exact .inr ⟨_, rfl⟩

/-- What is refused is a request for which nothing is done. -/
theorem Performs.idle_of_refusal (performs : setting.Performs runner w request done result landed)
    (refusal : Refusal result) : Idle setting.dialog runner request result := by
  cases performs with
  | idle idle => exact idle
  | moves _ => nomatch refusal
  | givesUp _ _ _ => nomatch refusal
  | @stops _ _ _ _ _ _ _ shown _ _ _ _ stop =>
    cases shown with
    | ok event => nomatch refusal
    | error fault =>
      rcases stop.fault_cases with ⟨name, rfl⟩ | ⟨cause, rfl⟩
      · nomatch refusal
      · nomatch refusal

/-- A runner that does not go on by itself has nothing done for it, or is moved. -/
theorem Performs.idle_or_moves (performs : setting.Performs runner w request done result landed)
    (resting : ¬runner.phase.Going) :
    Idle setting.dialog runner request result ∨ setting.Moves runner request done landed ∧ result = .ok none := by
  cases performs with
  | idle idle => exact .inl idle
  | moves moves => exact .inr ⟨moves, rfl⟩
  | stops going _ _ _ _ => exact absurd going resting
  | givesUp going _ _ => exact absurd going resting

/-- On a way no menu is told of. -/
theorem Way.topic_of_told (way : setting.Way host runner w lines done landed) :
    ∀ notice ∈ done.filterMap Effect.notice?, notice.topic ≠ .optionsPresented := by
  induction way with
  | here => exact List.forall_mem_nil _
  | pass _ pass _ ih =>
    rw [List.filterMap_append]
    refine List.forall_mem_append.mpr ⟨fun notice hnotice => ?_, ih⟩
    cases pass with
    | onward quiet _ => rcases quiet.topic_of_told hnotice with h | h <;> rw [h] <;> exact nofun
    | jump _ =>
      cases List.mem_singleton.mp hnotice
      exact nofun

/-- Where a menu is told of, it has been shown, and a choice is due. -/
theorem Performs.shown_of_told (performs : setting.Performs runner w request done result landed) {title : String}
    {offers : List Offer} (told : Notice.optionsPresented title offers ∈ done.filterMap Effect.notice?) :
    landed.phase = .waiting ∧ landed.offers.map Prod.snd = offers ∧
      ∃ speaker, result = .ok (some (.options speaker offers)) := by
  cases performs with
  | idle _ => cases told
  | moves moves => cases moves <;> simp [Effect.notice?] at told
  | givesUp _ along _ => exact absurd rfl (along.topic_of_told _ told)
  | stops _ along _ _ stop =>
    rw [List.filterMap_append] at told
    have hlast := (List.mem_append.mp told).resolve_left fun h => along.topic_of_told _ h rfl
    cases stop with
    | menu =>
      rw [told_showing] at hlast
      cases List.mem_singleton.mp hlast
      exact ⟨rfl, rfl, _, rfl⟩
    | lastQuiet quiet _ =>
      rw [List.filterMap_append] at hlast
      rcases List.mem_append.mp hlast with h | h
      · rcases quiet.topic_of_told h with h | h <;> cases h
      · cases List.mem_singleton.mp h
    | speech _ => cases hlast
    | lastSpeech _ => cases List.mem_singleton.mp hlast
    | unregistered _ => cases hlast
    | failed _ _ => cases hlast

end Setting

/-! ### Turns -/

namespace Turn

variable {turn : Turn ω η ε}

theorem changesNothing_of_idle {request : Request η} {result : Except (PlayFault ε) (Option Event)}
    (hrequest : turn.request = request) (idle : Idle dialog runner request result) (w : ω) :
    (turn.take dialog runner w).result = result ∧ turn.ChangesNothing dialog runner w := by
  subst hrequest
  have htake : turn.take dialog runner w = ⟨result, runner, turn.prepare w⟩ :=
    (turn.setting dialog).meet_of_idle idle _
  have hnoting : turn.noting.take dialog runner (w, []) = ⟨result, runner, (turn.prepare w, [])⟩ :=
    (turn.noting.setting dialog).meet_of_idle idle _
  rw [htake]
  refine ⟨rfl, ?_, ?_, ?_⟩
  · rw [htake]
  · rw [htake]
  · rw [told, hnoting]

/-- What a turn does, with what it tells. -/
theorem exists_performs (turn : Turn ω η ε) (standing : Standing dialog runner) (w : ω) :
    ∃ done result landed,
      (turn.noting.setting dialog).Performs runner (turn.prepare w, []) turn.request done result landed ∧
      (turn.take dialog runner w).result = result ∧ (turn.take dialog runner w).runner = landed ∧
      turn.told dialog runner w = done.filterMap Effect.notice? := by
  obtain ⟨done, result, landed, performs, hnoting⟩ := turn.noting.exists_take standing (w, [])
  have htake := turn.bare_take dialog runner (w, [])
  rw [hnoting] at htake
  refine ⟨done, result, landed, performs, ?_, ?_, ?_⟩
  · rw [← htake]
    rfl
  · rw [← htake]
    rfl
  · rw [told, hnoting]
    exact congrArg Prod.snd ((turn.setting dialog).effects_noting _ done)

/-- While a choice is due, and after the end of a node, asking for the next event changes nothing. -/
theorem changesNothing_of_next {host : η} (hrequest : turn.request = .next host)
    (resting : runner.phase = .waiting ∨ runner.phase = .ended) (w : ω) : turn.ChangesNothing dialog runner w := by
  rcases resting with waiting | ended
  · exact (changesNothing_of_idle hrequest (.waiting waiting) w).2
  · exact (changesNothing_of_idle hrequest (.ended ended) w).2

theorem changesNothing_of_refusal (standing : Standing dialog runner)
    (refusal : Refusal (turn.take dialog runner w).result) : turn.ChangesNothing dialog runner w := by
  obtain ⟨done, result, landed, performs, hresult, _⟩ := turn.exists_performs standing w
  rw [hresult] at refusal
  exact (changesNothing_of_idle rfl (performs.idle_of_refusal refusal) w).2

/-- A runner at rest finds nothing to do for a turn, or accepts it. -/
theorem idle_or_accepted (turn : Turn ω η ε) (standing : Standing dialog runner) (resting : ¬runner.phase.Going)
    (w : ω) : (∃ result : Except (PlayFault ε) (Option Event), Idle dialog runner turn.request result) ∨
      turn.Accepted dialog runner w := by
  obtain ⟨done, result, landed, performs, hresult, _⟩ := turn.exists_performs standing w
  rcases performs.idle_or_moves resting with idle | ⟨moves, rfl⟩
  · exact .inl ⟨result, idle⟩
  · refine .inr ⟨?_, none, hresult⟩
    generalize turn.request = request at moves
    cases moves with
    | choose => exact .inl ⟨_, rfl⟩
    | reset _ => exact .inr ⟨_, rfl⟩

/-- A turn that is not accepted changes nothing for a runner at rest. -/
theorem changesNothing_of_unaccepted (standing : Standing dialog runner) (resting : ¬runner.phase.Going)
    (unaccepted : ¬turn.Accepted dialog runner w) : turn.ChangesNothing dialog runner w := by
  rcases turn.idle_or_accepted standing resting w with ⟨result, idle⟩ | accepted
  · exact (changesNothing_of_idle rfl idle w).2
  · exact absurd accepted unaccepted

end Turn

/-! ### Turns, one after the other -/

theorem unaccepted_nil : Unaccepted (ω := ω) (η := η) (ε := ε) dialog [] runner w := by
  intro earlier turn later hnil
  exact absurd hnil.symm (List.append_ne_nil_of_right_ne_nil _ (List.cons_ne_nil _ _))

theorem unaccepted_cons_iff {turn : Turn ω η ε} {rest : List (Turn ω η ε)} :
    Unaccepted dialog (turn :: rest) runner w ↔ ¬turn.Accepted dialog runner w ∧
      Unaccepted dialog rest (turn.take dialog runner w).runner (turn.take dialog runner w).world := by
  constructor
  · intro h
    refine ⟨h [] turn rest rfl, fun earlier other later hrest => ?_⟩
    exact h (turn :: earlier) other later (congrArg (turn :: ·) hrest)
  · intro ⟨first, others⟩ earlier other later hsplit
    cases earlier with
    | nil =>
      cases hsplit
      exact first
    | cons before earlier =>
      obtain ⟨rfl, hrest⟩ := List.cons_eq_cons.mp hsplit
      exact others earlier other later hrest

/-- A runner at rest stays as it is through turns none of which is accepted. -/
theorem course_of_unaccepted (turns : List (Turn ω η ε)) (standing : Standing dialog runner)
    (resting : ¬runner.phase.Going) (unaccepted : Unaccepted dialog turns runner w) :
    (course dialog turns runner w).1 = runner := by
  induction turns generalizing w with
  | nil => rfl
  | cons turn rest ih =>
    obtain ⟨first, others⟩ := unaccepted_cons_iff.mp unaccepted
    have hturn := Turn.changesNothing_of_unaccepted standing resting first
    rw [hturn.stays] at others
    show (course dialog rest (turn.take dialog runner w).runner (turn.take dialog runner w).world).1 = runner
    rw [hturn.stays]
    exact ih others

/-! ### The end of a node -/

/-- A choice or a move for which nothing is done is not accepted. -/
theorem Turn.not_accepted_of_idle {turn : Turn ω η ε} {result : Except (PlayFault ε) (Option Event)}
    (idle : Idle dialog runner turn.request result) : ¬turn.Accepted dialog runner w := by
  intro ⟨asked, given, granted⟩
  rw [(changesNothing_of_idle rfl idle w).1] at granted
  generalize turn.request = request at idle asked
  cases idle with
  | waiting _ => rcases asked with ⟨_, h⟩ | ⟨_, h⟩ <;> cases h
  | ended _ => rcases asked with ⟨_, h⟩ | ⟨_, h⟩ <;> cases h
  | notWaiting _ => cases granted
  | notOffered _ _ => cases granted
  | unknownNode _ => cases granted

/-- From the end of a node, only a move to a node that is there is accepted. -/
theorem Turn.accepted_iff_of_ended {turn : Turn ω η ε} (standing : Standing dialog runner)
    (ended : runner.phase = .ended) :
    turn.Accepted dialog runner w ↔ ∃ title ∈ dialog.titles, turn.request = .reset title := by
  have resting : ¬runner.phase.Going := fun going => going.ne_ended ended
  constructor
  · intro accepted
    obtain ⟨done, result, landed, performs, _⟩ := turn.exists_performs standing w
    rcases performs.idle_or_moves resting with idle | ⟨moves, _⟩
    · exact absurd accepted (not_accepted_of_idle idle)
    · generalize turn.request = request at moves
      cases moves with
      | choose waiting =>
        rw [ended] at waiting
        cases waiting
      | @reset title node found =>
        refine ⟨title, Dialog.contains_eq_true_iff.mp ?_, rfl⟩
        exact Option.isSome_iff_exists.mpr ⟨node, found⟩
  · intro ⟨title, known, hrequest⟩
    rcases turn.idle_or_accepted standing resting w with ⟨result, idle⟩ | accepted
    · rw [hrequest] at idle
      cases idle with
      | unknownNode unknown => exact absurd known unknown
    · exact accepted

theorem Turn.changesNothing_of_ended {turn : Turn ω η ε} (standing : Standing dialog runner)
    (ended : runner.phase = .ended) (unmoved : ∀ title ∈ dialog.titles, turn.request ≠ .reset title) (w : ω) :
    turn.ChangesNothing dialog runner w := by
  refine changesNothing_of_unaccepted standing (fun going => going.ne_ended ended) fun accepted => ?_
  obtain ⟨title, known, hrequest⟩ := (accepted_iff_of_ended standing ended).mp accepted
  exact unmoved title known hrequest

/-- A move to a node that is there takes the runner from the end. -/
theorem Turn.runner_ne_of_ended {turn : Turn ω η ε} (ended : runner.phase = .ended) {title : String}
    (known : title ∈ dialog.titles) (hrequest : turn.request = .reset title) (w : ω) :
    (turn.take dialog runner w).runner ≠ runner := by
  obtain ⟨node, found⟩ := Option.isSome_iff_exists.mp (Dialog.contains_eq_true_iff.mpr known)
  have htake : (turn.take dialog runner w).runner.phase = .start := by
    rw [take, hrequest, Setting.meet, Setting.reset, show (turn.setting dialog).dialog = dialog from rfl, found]
    rfl
  intro hrunner
  rw [hrunner, ended] at htake
  cases htake

/-- Without a move to a node that is there, turns leave a runner at the end of its node. -/
theorem course_of_ended (turns : List (Turn ω η ε)) (standing : Standing dialog runner) (ended : runner.phase = .ended)
    (unmoved : ∀ turn ∈ turns, ∀ title ∈ dialog.titles, turn.request ≠ .reset title) (w : ω) :
    (course dialog turns runner w).1 = runner := by
  induction turns generalizing w with
  | nil => rfl
  | cons turn rest ih =>
    obtain ⟨first, later⟩ := List.forall_mem_cons.mp unmoved
    show (course dialog rest (turn.take dialog runner w).runner (turn.take dialog runner w).world).1 = runner
    rw [(Turn.changesNothing_of_ended standing ended first w).stays]
    exact ih later _

/-! ### The menu that is shown -/

/-- When a turn has told of a menu, a choice is due among what was offered there. -/
theorem Turn.waits_of_told {turn : Turn ω η ε} (standing : Standing dialog runner) {shown : String}
    {offers : List Offer} (told : Notice.optionsPresented shown offers ∈ turn.told dialog runner w) :
    (turn.take dialog runner w).runner.phase = .waiting ∧
      (turn.take dialog runner w).runner.offers.map Prod.snd = offers := by
  obtain ⟨done, result, landed, performs, _, hrunner, htold⟩ := turn.exists_performs standing w
  rw [htold] at told
  obtain ⟨waiting, hoffers, _⟩ := performs.shown_of_told told
  rw [hrunner]
  exact ⟨waiting, hoffers⟩

namespace Setting

variable {setting : Setting ω η ε} {check : Bool} {title : String} {w₀ : ω} {created : Runner}

/-- **What is refused or idle changes nothing.** After any turns of a host, whatever surroundings they brought and
whether they failed or not, a turn that is refused leaves the runner and the world as they are and tells nothing, and so
does one for the next event while a choice is due or after the end of a node. So once a turn has told of a menu, then up
to the next choice or move that is accepted the runner stays as it is, with what was offered, and whenever the next
event is asked for, a choice is due. From the end of a node, a turn goes to a node that is there or changes nothing, and
so do turns one after the other. -/
theorem rests_until_accepted (create : setting.create check title w = (.ok created, w₀)) (turns : List (Turn ω η ε)) :
    let after := course setting.dialog turns created w₀
    (∀ turn : Turn ω η ε, Refusal (turn.take setting.dialog after.1 after.2).result ∨
        (∃ host, turn.request = .next host) ∧ (after.1.phase = .waiting ∨ after.1.phase = .ended) →
      turn.ChangesNothing setting.dialog after.1 after.2) ∧
    (∀ (turn : Turn ω η ε) (between : List (Turn ω η ε)) (shown : String) (offers : List Offer),
      Notice.optionsPresented shown offers ∈ turn.told setting.dialog after.1 after.2 →
      let presented := turn.take setting.dialog after.1 after.2
      Unaccepted setting.dialog between presented.runner presented.world →
      let later := course setting.dialog between presented.runner presented.world
      later.1 = presented.runner ∧ later.1.phase = .waiting ∧ later.1.offers.map Prod.snd = offers ∧
      ∀ (next : Turn ω η ε) (host : η), next.request = .next host →
        (next.take setting.dialog later.1 later.2).result = .ok (some .waiting) ∧
        next.ChangesNothing setting.dialog later.1 later.2) ∧
    (after.1.phase = .ended →
      (∀ turn : Turn ω η ε, (turn.take setting.dialog after.1 after.2).runner ≠ after.1 ↔
        ∃ title ∈ setting.dialog.titles, turn.request = .reset title) ∧
      (∀ turn : Turn ω η ε, (∀ title ∈ setting.dialog.titles, turn.request ≠ .reset title) →
        turn.ChangesNothing setting.dialog after.1 after.2) ∧
      ∀ more : List (Turn ω η ε),
        (∀ turn ∈ more, ∀ title ∈ setting.dialog.titles, turn.request ≠ .reset title) →
        (course setting.dialog more after.1 after.2).1 = after.1) := by
  intro after
  have standing : Standing setting.dialog after.1 := (standing_of_created create).course turns w₀
  refine ⟨?_, ?_, fun ended => ⟨fun turn => ⟨fun moved => ?_, ?_⟩, ?_, ?_⟩⟩
  · intro turn h
    rcases h with refusal | ⟨⟨host, hrequest⟩, resting⟩
    · exact Turn.changesNothing_of_refusal standing refusal
    · exact Turn.changesNothing_of_next hrequest resting _
  · intro turn between shown offers told presented unaccepted later
    obtain ⟨waiting, hoffers⟩ := Turn.waits_of_told standing told
    have hlater : later.1 = presented.runner :=
      course_of_unaccepted between (standing.take turn after.2).standing (fun going => going.ne_waiting waiting)
        unaccepted
    rw [← hlater] at waiting hoffers
    refine ⟨hlater, waiting, hoffers, fun next host hrequest => ?_⟩
    exact Turn.changesNothing_of_idle hrequest (.waiting waiting) later.2
  · exact Classical.byContradiction fun unmoved => moved
      (Turn.changesNothing_of_ended standing ended (fun title known h => unmoved ⟨title, known, h⟩) _).stays
  · intro ⟨title, known, hrequest⟩
    exact Turn.runner_ne_of_ended ended known hrequest _
  · intro turn unmoved
    exact Turn.changesNothing_of_ended standing ended unmoved _
  · intro more unmoved
    exact course_of_ended more standing ended unmoved _

/-- Before the guard, neither a choice of what is not offered nor a move to nowhere changes what is offered. -/
theorem rests_before_guard :
    let before := course Gate.dialog [Gate.turn (.next ())] ⟨0, 0, .start, [], []⟩ .empty
    let turn := Gate.turn (.next ())
    let offers : List Offer := [⟨"Greet", "Road", false⟩, ⟨"Turn back", "Gate", false⟩]
    let presented := turn.take Gate.dialog before.1 before.2
    let between := [Gate.turn (.choose "Inn"), Gate.turn (.next ()), Gate.turn (.reset "Inn")]
    let later := course Gate.dialog between presented.runner presented.world
    Gate.setting.create false "Gate" .empty = (.ok ⟨0, 0, .start, [], []⟩, .empty) ∧
      Notice.optionsPresented "Gate" offers ∈ turn.told Gate.dialog before.1 before.2 ∧
      Unaccepted Gate.dialog between presented.runner presented.world ∧
      later.1 = presented.runner ∧ later.1.phase = .waiting ∧ later.1.offers.map Prod.snd = offers := by
  intro before turn offers presented between later
  have create : Gate.setting.create false "Gate" .empty = (.ok ⟨0, 0, .start, [], []⟩, .empty) := rfl
  have told : Notice.optionsPresented "Gate" offers ∈ turn.told Gate.dialog before.1 before.2 :=
    List.mem_singleton.mpr rfl
  have unaccepted : Unaccepted Gate.dialog between presented.runner presented.world := by
    refine unaccepted_cons_iff.mpr ⟨fun h => ?_, unaccepted_cons_iff.mpr ⟨fun h => ?_,
      unaccepted_cons_iff.mpr ⟨fun h => ?_, unaccepted_nil⟩⟩⟩
    · obtain ⟨given, hgiven⟩ := h.granted
      cases hgiven
    · rcases h.asked with ⟨title, hrequest⟩ | ⟨title, hrequest⟩ <;> cases hrequest
    · obtain ⟨given, hgiven⟩ := h.granted
      cases hgiven
  obtain ⟨hlater, waiting, hoffers, _⟩ :=
    (rests_until_accepted create [Gate.turn (.next ())]).2.1 turn between "Gate" offers told unaccepted
  exact ⟨create, told, unaccepted, hlater, waiting, hoffers⟩

end Setting

end Parley

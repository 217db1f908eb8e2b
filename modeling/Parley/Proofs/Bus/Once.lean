import Parley.Proofs.Bus.Incident
import Parley.Proofs.Bus.Roster

/-! Subscriptions that end with their first call.

A delivery takes the subscriptions that ended with it off the roster that it went by. When a listener makes
another one leave the topic meanwhile, the topic gets a new roster, and what is taken off the old one stays
on the new one: the delivery spares it (`Occasion.Spares`). Along a run, a subscription that ends with its
first call is called once at the most, and is gone after that, exactly if no delivery that calls it spares
it (`onlyOnce_iff`). -/
namespace Parley

variable {κ α μ : Type}

namespace Incident

/-- Someone ends the subscription. -/
def Ending (topic : Topic) (entry : Subscription κ) (incidents : List (Incident κ α)) : Prop :=
  ∃ action ∈ deeds incidents, action.Ends topic entry

/-- Someone makes another listener leave the topic of the subscription. -/
def Moving (topic : Topic) (entry : Subscription κ) (incidents : List (Incident κ α)) : Prop :=
  ∃ action ∈ deeds incidents, action.Moves topic entry

variable {topic : Topic} {entry : Subscription κ} {incidents : List (Incident κ α)}

@[simp] theorem deeds_append_called (incidents : List (Incident κ α)) (called : Subscription κ) :
    deeds (incidents ++ [.called called]) = deeds incidents := by
  rw [deeds_append]
  exact List.append_nil _

theorem ending_append_did {action : Action κ α} :
    Ending topic entry (incidents ++ [.did action]) ↔
      Ending topic entry incidents ∨ action.Ends topic entry := by
  have hdeeds : deeds [.did action] = [action] := rfl
  simp only [Ending, deeds_append, hdeeds, List.mem_append, List.mem_singleton, or_and_right, exists_or,
    exists_eq_left]

theorem moving_append_did {action : Action κ α} :
    Moving topic entry (incidents ++ [.did action]) ↔
      Moving topic entry incidents ∨ action.Moves topic entry := by
  have hdeeds : deeds [.did action] = [action] := rfl
  simp only [Moving, deeds_append, hdeeds, List.mem_append, List.mem_singleton, or_and_right, exists_or,
    exists_eq_left]

instance [DecidableEq κ] : Decidable (Ending topic entry incidents) :=
  inferInstanceAs (Decidable (∃ action ∈ deeds incidents, action.Ends topic entry))

instance [DecidableEq κ] : Decidable (Moving topic entry incidents) :=
  inferInstanceAs (Decidable (∃ action ∈ deeds incidents, action.Moves topic entry))

end Incident

open Incident

/-! ### During a delivery -/

/-- What has become of a subscription since a delivery began that goes by a given edition. -/
structure Fate (topic : Topic) (entry : Subscription κ) (edition : Nat) (bus : Bus κ α)
    (incidents : List (Incident κ α)) : Prop where
  ended : Ending topic entry incidents → bus.Ended entry
  held : ¬Ending topic entry incidents → bus.Held topic entry edition (Moving topic entry incidents)

variable [DecidableEq κ]

theorem lasting_sound : Delivery.Lasting fun (bus : Bus κ α) (_ : List (Incident κ α)) => bus.Sound where
  latest _ _ _ h := h.alike ⟨rfl, rfl, rfl⟩
  called _ _ _ h := h
  did _ _ action h := h.perform action

theorem lasting_ended (entry : Subscription κ) :
    Delivery.Lasting fun (bus : Bus κ α) (_ : List (Incident κ α)) => bus.Ended entry where
  latest _ _ _ h := h.alike ⟨rfl, rfl, rfl⟩
  called _ _ _ h := h
  did _ _ action h := h.perform action

theorem lasting_fate (topic : Topic) (entry : Subscription κ) (edition : Nat) :
    Delivery.Lasting fun (bus : Bus κ α) (incidents : List (Incident κ α)) =>
      Fate topic entry edition bus incidents where
  latest bus incidents latest h := by
    have hsame : bus.Alike { bus with latest } := ⟨rfl, rfl, rfl⟩
    exact ⟨fun hending => (h.ended hending).alike hsame, fun hending => (h.held hending).alike hsame⟩
  called bus incidents called h := by
    have hdeeds := deeds_append_called incidents called
    refine ⟨?_, ?_⟩
    · unfold Ending
      rw [hdeeds]
      exact h.ended
    · unfold Ending Moving
      rw [hdeeds]
      exact h.held
  did bus incidents action h := by
    refine ⟨fun hending => ?_, fun hending => ?_⟩
    · by_cases hbefore : Ending topic entry incidents
      · exact (h.ended hbefore).perform action
      · have hends := (ending_append_did.mp hending).resolve_left hbefore
        exact (h.held hbefore).ended hends
    · rw [ending_append_did, not_or] at hending
      rw [moving_append_did]
      exact (h.held hending.1).perform hending.2

/-! ### After a delivery -/

namespace Occasion

variable (audience : Audience κ α μ) (occasion : Occasion κ α μ) {entry : Subscription κ}

/-- The delivery with notes when it has made its calls. -/
def went : Delivery κ α (μ × List (Incident κ α)) :=
  Delivery.go audience.noted occasion.signal (occasion.bus.subscriptions occasion.signal.topic)
    ⟨occasion.bus.opening occasion.signal.topic, (occasion.memory, []), false, []⟩

/-- The bus that a delivery leaves. -/
def after : Bus κ α := (occasion.delivery audience).bus

theorem after_eq :
    occasion.after audience =
      ((occasion.went audience).bus.retire occasion.signal.topic
        (occasion.bus.edition? occasion.signal.topic) (occasion.went audience).finished).closing
          (occasion.went audience).finished occasion.bus.kept := by
  have hplain := occasion.plain_noted audience
  exact congrArg Delivery.bus hplain.symm

theorem lists_after :
    (occasion.after audience).Lists entry ↔
      ((occasion.went audience).bus.retire occasion.signal.topic
        (occasion.bus.edition? occasion.signal.topic) (occasion.went audience).finished).Lists entry := by
  rw [after_eq]
  exact .rfl

theorem ended_after :
    (occasion.after audience).Ended entry ↔
      ((occasion.went audience).bus.retire occasion.signal.topic
        (occasion.bus.edition? occasion.signal.topic) (occasion.went audience).finished).Ended entry := by
  rw [after_eq]
  exact ⟨fun h => h.alike ⟨rfl, rfl, rfl⟩, fun h => h.alike ⟨rfl, rfl, rfl⟩⟩

/-- Someone makes another listener leave the topic, and nobody ends the subscription. -/
def Spares (entry : Subscription κ) : Prop :=
  Moving occasion.signal.topic entry (occasion.incidents audience) ∧
    ¬Ending occasion.signal.topic entry (occasion.incidents audience)

instance (entry : Subscription κ) : Decidable (occasion.Spares audience entry) :=
  inferInstanceAs (Decidable (_ ∧ ¬_))

/-- Those who are called are among the subscriptions of the topic. -/
theorem calls_sublist :
    (occasion.calls audience).Sublist (occasion.bus.subscriptions occasion.signal.topic) := by
  obtain ⟨called, hsub, hcalls, -⟩ := Delivery.calls_go_noted audience occasion.signal
    (occasion.bus.subscriptions occasion.signal.topic)
    ⟨occasion.bus.opening occasion.signal.topic, (occasion.memory, []), false, []⟩
  have hcalled : occasion.calls audience = called := hcalls
  rw [hcalled]
  exact hsub

/-- What is called and ends with its first call has ended with the delivery. -/
theorem mem_finished (hcalled : entry ∈ occasion.calls audience) (honce : entry.once = true) :
    entry ∈ (occasion.went audience).finished := by
  obtain ⟨called, -, hcalls, hfinished⟩ := Delivery.calls_go_noted audience occasion.signal
    (occasion.bus.subscriptions occasion.signal.topic)
    ⟨occasion.bus.opening occasion.signal.topic, (occasion.memory, []), false, []⟩
  have heq : occasion.calls audience = called := hcalls
  rw [heq] at hcalled
  exact hfinished entry hcalled honce

variable {audience occasion}

theorem sound_after (h : occasion.bus.Sound) : (occasion.after audience).Sound := by
  have hwent : (occasion.went audience).bus.Sound :=
    lasting_sound.go audience occasion.signal _ _ (h.alike ⟨rfl, rfl, rfl⟩)
  have hretire := hwent.retire occasion.signal.topic (occasion.bus.edition? occasion.signal.topic)
    (occasion.went audience).finished
  rw [after_eq]
  exact hretire.alike ⟨rfl, rfl, rfl⟩

theorem ended_after_of_ended (h : occasion.bus.Ended entry) : (occasion.after audience).Ended entry := by
  have hwent : (occasion.went audience).bus.Ended entry :=
    (lasting_ended entry).go audience occasion.signal _ _ (h.alike ⟨rfl, rfl, rfl⟩)
  rw [ended_after]
  exact hwent.retire _ _ _

theorem not_called_of_ended (h : occasion.bus.Ended entry) : entry ∉ occasion.calls audience := by
  intro hcalled
  exact h.unlisted ⟨_, (occasion.calls_sublist audience).subset hcalled⟩

theorem count_calls_le_one (h : occasion.bus.Sound) (entry : Subscription κ) :
    (occasion.calls audience).count entry ≤ 1 := by
  have hdistinct : (occasion.bus.subscriptions occasion.signal.topic).Nodup :=
    List.Pairwise.of_map _ (fun _ _ hne heq => hne (congrArg _ heq)) (h.distinct occasion.signal.topic)
  exact List.nodup_iff_count.mp (hdistinct.sublist (occasion.calls_sublist audience)) entry

/-- The fate of what is called in a delivery. -/
theorem fate (h : occasion.bus.Sound) (hcalled : entry ∈ occasion.calls audience) :
    ∃ edition, occasion.bus.edition? occasion.signal.topic = some edition ∧
      Fate occasion.signal.topic entry edition (occasion.went audience).bus (occasion.incidents audience) := by
  have hlisted := (occasion.calls_sublist audience).subset hcalled
  obtain ⟨edition, hedition, hheld⟩ := h.held hlisted
  refine ⟨edition, hedition, (lasting_fate _ entry edition).go audience occasion.signal _ _ ?_⟩
  have hnothing : ¬Moving (α := α) occasion.signal.topic entry [] := fun ⟨_, hmem, _⟩ => nomatch hmem
  have hopening : (occasion.bus.opening occasion.signal.topic).Held occasion.signal.topic entry edition False :=
    hheld.alike ⟨rfl, rfl, rfl⟩
  exact ⟨fun ⟨_, hmem, _⟩ => (nomatch hmem), fun _ => hopening.congr (iff_of_false not_false hnothing)⟩

/-- A delivery that spares what it has called leaves it on the roster. -/
theorem lists_after_of_spares (h : occasion.bus.Sound) (hcalled : entry ∈ occasion.calls audience)
    (hspares : occasion.Spares audience entry) : (occasion.after audience).Lists entry := by
  obtain ⟨edition, hedition, hfate⟩ := fate h hcalled
  rw [lists_after, hedition]
  exact (hfate.held hspares.2).lists_retire hspares.1 _

/-- A delivery that does not spare it ends it, in whatever way its listeners have gone about the bus. -/
theorem ended_after_of_not_spares (h : occasion.bus.Sound) (hcalled : entry ∈ occasion.calls audience)
    (honce : entry.once = true) (hspares : ¬occasion.Spares audience entry) :
    (occasion.after audience).Ended entry := by
  obtain ⟨edition, hedition, hfate⟩ := fate h hcalled
  rw [ended_after, hedition]
  by_cases hending : Ending occasion.signal.topic entry (occasion.incidents audience)
  · exact (hfate.ended hending).retire _ _ _
  · have hstays : ¬Moving occasion.signal.topic entry (occasion.incidents audience) :=
      fun hmoving => hspares ⟨hmoving, hending⟩
    exact (hfate.held hending).ended_retire hstays (occasion.mem_finished audience hcalled honce)

end Occasion

/-! ### Along a run -/

/-- From a bus to another by deliveries, with actions before, between and after them. -/
inductive Trail (audience : Audience κ α μ) : Bus κ α → List (Occasion κ α μ) → Bus κ α → Prop where
  | done (bus : Bus κ α) : Trail audience bus [] bus
  | alike {bus bus' last : Bus κ α} {occasions : List (Occasion κ α μ)} (h : bus.Alike bus')
      (rest : Trail audience bus' occasions last) : Trail audience bus occasions last
  | act {bus last : Bus κ α} {occasions : List (Occasion κ α μ)} (action : Action κ α)
      (rest : Trail audience (action.perform bus).1 occasions last) : Trail audience bus occasions last
  | deliver {last : Bus κ α} {occasions : List (Occasion κ α μ)} (occasion : Occasion κ α μ)
      (rest : Trail audience (occasion.after audience) occasions last) :
      Trail audience occasion.bus (occasion :: occasions) last

namespace Trail

variable {audience : Audience κ α μ} {bus mid last : Bus κ α} {occasions more : List (Occasion κ α μ)}

theorem append (first : Trail audience bus occasions mid) (second : Trail audience mid more last) :
    Trail audience bus (occasions ++ more) last := by
  induction first with
  | done bus => exact second
  | alike h rest ih => exact .alike h (ih second)
  | act action rest ih => exact .act action (ih second)
  | deliver occasion rest ih => exact .deliver occasion (ih second)

/-- **Every delivery of a run finds a sound bus.** -/
theorem sound (trail : Trail audience bus occasions last) (h : bus.Sound) :
    (∀ occasion ∈ occasions, occasion.bus.Sound) ∧ last.Sound := by
  induction trail with
  | done bus => exact ⟨fun _ hmem => (nomatch hmem), h⟩
  | alike same rest ih => exact ih (h.alike same)
  | act action rest ih => exact ih (h.perform action)
  | deliver occasion rest ih =>
    obtain ⟨hrest, hlast⟩ := ih (Occasion.sound_after h)
    exact ⟨List.forall_mem_cons.mpr ⟨h, hrest⟩, hlast⟩

/-- What has ended is not there for the deliveries of a run, and is not called. -/
theorem ended (trail : Trail audience bus occasions last) {entry : Subscription κ} (h : bus.Ended entry) :
    (∀ occasion ∈ occasions, occasion.bus.Ended entry ∧ entry ∉ occasion.calls audience) ∧
      last.Ended entry := by
  induction trail with
  | done bus => exact ⟨fun _ hmem => (nomatch hmem), h⟩
  | alike same rest ih => exact ih (h.alike same)
  | act action rest ih => exact ih (h.perform action)
  | deliver occasion rest ih =>
    obtain ⟨hrest, hlast⟩ := ih (Occasion.ended_after_of_ended h)
    exact ⟨List.forall_mem_cons.mpr ⟨⟨h, Occasion.not_called_of_ended h⟩, hrest⟩, hlast⟩

end Trail

/-- The subscription is called once at the most in deliveries, one after the other. When a delivery that
called it is over, no topic has it, nor at any later delivery, nor in the end. -/
structure OnlyOnce (audience : Audience κ α μ) (entry : Subscription κ)
    (occasions : List (Occasion κ α μ)) (last : Bus κ α) : Prop where
  once : (occasions.flatMap (·.calls audience)).count entry ≤ 1
  gone : ∀ before occasion later, occasions = before ++ occasion :: later →
    entry ∈ occasion.calls audience →
      ¬(occasion.after audience).Lists entry ∧ (∀ other ∈ later, ¬other.bus.Lists entry) ∧
        ¬last.Lists entry

namespace Trail

variable {audience : Audience κ α μ} {bus last : Bus κ α} {occasions : List (Occasion κ α μ)}
  {entry : Subscription κ}

/-- A subscription that no delivery spares is called once at the most. -/
theorem onlyOnce (trail : Trail audience bus occasions last) (h : bus.Sound) (honce : entry.once = true)
    (hspared : ∀ occasion ∈ occasions, entry ∈ occasion.calls audience → ¬occasion.Spares audience entry) :
    OnlyOnce audience entry occasions last := by
  induction trail with
  | done bus =>
    refine ⟨Nat.zero_le 1, ?_⟩
    intro before occasion later heq
    exact absurd heq.symm (List.append_ne_nil_of_right_ne_nil _ (List.cons_ne_nil _ _))
  | alike same rest ih => exact ih (h.alike same) hspared
  | act action rest ih => exact ih (h.perform action) hspared
  | @deliver last occasions occasion rest ih =>
    obtain ⟨hfirst, hothers⟩ := List.forall_mem_cons.mp hspared
    by_cases hcalled : entry ∈ occasion.calls audience
    · -- the delivery ends it, and the rest of the run never sees it
      have hended := Occasion.ended_after_of_not_spares h hcalled honce (hfirst hcalled)
      obtain ⟨hnever, hlast⟩ := rest.ended hended
      have hcount : (occasions.flatMap (·.calls audience)).count entry = 0 := by
        rw [List.count_eq_zero]
        intro hmem
        obtain ⟨other, hother, hcall⟩ := List.mem_flatMap.mp hmem
        exact (hnever other hother).2 hcall
      refine ⟨?_, ?_⟩
      · rw [List.flatMap_cons, List.count_append, hcount]
        exact Occasion.count_calls_le_one h entry
      · intro before found later heq hfound
        cases before with
        | nil =>
          obtain ⟨rfl, rfl⟩ := List.cons.inj heq
          exact ⟨hended.unlisted, fun other hother => (hnever other hother).1.unlisted, hlast.unlisted⟩
        | cons first before =>
          obtain ⟨-, rfl⟩ := List.cons.inj heq
          exact absurd hfound (hnever found (List.mem_append_right _ List.mem_cons_self)).2
    · obtain ⟨hcount, hgone⟩ := ih (Occasion.sound_after h) hothers
      refine ⟨?_, ?_⟩
      · rw [List.flatMap_cons, List.count_append, List.count_eq_zero.mpr hcalled, Nat.zero_add]
        exact hcount
      · intro before found later heq hfound
        cases before with
        | nil =>
          obtain ⟨rfl, -⟩ := List.cons.inj heq
          exact absurd hfound hcalled
        | cons first before =>
          obtain ⟨-, heq⟩ := List.cons.inj heq
          exact hgone before found later heq hfound

/-- A subscription that a delivery spares is still there after it. -/
theorem not_spares (trail : Trail audience bus occasions last) (h : bus.Sound)
    (honly : OnlyOnce audience entry occasions last) {occasion : Occasion κ α μ}
    (hmem : occasion ∈ occasions) (hcalled : entry ∈ occasion.calls audience) :
    ¬occasion.Spares audience entry := by
  intro hspares
  obtain ⟨before, later, heq⟩ := List.append_of_mem hmem
  have hlists := Occasion.lists_after_of_spares ((trail.sound h).1 occasion hmem) hcalled hspares
  exact (honly.gone before occasion later heq hcalled).1 hlists

end Trail

/-! ### Actions from outside -/

namespace Bus

variable (audience : Audience κ α μ)

theorem trail_drain (fuel : Nat) (bus : Bus κ α) (memory : μ) :
    Trail audience bus (bus.drained audience fuel memory) (bus.drain audience fuel memory).1 := by
  induction fuel generalizing bus memory with
  | zero => exact .done bus
  | succ fuel ih =>
    unfold drained drain
    cases hqueue : bus.queue with
    | nil => exact .done bus
    | cons signal queue =>
      have hpopped : bus.Alike { bus with queue } := ⟨rfl, rfl, rfl⟩
      exact .alike hpopped (.deliver ⟨{ bus with queue }, memory, signal⟩ (ih _ _))

theorem trail_publish (fuel : Nat) (bus : Bus κ α) (memory : μ) (signal : Signal α) :
    Trail audience bus (bus.published audience fuel memory signal)
      (bus.publish audience fuel memory signal).1 := by
  have hdrain := trail_drain audience fuel (deliver audience bus memory signal).bus
    (deliver audience bus memory signal).memory
  have hsettled : (drain audience fuel (deliver audience bus memory signal).bus
      (deliver audience bus memory signal).memory).1.Alike
        (bus.publish audience fuel memory signal).1 := ⟨rfl, rfl, rfl⟩
  have hrest := hdrain.append (.alike hsettled (.done _))
  rw [List.append_nil] at hrest
  exact .deliver ⟨bus, memory, signal⟩ hrest

theorem trail_operate (fuel : Nat) (bus : Bus κ α) (memory : μ) (action : Action κ α) :
    Trail audience bus (bus.operated audience fuel memory action)
      (bus.operate audience fuel memory action).1 := by
  cases action with
  | publish signal => exact trail_publish audience fuel bus memory signal
  | subscribe topic listener priority once weak =>
    exact .act (.subscribe topic listener priority once weak) (.done _)
  | unsubscribe topic listener => exact .act (.unsubscribe topic listener) (.done _)
  | clear topic => exact .act (.clear topic) (.done _)
  | release listener => exact .act (.release listener) (.done _)
  | heard topic => exact .act (.heard topic) (.done _)
  | consume => exact .act .consume (.done _)

theorem trail_runs (fuel : Nat) (actions : List (Action κ α)) (bus : Bus κ α) (memory : μ) :
    Trail audience bus (bus.history audience fuel memory actions)
      (bus.runs audience fuel memory actions).1 := by
  induction actions generalizing bus memory with
  | nil => exact .done bus
  | cons action rest ih => exact (trail_operate audience fuel bus memory action).append (ih _ _)

end Bus

/-! ### A watch to be relieved -/

namespace Watch

/-- The first of two listeners sends the other away, and the other repeats the signal. -/
def audience : Audience Bool Unit Unit where
  program entry signal _ :=
    if entry.listener then .act (.unsubscribe signal.topic false) fun _ => .done ()
    else .act (.publish signal) fun _ => .done ()
  failed _ _ := ()

/-- A listener is entered that goes with the first call, then another one, and there are two signals. -/
def actions (listener : Bool) : List (Action Bool Unit) :=
  [.subscribe .nodeEntered listener 0 true false, .subscribe .nodeEntered (!listener) (-1) true false,
    .publish ⟨.nodeEntered, ()⟩, .publish ⟨.nodeEntered, ()⟩]

/-- The subscription that is entered first. -/
def entry (listener : Bool) : Subscription Bool := ⟨0, listener, 0, true, false⟩

/-- The deliveries, whichever listener comes first. -/
def history (listener : Bool) : List (Occasion Bool Unit Unit) :=
  (Bus.empty []).history audience 3 () (actions listener)

/-- The bus in the end. -/
def last (listener : Bool) : Bus Bool Unit := ((Bus.empty []).runs audience 3 () (actions listener)).1

end Watch

/-- **A subscription that ends with its first call is called once at the most, and gone after that, exactly
if no delivery that calls it spares it**: whoever listens and whatever listeners do to the bus when they are
called, for any actions from outside. -/
theorem onlyOnce_iff (audience : Audience κ α μ) (fuel : Nat) (owned : List κ) (memory : μ)
    (actions : List (Action κ α)) {entry : Subscription κ} (honce : entry.once = true) :
    OnlyOnce audience entry ((Bus.empty owned).history audience fuel memory actions)
        ((Bus.empty owned).runs audience fuel memory actions).1 ↔
      ∀ occasion ∈ (Bus.empty owned).history audience fuel memory actions,
        entry ∈ occasion.calls audience → ¬occasion.Spares audience entry := by
  have htrail := Bus.trail_runs audience fuel actions (.empty owned) memory
  have hsound : (Bus.empty owned : Bus κ α).Sound := Bus.sound_empty owned
  refine ⟨fun honly occasion hmem hcalled => ?_, fun hspared => ?_⟩
  · exact htrail.not_spares hsound honly hmem hcalled
  · exact htrail.onlyOnce hsound honce hspared

/-- The listener who is sent away in the delivery that calls them is called once. -/
theorem onlyOnce_of_leaving :
    OnlyOnce Watch.audience (Watch.entry false) (Watch.history false) (Watch.last false) := by
  refine (onlyOnce_iff Watch.audience 3 [] () (Watch.actions false) rfl).mpr ?_
  show ∀ occasion ∈ Watch.history false, Watch.entry false ∈ occasion.calls Watch.audience →
    ¬occasion.Spares Watch.audience (Watch.entry false)
  decide

/-- The listener who sends the other away is called with every signal and is there in the end. -/
theorem not_onlyOnce_of_sending :
    (Watch.entry true).once = true ∧
      ((Watch.history true).flatMap (·.calls Watch.audience)).count (Watch.entry true) = 3 ∧
        Watch.entry true ∈ (Watch.last true).subscriptions .nodeEntered ∧
          (Watch.last true).heard .nodeEntered = true ∧
            ¬OnlyOnce Watch.audience (Watch.entry true) (Watch.history true) (Watch.last true) := by
  have hcount : ((Watch.history true).flatMap (·.calls Watch.audience)).count (Watch.entry true) = 3 := by
    decide
  refine ⟨rfl, hcount, by decide, by decide, fun honly => ?_⟩
  have hle := honly.once
  rw [hcount] at hle
  omega

end Parley

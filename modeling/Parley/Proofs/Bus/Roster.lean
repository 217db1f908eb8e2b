import Parley.Proofs.Bus.Editions

/-! What becomes of a subscription.

A bus is sound if its subscriptions have serials of their own and its rosters have editions that it has
given out (`Bus.Sound`). Whatever is done to a sound bus leaves it sound. A subscription that is no longer
listed is never listed again (`Bus.Ended`), since a new one gets a serial of its own. One that is listed stays
so, in the edition there is or, after someone else has left its topic, in a later one (`Bus.Held`), until it
is ended. -/
namespace Parley

variable {κ α μ : Type}

namespace Bus

/-! ### Sound buses -/

/-- Every subscription has a serial of its own and every roster an edition, all given out before. -/
structure Sound (bus : Bus κ α) : Prop where
  distinct : ∀ topic, ((bus.subscriptions topic).map Subscription.serial).Nodup
  apart : ∀ topic other, ∀ entry ∈ bus.subscriptions topic, ∀ entry' ∈ bus.subscriptions other,
    entry.serial = entry'.serial → topic = other
  serial_lt : ∀ topic, ∀ entry ∈ bus.subscriptions topic, entry.serial < bus.nextSerial
  edition_lt : ∀ topic edition, bus.edition? topic = some edition → edition < bus.nextEdition

/-- A topic has the subscription. -/
def Lists (bus : Bus κ α) (entry : Subscription κ) : Prop := ∃ topic, entry ∈ bus.subscriptions topic

/-- The subscription was made before, and no topic has it. -/
structure Ended (bus : Bus κ α) (entry : Subscription κ) : Prop where
  old : entry.serial < bus.nextSerial
  unlisted : ¬bus.Lists entry

/-- A topic has the subscription, in a given edition or, if it has moved, in another one. -/
structure Held (bus : Bus κ α) (topic : Topic) (entry : Subscription κ) (edition : Nat)
    (moved : Prop) : Prop where
  listed : entry ∈ bus.subscriptions topic
  only : ∀ other, entry ∈ bus.subscriptions other → other = topic
  old : entry.serial < bus.nextSerial
  edition_lt : edition < bus.nextEdition
  current : ∃ current, bus.edition? topic = some current ∧ (current ≠ edition ↔ moved)

/-- The buses have the same rosters and have given out the same. -/
structure Alike (bus bus' : Bus κ α) : Prop where
  rosters : bus'.rosters = bus.rosters
  nextSerial : bus'.nextSerial = bus.nextSerial
  nextEdition : bus'.nextEdition = bus.nextEdition

theorem Alike.subscriptions {bus bus' : Bus κ α} (same : bus.Alike bus') :
    bus'.subscriptions = bus.subscriptions := by
  unfold Bus.subscriptions
  rw [same.rosters]

theorem Alike.edition? {bus bus' : Bus κ α} (same : bus.Alike bus') : bus'.edition? = bus.edition? := by
  unfold Bus.edition?
  rw [same.rosters]

theorem Sound.alike {bus bus' : Bus κ α} (h : bus.Sound) (same : bus.Alike bus') : bus'.Sound := by
  refine ⟨?_, ?_, ?_, ?_⟩
  · rw [same.subscriptions]
    exact h.distinct
  · rw [same.subscriptions]
    exact h.apart
  · rw [same.subscriptions, same.nextSerial]
    exact h.serial_lt
  · rw [same.edition?, same.nextEdition]
    exact h.edition_lt

theorem Ended.alike {bus bus' : Bus κ α} {entry : Subscription κ} (h : bus.Ended entry)
    (same : bus.Alike bus') : bus'.Ended entry := by
  refine ⟨?_, ?_⟩
  · rw [same.nextSerial]
    exact h.old
  · unfold Lists
    rw [same.subscriptions]
    exact h.unlisted

theorem Held.alike {bus bus' : Bus κ α} {topic : Topic} {entry : Subscription κ} {edition : Nat} {moved : Prop}
    (h : bus.Held topic entry edition moved) (same : bus.Alike bus') : bus'.Held topic entry edition moved := by
  refine ⟨?_, ?_, ?_, ?_, ?_⟩
  · rw [same.subscriptions]
    exact h.listed
  · rw [same.subscriptions]
    exact h.only
  · rw [same.nextSerial]
    exact h.old
  · rw [same.nextEdition]
    exact h.edition_lt
  · rw [same.edition?]
    exact h.current

/-! ### Sound buses, after each operation -/

theorem enter_perm (entry : Subscription κ) (entries : List (Subscription κ)) :
    (enter entry entries).Perm (entry :: entries) := by
  induction entries with
  | nil => exact .refl _
  | cons first rest ih =>
    unfold enter
    split
    · exact .refl _
    · exact (ih.cons first).trans (.swap entry first rest)

/-- Subscriptions may be taken off. -/
theorem Sound.of_sublist {bus bus' : Bus κ α} (h : bus.Sound)
    (hsub : ∀ topic, (bus'.subscriptions topic).Sublist (bus.subscriptions topic))
    (hserial : bus.nextSerial ≤ bus'.nextSerial)
    (hedition : ∀ topic edition, bus'.edition? topic = some edition → edition < bus'.nextEdition) :
    bus'.Sound where
  distinct topic := (h.distinct topic).sublist ((hsub topic).map _)
  apart topic other entry hentry entry' hentry' :=
    h.apart topic other entry ((hsub topic).subset hentry) entry' ((hsub other).subset hentry')
  serial_lt topic entry hentry :=
    Nat.lt_of_lt_of_le (h.serial_lt topic entry ((hsub topic).subset hentry)) hserial
  edition_lt := hedition

theorem Ended.of_sublist {bus bus' : Bus κ α} {entry : Subscription κ} (h : bus.Ended entry)
    (hsub : ∀ topic, (bus'.subscriptions topic).Sublist (bus.subscriptions topic))
    (hserial : bus.nextSerial ≤ bus'.nextSerial) : bus'.Ended entry where
  old := Nat.lt_of_lt_of_le h.old hserial
  unlisted := fun ⟨topic, hlisted⟩ => h.unlisted ⟨topic, (hsub topic).subset hlisted⟩

theorem sublist_clear (bus : Bus κ α) (cleared : Option Topic) (topic : Topic) :
    ((bus.clear cleared).subscriptions topic).Sublist (bus.subscriptions topic) := by
  rw [subscriptions_clear]
  split
  · exact List.nil_sublist _
  · exact .refl _

theorem sublist_unsubscribe [DecidableEq κ] (bus : Bus κ α) (left : Topic) (listener : κ) (topic : Topic) :
    ((bus.unsubscribe left listener).subscriptions topic).Sublist (bus.subscriptions topic) := by
  rw [subscriptions_unsubscribe]
  split
  · rename_i htopic
    rw [htopic]
    exact List.filter_sublist
  · exact .refl _

theorem mem_subscribe {bus : Bus κ α} {entered topic : Topic} {listener : κ} {priority : Int}
    {once weak : Bool} {entry : Subscription κ} :
    entry ∈ (bus.subscribe entered listener priority once weak).subscriptions topic ↔
      (topic = entered ∧ entry = ⟨bus.nextSerial, listener, priority, once, weak⟩) ∨
        entry ∈ bus.subscriptions topic := by
  rw [subscriptions_subscribe]
  by_cases htopic : topic = entered
  · rw [if_pos htopic, mem_enter, htopic]
    simp
  · simp [htopic]

theorem Sound.clear {bus : Bus κ α} (h : bus.Sound) (topic : Option Topic) :
    (bus.clear topic).Sound := by
  obtain ⟨hserial, hedition⟩ := bus.counters_clear topic
  refine h.of_sublist (bus.sublist_clear topic) (Nat.le_of_eq hserial.symm) ?_
  intro other edition hother
  rw [edition?_clear] at hother
  split at hother
  · nomatch hother
  · rw [hedition]
    exact h.edition_lt other edition hother

theorem Sound.unsubscribe [DecidableEq κ] {bus : Bus κ α} (h : bus.Sound) (topic : Topic)
    (listener : κ) : (bus.unsubscribe topic listener).Sound := by
  refine h.of_sublist (bus.sublist_unsubscribe topic listener)
    (Nat.le_of_eq (bus.nextSerial_unsubscribe topic listener).symm) ?_
  intro other edition hother
  rw [edition?_unsubscribe] at hother
  rw [nextEdition_unsubscribe]
  split at hother
  · rename_i hnew
    rw [if_pos hnew.2, ← Option.some.inj hother]
    exact Nat.lt_succ_self _
  · have hlt := h.edition_lt other edition hother
    split
    · exact Nat.lt_succ_of_lt hlt
    · exact hlt

theorem Sound.subscribe {bus : Bus κ α} (h : bus.Sound) (topic : Topic) (listener : κ)
    (priority : Int) (once weak : Bool) :
    (bus.subscribe topic listener priority once weak).Sound where
  distinct other := by
    rw [subscriptions_subscribe]
    split
    · rw [((enter_perm _ _).map Subscription.serial).nodup_iff, List.map_cons, List.nodup_cons]
      refine ⟨?_, h.distinct topic⟩
      intro hmem
      obtain ⟨entry, hentry, hserial⟩ := List.mem_map.mp hmem
      have hlt := h.serial_lt topic entry hentry
      rw [hserial] at hlt
      exact Nat.lt_irrefl _ hlt
    · exact h.distinct other
  apart first second entry hentry entry' hentry' hserial := by
    rcases mem_subscribe.mp hentry with ⟨hfirst, rfl⟩ | hentry
    · rcases mem_subscribe.mp hentry' with ⟨hsecond, -⟩ | hentry'
      · rw [hfirst, hsecond]
      · exact absurd hserial (Nat.ne_of_gt (h.serial_lt second entry' hentry'))
    · rcases mem_subscribe.mp hentry' with ⟨-, rfl⟩ | hentry'
      · exact absurd hserial (Nat.ne_of_lt (h.serial_lt first entry hentry))
      · exact h.apart first second entry hentry entry' hentry' hserial
  serial_lt other entry hentry := by
    rw [nextSerial_subscribe]
    rcases mem_subscribe.mp hentry with ⟨-, rfl⟩ | hentry
    · exact Nat.lt_succ_self _
    · exact Nat.lt_succ_of_lt (h.serial_lt other entry hentry)
  edition_lt other edition hother := by
    rw [edition?_subscribe] at hother
    rw [nextEdition_subscribe]
    split at hother
    · cases htopic : bus.edition? topic with
      | none =>
        rw [htopic] at hother
        rw [if_pos rfl, ← Option.some.inj hother]
        exact Nat.lt_succ_self _
      | some there =>
        rw [htopic] at hother
        rw [if_neg (Option.some_ne_none there), ← Option.some.inj hother]
        exact h.edition_lt topic there htopic
    · have hlt := h.edition_lt other edition hother
      split
      · exact Nat.lt_succ_of_lt hlt
      · exact hlt

theorem sound_empty (owned : List κ) : (empty owned : Bus κ α).Sound where
  distinct _ := List.nodup_nil
  apart _ _ _ h := nomatch h
  serial_lt _ _ h := nomatch h
  edition_lt _ _ h := nomatch h

/-- A listed subscription is held where it is. -/
theorem Sound.held {bus : Bus κ α} (h : bus.Sound) {topic : Topic} {entry : Subscription κ}
    (hentry : entry ∈ bus.subscriptions topic) :
    ∃ edition, bus.edition? topic = some edition ∧ bus.Held topic entry edition False := by
  cases hedition : bus.edition? topic with
  | none =>
    have hnobody : bus.subscriptions topic = [] := by
      rw [edition?, Option.map_eq_none_iff] at hedition
      rw [subscriptions, hedition]
      rfl
    exact absurd (hnobody ▸ hentry) List.not_mem_nil
  | some edition =>
    refine ⟨edition, rfl, hentry, ?_, h.serial_lt topic entry hentry,
      h.edition_lt topic edition hedition, edition, hedition, ?_⟩
    · exact fun other hother => h.apart other topic entry hother entry hentry rfl
    · exact iff_false_intro (not_not_intro rfl)

end Bus

/-! ### Actions -/

namespace Action

/-- The action ends the subscription, if the topic has it. -/
def Ends (topic : Topic) (entry : Subscription κ) : Action κ α → Prop
  | unsubscribe left listener => left = topic ∧ listener = entry.listener
  | clear cleared => cleared = none ∨ cleared = some topic
  | subscribe .. | publish _ | release _ | heard _ | consume => False

/-- The action makes another listener leave the topic, whether or not they are there. -/
def Moves (topic : Topic) (entry : Subscription κ) : Action κ α → Prop
  | unsubscribe left listener => left = topic ∧ listener ≠ entry.listener
  | subscribe .. | clear _ | publish _ | release _ | heard _ | consume => False

variable [DecidableEq κ] (topic : Topic) (entry : Subscription κ)

instance (action : Action κ α) : Decidable (action.Ends topic entry) :=
  match action with
  | unsubscribe _ _ => inferInstanceAs (Decidable (_ ∧ _))
  | clear _ => inferInstanceAs (Decidable (_ ∨ _))
  | subscribe .. | publish _ | release _ | heard _ | consume => inferInstanceAs (Decidable False)

instance (action : Action κ α) : Decidable (action.Moves topic entry) :=
  match action with
  | unsubscribe _ _ => inferInstanceAs (Decidable (_ ∧ _))
  | subscribe .. | clear _ | publish _ | release _ | heard _ | consume =>
    inferInstanceAs (Decidable False)

end Action

namespace Bus

variable [DecidableEq κ] {bus : Bus κ α} {topic : Topic} {entry : Subscription κ}

/-- **Whatever is done to a sound bus leaves it sound.** -/
theorem Sound.perform (h : bus.Sound) (action : Action κ α) : (action.perform bus).1.Sound := by
  cases action with
  | subscribe topic listener priority once weak => exact h.subscribe topic listener priority once weak
  | unsubscribe topic listener => exact h.unsubscribe topic listener
  | clear topic => exact h.clear topic
  | publish signal => exact h.alike ⟨rfl, rfl, rfl⟩
  | release listener => exact h.alike ⟨rfl, rfl, rfl⟩
  | heard topic => exact h
  | consume => exact h

/-- What has ended is not listed again: a new subscription has a new serial. -/
theorem Ended.perform (h : bus.Ended entry) (action : Action κ α) :
    (action.perform bus).1.Ended entry := by
  cases action with
  | subscribe topic listener priority once weak =>
    refine ⟨?_, ?_⟩
    · show entry.serial < (bus.subscribe topic listener priority once weak).nextSerial
      rw [nextSerial_subscribe]
      exact Nat.lt_succ_of_lt h.old
    · rintro ⟨other, hlisted⟩
      rcases mem_subscribe.mp hlisted with ⟨-, rfl⟩ | hlisted
      · exact Nat.lt_irrefl _ h.old
      · exact h.unlisted ⟨other, hlisted⟩
  | unsubscribe topic listener =>
    exact h.of_sublist (bus.sublist_unsubscribe topic listener)
      (Nat.le_of_eq (bus.nextSerial_unsubscribe topic listener).symm)
  | clear topic => exact h.of_sublist (bus.sublist_clear topic) (Nat.le_of_eq (bus.counters_clear topic).1.symm)
  | publish signal => exact h.alike ⟨rfl, rfl, rfl⟩
  | release listener => exact h.alike ⟨rfl, rfl, rfl⟩
  | heard topic => exact h
  | consume => exact h

/-- An action that ends a subscription takes it off. -/
theorem Held.ended {edition : Nat} {moved : Prop} (h : bus.Held topic entry edition moved)
    {action : Action κ α} (hends : action.Ends topic entry) : (action.perform bus).1.Ended entry := by
  cases action with
  | unsubscribe left listener =>
    obtain ⟨rfl, rfl⟩ := hends
    refine ⟨?_, ?_⟩
    · show entry.serial < (bus.unsubscribe left entry.listener).nextSerial
      rw [nextSerial_unsubscribe]
      exact h.old
    · rintro ⟨other, hlisted⟩
      have hother := h.only other ((bus.sublist_unsubscribe left entry.listener other).subset hlisted)
      rw [hother] at hlisted
      change entry ∈ (bus.unsubscribe left entry.listener).subscriptions left at hlisted
      rw [subscriptions_unsubscribe, if_pos rfl, List.mem_filter] at hlisted
      simp at hlisted
  | clear cleared =>
    refine ⟨?_, ?_⟩
    · show entry.serial < (bus.clear cleared).nextSerial
      rw [(bus.counters_clear cleared).1]
      exact h.old
    · rintro ⟨other, hlisted⟩
      have hall : cleared = none ∨ cleared = some topic := hends
      change entry ∈ (bus.clear cleared).subscriptions other at hlisted
      rw [h.only other ((bus.sublist_clear cleared other).subset hlisted), subscriptions_clear,
        if_pos hall] at hlisted
      nomatch hlisted
  | subscribe | publish | release | heard | consume => exact hends.elim

omit [DecidableEq κ] in
theorem Held.congr {edition : Nat} {moved moved' : Prop} (h : bus.Held topic entry edition moved)
    (hiff : moved ↔ moved') : bus.Held topic entry edition moved' := by
  obtain ⟨current, hcurrent, hmoved⟩ := h.current
  exact ⟨h.listed, h.only, h.old, h.edition_lt, current, hcurrent, hmoved.trans hiff⟩

omit [DecidableEq κ] in
theorem Held.subscribe {edition : Nat} {moved : Prop} (h : bus.Held topic entry edition moved)
    (entered : Topic) (listener : κ) (priority : Int) (once weak : Bool) :
    (bus.subscribe entered listener priority once weak).Held topic entry edition moved := by
  obtain ⟨current, hcurrent, hmoved⟩ := h.current
  refine ⟨mem_subscribe.mpr (.inr h.listed), ?_, ?_, ?_, current, ?_, hmoved⟩
  · intro other hother
    rcases mem_subscribe.mp hother with ⟨-, rfl⟩ | hother
    · exact absurd h.old (Nat.lt_irrefl _)
    · exact h.only other hother
  · rw [nextSerial_subscribe]
    exact Nat.lt_succ_of_lt h.old
  · rw [nextEdition_subscribe]
    split
    · exact Nat.lt_succ_of_lt h.edition_lt
    · exact h.edition_lt
  · rw [edition?_subscribe]
    split
    · rename_i htopic
      rw [← htopic, hcurrent]
      rfl
    · exact hcurrent

omit [DecidableEq κ] in
theorem Held.clear {edition : Nat} {moved : Prop} (h : bus.Held topic entry edition moved)
    {cleared : Option Topic} (hother : ¬(cleared = none ∨ cleared = some topic)) :
    (bus.clear cleared).Held topic entry edition moved := by
  obtain ⟨current, hcurrent, hmoved⟩ := h.current
  obtain ⟨hserial, hedition⟩ := bus.counters_clear cleared
  refine ⟨?_, ?_, ?_, ?_, current, ?_, hmoved⟩
  · rw [subscriptions_clear, if_neg hother]
    exact h.listed
  · exact fun other hlisted => h.only other ((bus.sublist_clear cleared other).subset hlisted)
  · rw [hserial]
    exact h.old
  · rw [hedition]
    exact h.edition_lt
  · rw [edition?_clear, if_neg hother]
    exact hcurrent

/-- Whoever leaves whatever topic, a subscription that is still listed is held, in the edition that its topic
has then. -/
theorem Held.unsubscribe {edition : Nat} {moved moved' : Prop} (h : bus.Held topic entry edition moved)
    {left : Topic} {listener : κ} (hlisted : entry ∈ (bus.unsubscribe left listener).subscriptions topic)
    (hcurrent : ∃ current, (bus.unsubscribe left listener).edition? topic = some current ∧
      (current ≠ edition ↔ moved')) : (bus.unsubscribe left listener).Held topic entry edition moved' := by
  refine ⟨hlisted, ?_, ?_, ?_, hcurrent⟩
  · exact fun other hother => h.only other ((bus.sublist_unsubscribe left listener other).subset hother)
  · rw [nextSerial_unsubscribe]
    exact h.old
  · rw [nextEdition_unsubscribe]
    split
    · exact Nat.lt_succ_of_lt h.edition_lt
    · exact h.edition_lt

/-- When another listener leaves the topic, the subscription moves to a new edition. -/
theorem Held.unsubscribe_same {edition : Nat} {moved : Prop} (h : bus.Held topic entry edition moved)
    {listener : κ} (hother : listener ≠ entry.listener) :
    (bus.unsubscribe topic listener).Held topic entry edition True := by
  have hfull : bus.subscriptions topic ≠ [] := List.ne_nil_of_mem h.listed
  refine h.unsubscribe ?_ ⟨bus.nextEdition, ?_, iff_of_true (Nat.ne_of_gt h.edition_lt) trivial⟩
  · rw [subscriptions_unsubscribe, if_pos rfl, List.mem_filter]
    exact ⟨h.listed, by simpa using Ne.symm hother⟩
  · rw [edition?_unsubscribe, if_pos ⟨rfl, hfull⟩]

theorem Held.unsubscribe_other {edition : Nat} {moved : Prop} (h : bus.Held topic entry edition moved)
    {left : Topic} (htopic : topic ≠ left) (listener : κ) :
    (bus.unsubscribe left listener).Held topic entry edition moved := by
  obtain ⟨current, hcurrent, hmoved⟩ := h.current
  refine h.unsubscribe ?_ ⟨current, ?_, hmoved⟩
  · rw [subscriptions_unsubscribe, if_neg htopic]
    exact h.listed
  · rw [edition?_unsubscribe, if_neg fun hboth => htopic hboth.1]
    exact hcurrent

/-- An action that does not end a subscription leaves it in its topic, in the edition there was unless it
makes someone leave. -/
theorem Held.perform {edition : Nat} {moved : Prop} (h : bus.Held topic entry edition moved)
    {action : Action κ α} (hends : ¬action.Ends topic entry) :
    (action.perform bus).1.Held topic entry edition (moved ∨ action.Moves topic entry) := by
  -- most actions make nobody leave
  have hstays : ¬action.Moves topic entry → (moved ↔ moved ∨ action.Moves topic entry) :=
    fun hnot => (or_iff_left hnot).symm
  cases action with
  | subscribe entered listener priority once weak =>
    exact (h.subscribe entered listener priority once weak).congr (hstays not_false)
  | unsubscribe left listener =>
    by_cases htopic : topic = left
    · subst htopic
      have hother : listener ≠ entry.listener := by
        rintro rfl
        exact hends ⟨rfl, rfl⟩
      exact (h.unsubscribe_same hother).congr (iff_of_true trivial (.inr ⟨rfl, hother⟩))
    · have hnot : ¬(Action.unsubscribe left listener : Action κ α).Moves topic entry := by
        rintro ⟨rfl, -⟩
        exact htopic rfl
      exact (h.unsubscribe_other htopic listener).congr (hstays hnot)
  | clear cleared => exact (h.clear hends).congr (hstays not_false)
  | publish signal => exact (h.congr (hstays not_false)).alike ⟨rfl, rfl, rfl⟩
  | release listener => exact (h.congr (hstays not_false)).alike ⟨rfl, rfl, rfl⟩
  | heard asked => exact h.congr (hstays not_false)
  | consume => exact h.congr (hstays not_false)

/-! ### The end of a delivery -/

omit [DecidableEq κ]

theorem sublist_retire (bus : Bus κ α) (retired : Topic) (edition : Option Nat)
    (finished : List (Subscription κ)) (topic : Topic) :
    ((bus.retire retired edition finished).subscriptions topic).Sublist (bus.subscriptions topic) := by
  rw [subscriptions_retire]
  split
  · rename_i hboth
    rw [hboth.1]
    exact List.filter_sublist
  · exact .refl _

theorem Sound.retire (h : bus.Sound) (topic : Topic) (edition : Option Nat)
    (finished : List (Subscription κ)) : (bus.retire topic edition finished).Sound := by
  refine h.of_sublist (bus.sublist_retire topic edition finished) (Nat.le_refl _) ?_
  intro other current hcurrent
  rw [edition?_retire] at hcurrent
  exact h.edition_lt other current hcurrent

theorem Ended.retire (h : bus.Ended entry) (topic : Topic) (edition : Option Nat)
    (finished : List (Subscription κ)) : (bus.retire topic edition finished).Ended entry :=
  h.of_sublist (bus.sublist_retire topic edition finished) (Nat.le_refl _)

/-- A finished subscription that has moved is still listed. -/
theorem Held.lists_retire {edition : Nat} {moved : Prop} (h : bus.Held topic entry edition moved)
    (hmoved : moved) (finished : List (Subscription κ)) :
    (bus.retire topic (some edition) finished).Lists entry := by
  obtain ⟨current, hcurrent, hiff⟩ := h.current
  refine ⟨topic, ?_⟩
  rw [subscriptions_retire, if_neg ?_]
  · exact h.listed
  · rintro ⟨-, hsame⟩
    rw [hcurrent] at hsame
    exact hiff.mpr hmoved (Option.some.inj hsame)

/-- A finished subscription that has not moved is taken off. -/
theorem Held.ended_retire {edition : Nat} {moved : Prop} (h : bus.Held topic entry edition moved)
    (hmoved : ¬moved) {finished : List (Subscription κ)} (hfinished : entry ∈ finished) :
    (bus.retire topic (some edition) finished).Ended entry := by
  obtain ⟨current, hcurrent, hiff⟩ := h.current
  have hsame : bus.edition? topic = some edition := by
    rw [hcurrent, Decidable.not_not.mp (mt hiff.mp hmoved)]
  refine ⟨h.old, ?_⟩
  rintro ⟨other, hlisted⟩
  have hother := h.only other ((bus.sublist_retire topic (some edition) finished other).subset hlisted)
  rw [subscriptions_retire, if_pos ⟨hother, hsame⟩, List.mem_filter] at hlisted
  have hany : finished.any (·.serial == entry.serial) = true :=
    List.any_eq_true.mpr ⟨entry, hfinished, beq_self_eq_true _⟩
  rw [hany] at hlisted
  nomatch hlisted.2

end Bus

end Parley

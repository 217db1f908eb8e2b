import Parley.Bus.Delivery

/-! Editions and counters, after each operation on a bus.

A topic keeps the edition of its roster when someone is entered and gets a new one when someone leaves. The
operations give out serials and editions in order and take none back. -/
namespace Parley

variable {κ α μ : Type}

namespace Bus

/-- The edition of the roster of a topic. -/
def edition? (bus : Bus κ α) (topic : Topic) : Option Nat := (bus.rosters topic).map Roster.edition

/-! ### The editions, after each operation -/

@[simp] theorem edition?_setRoster (bus : Bus κ α) (topic other : Topic) (roster : Option (Roster κ)) :
    (bus.setRoster topic roster).edition? other =
      if other = topic then roster.map Roster.edition else bus.edition? other := by
  unfold edition? setRoster
  by_cases h : other = topic
  · simp [h]
  · simp [h]

@[simp] theorem edition?_withdraw (bus : Bus κ α) (topic other : Topic) :
    (bus.withdraw topic).edition? other = if other = topic then none else bus.edition? other :=
  edition?_setRoster bus topic other none

theorem edition?_foldl_withdraw (topics : List Topic) (bus : Bus κ α) (other : Topic) :
    (topics.foldl withdraw bus).edition? other =
      if other ∈ topics then none else bus.edition? other := by
  induction topics generalizing bus with
  | nil => rfl
  | cons topic rest ih =>
    rw [List.foldl_cons, ih, edition?_withdraw]
    by_cases hrest : other ∈ rest
    · simp [hrest]
    · by_cases h : other = topic
      · simp [h]
      · simp [hrest, h]

/-- A topic with a roster keeps its edition when someone is entered. -/
theorem edition?_subscribe (bus : Bus κ α) (topic other : Topic) (listener : κ) (priority : Int)
    (once weak : Bool) :
    (bus.subscribe topic listener priority once weak).edition? other =
      if other = topic then some ((bus.edition? topic).getD bus.nextEdition) else bus.edition? other := by
  unfold subscribe
  cases h : bus.rosters topic with
  | none =>
    show (bus.setRoster topic _).edition? other = _
    rw [edition?_setRoster]
    simp only [edition?, h]
    rfl
  | some roster =>
    show (bus.setRoster topic _).edition? other = _
    rw [edition?_setRoster]
    simp only [edition?, h]
    rfl

/-- A topic with subscriptions gets a new edition when someone leaves, whether or not they were there. -/
theorem edition?_unsubscribe [DecidableEq κ] (bus : Bus κ α) (topic other : Topic) (listener : κ) :
    (bus.unsubscribe topic listener).edition? other =
      if other = topic ∧ bus.subscriptions topic ≠ [] then some bus.nextEdition
      else bus.edition? other := by
  unfold unsubscribe
  cases h : bus.rosters topic with
  | none => simp [subscriptions, h]
  | some roster =>
    by_cases hempty : roster.entries = []
    · simp [subscriptions, h, hempty]
    · have hentries : bus.subscriptions topic = roster.entries := by simp [subscriptions, h]
      have hfull : ¬roster.entries.isEmpty = true := fun hnil => hempty (List.isEmpty_iff.mp hnil)
      simp only [hfull, hentries]
      show ((bus.withdraw topic).setRoster topic _).edition? other = _
      rw [edition?_setRoster, edition?_withdraw]
      by_cases ho : other = topic
      · simp [ho, hempty]
      · simp [ho]

theorem edition?_clear (bus : Bus κ α) (topic : Option Topic) (other : Topic) :
    (bus.clear topic).edition? other =
      if topic = none ∨ topic = some other then none else bus.edition? other := by
  cases topic with
  | none =>
    show (Topic.all.foldl withdraw bus).edition? other = _
    rw [edition?_foldl_withdraw, if_pos other.mem_all, if_pos (.inl rfl)]
  | some topic =>
    show (bus.withdraw topic).edition? other = _
    rw [edition?_withdraw]
    by_cases h : other = topic
    · simp [h]
    · simp [h, Ne.symm h]

/-! ### The counters, after each operation -/

theorem counters_foldl_withdraw (topics : List Topic) (bus : Bus κ α) :
    (topics.foldl withdraw bus).nextSerial = bus.nextSerial ∧
      (topics.foldl withdraw bus).nextEdition = bus.nextEdition := by
  induction topics generalizing bus with
  | nil => exact ⟨rfl, rfl⟩
  | cons topic rest ih => exact ih (bus.withdraw topic)

theorem counters_clear (bus : Bus κ α) (topic : Option Topic) :
    (bus.clear topic).nextSerial = bus.nextSerial ∧
      (bus.clear topic).nextEdition = bus.nextEdition := by
  cases topic with
  | none => exact counters_foldl_withdraw Topic.all bus
  | some topic => exact ⟨rfl, rfl⟩

@[simp] theorem nextSerial_subscribe (bus : Bus κ α) (topic : Topic) (listener : κ) (priority : Int)
    (once weak : Bool) :
    (bus.subscribe topic listener priority once weak).nextSerial = bus.nextSerial + 1 := by
  unfold subscribe
  split
  · rfl
  · rfl

/-- A new roster takes an edition. -/
theorem nextEdition_subscribe (bus : Bus κ α) (topic : Topic) (listener : κ) (priority : Int)
    (once weak : Bool) :
    (bus.subscribe topic listener priority once weak).nextEdition =
      if bus.edition? topic = none then bus.nextEdition + 1 else bus.nextEdition := by
  unfold subscribe
  cases h : bus.rosters topic with
  | none => simp [edition?, h]
  | some roster =>
    simp only [edition?, h]
    rfl

@[simp] theorem nextSerial_unsubscribe [DecidableEq κ] (bus : Bus κ α) (topic : Topic) (listener : κ) :
    (bus.unsubscribe topic listener).nextSerial = bus.nextSerial := by
  unfold unsubscribe
  split
  · rfl
  · split
    · rfl
    · rfl

theorem nextEdition_unsubscribe [DecidableEq κ] (bus : Bus κ α) (topic : Topic) (listener : κ) :
    (bus.unsubscribe topic listener).nextEdition =
      if bus.subscriptions topic ≠ [] then bus.nextEdition + 1 else bus.nextEdition := by
  unfold unsubscribe
  cases h : bus.rosters topic with
  | none => simp [subscriptions, h]
  | some roster =>
    by_cases hempty : roster.entries = []
    · simp [subscriptions, h, hempty]
    · simp [subscriptions, h, hempty]

/-! ### The end of a delivery -/

/-- Finished subscriptions are taken off if the topic still has the edition. -/
theorem subscriptions_retire (bus : Bus κ α) (topic other : Topic) (edition : Option Nat)
    (finished : List (Subscription κ)) :
    (bus.retire topic edition finished).subscriptions other =
      if other = topic ∧ bus.edition? topic = edition then
        (bus.subscriptions topic).filter fun entry => !finished.any (·.serial == entry.serial)
      else bus.subscriptions other := by
  show (bus.setRoster topic ((bus.rosters topic).map (trimmed edition finished))).subscriptions other = _
  rw [subscriptions_setRoster]
  by_cases hother : other = topic
  · subst hother
    cases h : bus.rosters other with
    | none => simp [subscriptions, h]
    | some roster =>
      by_cases hsame : some roster.edition = edition
      · simp [subscriptions, edition?, trimmed, h, hsame]
      · simp [subscriptions, edition?, trimmed, h, hsame]
  · simp [hother]

@[simp] theorem edition?_retire (bus : Bus κ α) (topic other : Topic) (edition : Option Nat)
    (finished : List (Subscription κ)) :
    (bus.retire topic edition finished).edition? other = bus.edition? other := by
  show (bus.setRoster topic ((bus.rosters topic).map (trimmed edition finished))).edition? other = _
  rw [edition?_setRoster]
  by_cases hother : other = topic
  · subst hother
    cases h : bus.rosters other with
    | none => simp [edition?, h]
    | some roster =>
      by_cases hsame : some roster.edition = edition
      · simp [edition?, trimmed, h, hsame]
      · simp [edition?, trimmed, h, hsame]
  · simp [hother]

end Bus

end Parley

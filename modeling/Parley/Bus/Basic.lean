import Parley.Play.Event

/-! The bus: who listens for what.

For each topic there is a roster of subscriptions, highest priority first and, within a priority, oldest
first. A roster has an edition. Listening enters a subscription into the edition there is; leaving makes a
new edition, so that a delivery that goes by the old one is not disturbed.

A subscription may hold its listener weakly. Such a listener is there only as long as something else keeps
it: its owner, a subscription that holds it strongly, or a delivery under way. A delivery keeps what the
edition holds that it goes by, also when the topic has another one by now. -/
namespace Parley

/-- A listener entered for a topic. -/
structure Subscription (κ : Type) where
  /-- Tells it from every other subscription of the bus. -/
  serial : Nat
  listener : κ
  priority : Int
  /-- Whether it ends with its first call. -/
  once : Bool
  /-- Whether it leaves the listener to be kept by others. -/
  weak : Bool
  deriving DecidableEq, Repr

/-- The subscriptions of a topic. -/
structure Roster (κ : Type) where
  edition : Nat
  entries : List (Subscription κ)
  deriving DecidableEq, Repr

/-- A message to the listeners of a topic. -/
structure Signal (α : Type) where
  topic : Topic
  data : α
  deriving DecidableEq, Repr

/-- Rosters, the signals that wait to be delivered, and what keeps listeners. -/
structure Bus (κ α : Type) where
  rosters : Topic → Option (Roster κ)
  queue : List (Signal α)
  nextSerial : Nat
  nextEdition : Nat
  /-- The listeners that have an owner. -/
  owned : List κ
  /-- The editions that deliveries under way go by. -/
  editions : List Nat
  /-- The rosters of those editions that are no longer the rosters of their topics. -/
  withdrawn : List (Roster κ)
  /-- The listeners that deliveries under way keep beside those of their rosters. -/
  kept : List κ
  /-- The listener that the innermost delivery under way called last. -/
  latest : Option κ

namespace Bus

variable {κ α : Type}

/-- A bus without subscriptions. -/
def empty (owned : List κ) : Bus κ α := ⟨fun _ => none, [], 0, 0, owned, [], [], [], none⟩

/-- The subscriptions of a topic, in the order in which they are called. -/
def subscriptions (bus : Bus κ α) (topic : Topic) : List (Subscription κ) :=
  (bus.rosters topic).elim [] Roster.entries

/-- The bus with another roster for a topic. -/
def setRoster (bus : Bus κ α) (topic : Topic) (roster : Option (Roster κ)) : Bus κ α :=
  { bus with rosters := fun other => if other = topic then roster else bus.rosters other }

/-- A subscription entered before the first of a lower priority. -/
def enter (entry : Subscription κ) : List (Subscription κ) → List (Subscription κ)
  | [] => [entry]
  | other :: rest =>
    if other.priority < entry.priority then entry :: other :: rest else other :: enter entry rest

/-- A listener is entered for a topic. -/
def subscribe (bus : Bus κ α) (topic : Topic) (listener : κ) (priority : Int) (once weak : Bool) :
    Bus κ α :=
  match bus.rosters topic with
  | some roster =>
    { bus.setRoster topic (some { roster with
        entries := enter ⟨bus.nextSerial, listener, priority, once, weak⟩ roster.entries }) with
      nextSerial := bus.nextSerial + 1 }
  | none =>
    { bus.setRoster topic
        (some ⟨bus.nextEdition, [⟨bus.nextSerial, listener, priority, once, weak⟩]⟩) with
      nextSerial := bus.nextSerial + 1
      nextEdition := bus.nextEdition + 1 }

/-- The roster of a topic is taken away; a delivery that goes by it still has it. -/
def withdraw (bus : Bus κ α) (topic : Topic) : Bus κ α :=
  { bus.setRoster topic none with
    withdrawn :=
      ((bus.rosters topic).filter (bus.editions.contains ·.edition)).toList ++ bus.withdrawn }

/-- Every subscription of a listener for a topic is ended. -/
def unsubscribe [DecidableEq κ] (bus : Bus κ α) (topic : Topic) (listener : κ) : Bus κ α :=
  match bus.rosters topic with
  | none => bus
  | some roster =>
    if roster.entries.isEmpty then bus
    else
      { (bus.withdraw topic).setRoster topic
          (some ⟨bus.nextEdition, roster.entries.filter (·.listener ≠ listener)⟩) with
        nextEdition := bus.nextEdition + 1 }

/-- Every subscription for a topic, or for any, is ended. -/
def clear (bus : Bus κ α) : Option Topic → Bus κ α
  | some topic => bus.withdraw topic
  | none => Topic.all.foldl withdraw bus

/-- The owner of a listener lets go of it. -/
def release [DecidableEq κ] (bus : Bus κ α) (listener : κ) : Bus κ α :=
  { bus with owned := bus.owned.filter (· ≠ listener) }

/-! ### The subscriptions of a topic, after each operation -/

@[simp] theorem subscriptions_setRoster (bus : Bus κ α) (topic other : Topic)
    (roster : Option (Roster κ)) :
    (bus.setRoster topic roster).subscriptions other =
      if other = topic then roster.elim [] Roster.entries else bus.subscriptions other := by
  unfold subscriptions setRoster
  by_cases h : other = topic
  · simp [h]
  · simp [h]

@[simp] theorem subscriptions_withdraw (bus : Bus κ α) (topic other : Topic) :
    (bus.withdraw topic).subscriptions other =
      if other = topic then [] else bus.subscriptions other :=
  subscriptions_setRoster bus topic other none

theorem subscriptions_foldl_withdraw (topics : List Topic) (bus : Bus κ α) (other : Topic) :
    (topics.foldl withdraw bus).subscriptions other =
      if other ∈ topics then [] else bus.subscriptions other := by
  induction topics generalizing bus with
  | nil => rfl
  | cons topic rest ih =>
    rw [List.foldl_cons, ih, subscriptions_withdraw]
    by_cases hrest : other ∈ rest
    · simp [hrest]
    · by_cases h : other = topic
      · simp [h]
      · simp [hrest, h]

/-- A new subscription is entered into those of its topic, and no other topic is touched. -/
theorem subscriptions_subscribe (bus : Bus κ α) (topic other : Topic) (listener : κ) (priority : Int)
    (once weak : Bool) :
    (bus.subscribe topic listener priority once weak).subscriptions other =
      if other = topic then
        enter ⟨bus.nextSerial, listener, priority, once, weak⟩ (bus.subscriptions topic)
      else bus.subscriptions other := by
  unfold subscribe
  cases h : bus.rosters topic with
  | none =>
    show (bus.setRoster topic _).subscriptions other = _
    rw [subscriptions_setRoster]
    simp only [subscriptions, h]
    rfl
  | some roster =>
    show (bus.setRoster topic _).subscriptions other = _
    rw [subscriptions_setRoster]
    simp only [subscriptions, h]
    rfl

/-- The subscriptions of the listener for the topic are gone, and nothing else. -/
theorem subscriptions_unsubscribe [DecidableEq κ] (bus : Bus κ α) (topic other : Topic) (listener : κ) :
    (bus.unsubscribe topic listener).subscriptions other =
      if other = topic then (bus.subscriptions topic).filter (·.listener ≠ listener)
      else bus.subscriptions other := by
  unfold unsubscribe
  cases h : bus.rosters topic with
  | none =>
    by_cases ho : other = topic
    · subst ho
      simp [subscriptions, h]
    · simp [ho]
  | some roster =>
    by_cases he : roster.entries.isEmpty = true
    · by_cases ho : other = topic
      · subst ho
        simp only [he, if_true, subscriptions, h, Option.elim]
        rw [List.isEmpty_iff.mp he]
        rfl
      · simp [he, ho]
    · simp only [he]
      show ((bus.withdraw topic).setRoster topic _).subscriptions other = _
      rw [subscriptions_setRoster, subscriptions_withdraw]
      by_cases ho : other = topic
      · simp [ho, subscriptions, h]
      · simp [ho]

theorem subscriptions_clear (bus : Bus κ α) (topic : Option Topic) (other : Topic) :
    (bus.clear topic).subscriptions other =
      if topic = none ∨ topic = some other then [] else bus.subscriptions other := by
  cases topic with
  | none =>
    show (Topic.all.foldl withdraw bus).subscriptions other = _
    rw [subscriptions_foldl_withdraw, if_pos other.mem_all, if_pos (.inl rfl)]
  | some topic =>
    show (bus.withdraw topic).subscriptions other = _
    rw [subscriptions_withdraw]
    by_cases h : other = topic
    · simp [h]
    · simp [h, Ne.symm h]

@[simp] theorem subscriptions_release [DecidableEq κ] (bus : Bus κ α) (listener : κ) (topic : Topic) :
    (bus.release listener).subscriptions topic = bus.subscriptions topic := rfl

/-- Entering adds the subscription and no other. -/
theorem mem_enter {entry other : Subscription κ} {entries : List (Subscription κ)} :
    other ∈ enter entry entries ↔ other = entry ∨ other ∈ entries := by
  induction entries with
  | nil => simp [enter]
  | cons first rest ih =>
    unfold enter
    split
    · simp
    · rw [List.mem_cons, ih, List.mem_cons]
      exact or_left_comm

/-! ### Who is there -/

/-- The listeners that subscriptions hold strongly. -/
def strongly (entries : List (Subscription κ)) : List κ :=
  (entries.filter (!·.weak)).map Subscription.listener

/-- Whether something keeps a listener. -/
def keeps [DecidableEq κ] (bus : Bus κ α) (listener : κ) : Bool :=
  bus.owned.contains listener || bus.kept.contains listener || bus.latest == some listener ||
    (Topic.all.any fun topic => (strongly (bus.subscriptions topic)).contains listener) ||
    bus.withdrawn.any fun roster => (strongly roster.entries).contains listener

/-- Whether the listener of a subscription is there to be called. -/
def answers [DecidableEq κ] (bus : Bus κ α) (entry : Subscription κ) : Bool :=
  !entry.weak || bus.keeps entry.listener

/-- Whether anyone listens for a topic. -/
def heard [DecidableEq κ] (bus : Bus κ α) (topic : Topic) : Bool :=
  (bus.subscriptions topic).any bus.answers

end Bus

end Parley

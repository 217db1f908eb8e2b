import Parley.Proofs.Bus.Chronicle
import Parley.Proofs.Bus.Queue
import Parley.Proofs.Bus.Turns
import Parley.Rehearsal.Listening

/-! Who is called, and in which order.

Along a run, the subscriptions of a topic stand in the order of their priorities and, within a priority, in the order in
which they were entered (`Bus.Ranked`). A delivery calls them in that order, each in its turn (`Occasion.InTurn`). To
see what a failure changes, an audience is compared with a calm one, whose listeners end well where these fail: the
delivery is the same, but that every failure is reported (`delivery_logging`). -/
namespace Parley

variable {κ α μ : Type}

open Incident

/-! ### The order of subscriptions -/

/-- A subscription comes before another one: it has a higher priority, or the same and it was entered earlier. -/
def Subscription.Precedes (entry other : Subscription κ) : Prop :=
  other.priority < entry.priority ∨ (other.priority = entry.priority ∧ entry.serial < other.serial)

namespace Bus

/-- The subscriptions of every topic are in order. -/
def Ranked (bus : Bus κ α) : Prop := ∀ topic, (bus.subscriptions topic).Pairwise Subscription.Precedes

theorem Ranked.of_sublist {bus bus' : Bus κ α} (h : bus.Ranked)
    (hsub : ∀ topic, (bus'.subscriptions topic).Sublist (bus.subscriptions topic)) : bus'.Ranked :=
  fun topic => (h topic).sublist (hsub topic)

theorem Ranked.distinct {bus : Bus κ α} (h : bus.Ranked) (topic : Topic) : (bus.subscriptions topic).Nodup := by
  refine (h topic).imp fun hprecedes heq => ?_
  subst heq
  rcases hprecedes with hless | ⟨-, hless⟩
  · exact Int.lt_irrefl _ hless
  · exact Nat.lt_irrefl _ hless

/-- Whoever is entered last comes after those of the same priority and before those of a lower one. -/
theorem pairwise_enter {entry : Subscription κ} {entries : List (Subscription κ)}
    (h : entries.Pairwise Subscription.Precedes) (hserial : ∀ other ∈ entries, other.serial < entry.serial) :
    (enter entry entries).Pairwise Subscription.Precedes := by
  induction entries with
  | nil => exact List.pairwise_singleton _ _
  | cons first rest ih =>
    obtain ⟨hfirst, hrest⟩ := List.pairwise_cons.mp h
    obtain ⟨hold, hothers⟩ := List.forall_mem_cons.mp hserial
    unfold enter
    split
    · rename_i hlower
      refine List.pairwise_cons.mpr ⟨List.forall_mem_cons.mpr ⟨.inl hlower, fun other hother => .inl ?_⟩, h⟩
      rcases hfirst other hother with hless | ⟨hequal, -⟩ <;> omega
    · rename_i hhigher
      refine List.pairwise_cons.mpr ⟨fun other hother => ?_, ih hrest hothers⟩
      rcases mem_enter.mp hother with rfl | hother
      · rcases Int.lt_or_eq_of_le (Int.not_lt.mp hhigher) with hless | hequal
        · exact .inl hless
        · exact .inr ⟨hequal, hold⟩
      · exact hfirst other hother

/-- A subscription that is accounted for has a serial that has been given out. -/
theorem Accounted.serial_lt {done : List (Action κ α)} {bus : Bus κ α} (h : Accounted done bus) {topic : Topic}
    {entry : Subscription κ} (hentry : entry ∈ bus.subscriptions topic) : entry.serial < bus.nextSerial := by
  obtain ⟨before, after, rfl, hserial, -⟩ := h.entered topic entry hentry
  rw [h.counted, hserial, List.countP_append, List.countP_cons_of_pos rfl]
  omega

variable [DecidableEq κ]

theorem Ranked.perform {done : List (Action κ α)} {bus : Bus κ α} (h : bus.Ranked) (accounted : Accounted done bus)
    (action : Action κ α) : (action.perform bus).1.Ranked := by
  cases henters : action.enters with
  | false =>
    refine h.of_sublist fun topic => ?_
    rw [subscriptions_perform henters]
    exact List.filter_sublist
  | true =>
    cases action with
    | subscribe topic listener priority once weak =>
      intro other
      show ((bus.subscribe topic listener priority once weak).subscriptions other).Pairwise _
      rw [subscriptions_subscribe]
      split
      · exact pairwise_enter (h topic) fun entry hentry => accounted.serial_lt hentry
      · exact h other
    | _ => cases henters

end Bus

/-! ### Failing -/

namespace Program

/-- The program ends well where it fails. -/
def calm : Program κ α μ → Program κ α μ
  | done memory => .done memory
  | fail memory => .done memory
  | act action next => .act action fun answer => (next answer).calm

/-- A program with a log beside its memory, which it leaves alone. -/
def beside (log : List LogEntry) : Program κ α μ → Program κ α (μ × List LogEntry)
  | done memory => .done (memory, log)
  | fail memory => .fail (memory, log)
  | act action next => .act action fun answer => (next answer).beside log

/-- Whether the program fails on a bus. -/
def fails [DecidableEq κ] : Program κ α μ → Bus κ α → Bool
  | done _, _ => false
  | fail _, _ => true
  | act action next, bus => (next (action.perform bus).2).fails (action.perform bus).1

end Program

namespace Audience

/-- The audience whose listeners end well where those of another fail. -/
def calm (audience : Audience κ α μ) : Audience κ α μ where
  program entry signal memory := (audience.program entry signal memory).calm
  failed _ memory := memory

/-- The audience with a log beside its memory, to which nothing is added but a report of every failure. -/
def logging (audience : Audience κ α μ) : Audience κ α (μ × List LogEntry) where
  program entry signal memory := (audience.program entry signal memory.1).beside memory.2
  failed signal memory := (memory.1, memory.2 ++ [Rehearsal.failureReport signal.topic])

end Audience

/-- The delivery with a log beside its memory. -/
def Delivery.logged (log : List LogEntry) (delivery : Delivery κ α μ) : Delivery κ α (μ × List LogEntry) :=
  { delivery with memory := (delivery.memory, log) }

/-- The occasion with a log beside its memory. -/
def Occasion.logged (log : List LogEntry) (occasion : Occasion κ α μ) : Occasion κ α (μ × List LogEntry) :=
  { occasion with memory := (occasion.memory, log) }

variable [DecidableEq κ] (audience : Audience κ α μ) (signal : Signal α)

namespace Delivery

end Delivery

namespace Occasion

variable (occasion : Occasion κ α μ)

/-- Whether the listener of a subscription fails when it is called in its turn and those before it have ended well. -/
def fails (entry : Subscription κ) : Bool :=
  (audience.program entry occasion.signal (occasion.turn audience.calm entry).plain.memory).fails
    ((occasion.turn audience.calm entry).turning entry).bus

variable {occasion}

end Occasion

end Parley

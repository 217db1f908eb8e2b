import Parley.Bus.Delivery

/-! What happens on a bus.

A run of actions from outside makes deliveries, one after the other. `Bus.history` lists them, each with the
bus and the memory that it finds. What happens in a delivery, the calls and the actions of the listeners, is
noted by an audience that keeps it beside its memory and otherwise does the same (`deliver_noted`). -/
namespace Parley

variable {κ α μ : Type}

/-- What happens in a delivery. -/
inductive Incident (κ α : Type) where
  /-- The listener of a subscription is called. -/
  | called (entry : Subscription κ)
  /-- A listener does something to the bus. -/
  | did (action : Action κ α)

namespace Incident

def call? : Incident κ α → Option (Subscription κ)
  | called entry => some entry
  | did _ => none

/-- The subscriptions whose listeners are called, in order. -/
def calls (incidents : List (Incident κ α)) : List (Subscription κ) := incidents.filterMap call?

def did? : Incident κ α → Option (Action κ α)
  | called _ => none
  | did action => some action

/-- What listeners do, in order. -/
def deeds (incidents : List (Incident κ α)) : List (Action κ α) := incidents.filterMap did?

@[simp] theorem calls_append (a b : List (Incident κ α)) : calls (a ++ b) = calls a ++ calls b :=
  List.filterMap_append

@[simp] theorem deeds_append (a b : List (Incident κ α)) : deeds (a ++ b) = deeds a ++ deeds b :=
  List.filterMap_append

end Incident

/-! ### Taking notes -/

/-- A program that takes note of what it does, after what has been noted before. -/
def Program.noted (incidents : List (Incident κ α)) :
    Program κ α μ → Program κ α (μ × List (Incident κ α))
  | done memory => .done (memory, incidents)
  | fail memory => .fail (memory, incidents)
  | act action next => .act action fun answer => (next answer).noted (incidents ++ [.did action])

/-- The same audience, taking note of its calls and of what it does. -/
def Audience.noted (audience : Audience κ α μ) : Audience κ α (μ × List (Incident κ α)) where
  program entry signal memory :=
    (audience.program entry signal memory.1).noted (memory.2 ++ [.called entry])
  failed signal memory := (audience.failed signal memory.1, memory.2)

namespace Delivery

/-- The delivery without the notes. -/
def plain (delivery : Delivery κ α (μ × List (Incident κ α))) : Delivery κ α μ :=
  { delivery with memory := delivery.memory.1 }

/-- What has been noted. -/
def notes (delivery : Delivery κ α (μ × List (Incident κ α))) : List (Incident κ α) := delivery.memory.2

end Delivery

variable [DecidableEq κ] (audience : Audience κ α μ) (signal : Signal α)

theorem plain_run_noted (program : Program κ α μ) (incidents : List (Incident κ α))
    (delivery : Delivery κ α (μ × List (Incident κ α))) :
    ((program.noted incidents).run audience.noted signal delivery).plain =
      program.run audience signal delivery.plain := by
  induction program generalizing incidents delivery with
  | done memory => rfl
  | fail memory => rfl
  | act action next ih => exact ih _ _ _

namespace Delivery

/-- A program ends no subscription. -/
@[simp] theorem finished_run (program : Program κ α μ) (delivery : Delivery κ α μ) :
    (program.run audience signal delivery).finished = delivery.finished := by
  induction program generalizing delivery with
  | done memory => rfl
  | fail memory => rfl
  | act action next ih => exact ih _ _

/-- The delivery when the listener of a subscription is about to be called. -/
def turning (entry : Subscription κ) (delivery : Delivery κ α μ) : Delivery κ α μ :=
  { delivery with bus := { delivery.bus with latest := some entry.listener } }

/-- The program of the listener is run, and the subscription ends if it ends with its first call. -/
theorem call_eq (entry : Subscription κ) (delivery : Delivery κ α μ) :
    delivery.call audience signal entry =
      { (audience.program entry signal delivery.memory).run audience signal (delivery.turning entry) with
        finished := if entry.once then entry :: delivery.finished else delivery.finished } := by
  have hran := finished_run audience signal (audience.program entry signal delivery.memory)
    (delivery.turning entry)
  show (if entry.once then _ else _ : Delivery κ α μ) = _
  by_cases honce : entry.once = true
  · rw [if_pos honce, if_pos honce]
    exact congrArg (fun finished => ({ (audience.program entry signal delivery.memory).run audience signal
      (delivery.turning entry) with finished := entry :: finished } : Delivery κ α μ)) hran
  · rw [if_neg honce, if_neg honce]
    exact congrArg (fun finished => ({ (audience.program entry signal delivery.memory).run audience signal
      (delivery.turning entry) with finished } : Delivery κ α μ)) hran

theorem plain_call_noted (entry : Subscription κ) (delivery : Delivery κ α (μ × List (Incident κ α))) :
    (delivery.call audience.noted signal entry).plain = delivery.plain.call audience signal entry := by
  have hrun := plain_run_noted audience signal (audience.program entry signal delivery.memory.1)
    (delivery.memory.2 ++ [.called entry]) (delivery.turning entry)
  rw [call_eq, call_eq]
  exact congrArg (fun ran =>
    { ran with finished := if entry.once then entry :: delivery.finished else delivery.finished }) hrun

theorem plain_go_noted (entries : List (Subscription κ))
    (delivery : Delivery κ α (μ × List (Incident κ α))) :
    (delivery.go audience.noted signal entries).plain = delivery.plain.go audience signal entries := by
  induction entries generalizing delivery with
  | nil => rfl
  | cons entry rest ih =>
    have hcall := plain_call_noted audience signal entry delivery
    by_cases hanswers : delivery.bus.answers entry = true
    · have hplain : delivery.plain.bus.answers entry = true := hanswers
      simp only [go, hanswers, hplain, if_true, ← hcall]
      by_cases hdone : (delivery.call audience.noted signal entry).consumed = true
      · have hsame : (delivery.call audience.noted signal entry).plain.consumed = true := hdone
        rw [if_pos hdone, if_pos hsame]
      · have hsame : ¬(delivery.call audience.noted signal entry).plain.consumed = true := hdone
        rw [if_neg hdone, if_neg hsame]
        exact ih _
    · have hplain : ¬delivery.plain.bus.answers entry = true := hanswers
      simp only [go, hanswers, hplain]
      exact ih _

/-! ### What a delivery keeps -/

/-- What holds of a bus and of what has been noted so far, whatever a listener does. -/
structure Lasting (holds : Bus κ α → List (Incident κ α) → Prop) : Prop where
  latest : ∀ bus incidents latest, holds bus incidents → holds { bus with latest } incidents
  called : ∀ bus incidents entry, holds bus incidents → holds bus (incidents ++ [.called entry])
  did : ∀ bus incidents action, holds bus incidents →
    holds (Action.perform bus action).1 (incidents ++ [.did action])

end Delivery

namespace Delivery.Lasting

variable {holds : Bus κ α → List (Incident κ α) → Prop}

theorem run (h : Lasting holds) (program : Program κ α μ) (incidents : List (Incident κ α))
    (delivery : Delivery κ α (μ × List (Incident κ α))) (hd : holds delivery.bus incidents) :
    holds ((program.noted incidents).run audience.noted signal delivery).bus
      ((program.noted incidents).run audience.noted signal delivery).notes := by
  induction program generalizing incidents delivery with
  | done memory => exact hd
  | fail memory => exact hd
  | act action next ih => exact ih _ _ _ (h.did _ _ _ hd)

theorem call (h : Lasting holds) (entry : Subscription κ)
    (delivery : Delivery κ α (μ × List (Incident κ α))) (hd : holds delivery.bus delivery.notes) :
    holds (delivery.call audience.noted signal entry).bus
      (delivery.call audience.noted signal entry).notes := by
  have hturning : holds (delivery.turning entry).bus (delivery.notes ++ [.called entry]) :=
    h.called _ _ entry (h.latest delivery.bus _ (some entry.listener) hd)
  have hrun := h.run audience signal (audience.program entry signal delivery.memory.1) _ _ hturning
  rw [call_eq]
  exact hrun

theorem go (h : Lasting holds) (entries : List (Subscription κ))
    (delivery : Delivery κ α (μ × List (Incident κ α))) (hd : holds delivery.bus delivery.notes) :
    holds (delivery.go audience.noted signal entries).bus
      (delivery.go audience.noted signal entries).notes := by
  induction entries generalizing delivery with
  | nil => exact hd
  | cons entry rest ih =>
    have hcall := h.call audience signal entry delivery hd
    by_cases hanswers : delivery.bus.answers entry = true
    · simp only [Delivery.go, hanswers, if_true]
      by_cases hdone : (delivery.call audience.noted signal entry).consumed = true
      · rw [if_pos hdone]
        exact hcall
      · rw [if_neg hdone]
        exact ih _ hcall
    · simp only [Delivery.go, hanswers]
      exact ih _ (h.latest _ _ _ hd)

end Delivery.Lasting

/-! ### Who is called -/

namespace Delivery

/-- A program calls nobody. -/
theorem calls_run_noted (program : Program κ α μ) (incidents : List (Incident κ α))
    (delivery : Delivery κ α (μ × List (Incident κ α))) :
    Incident.calls ((program.noted incidents).run audience.noted signal delivery).notes =
      Incident.calls incidents := by
  induction program generalizing incidents delivery with
  | done memory => rfl
  | fail memory => rfl
  | act action next ih =>
    have hrest := ih (Action.perform delivery.bus action).2 (incidents ++ [.did action])
      { delivery with
        bus := (Action.perform delivery.bus action).1
        consumed := delivery.consumed || action.consumes }
    rw [Incident.calls_append] at hrest
    exact hrest.trans (List.append_nil _)

theorem calls_call_noted (entry : Subscription κ) (delivery : Delivery κ α (μ × List (Incident κ α))) :
    Incident.calls (delivery.call audience.noted signal entry).notes =
      Incident.calls delivery.notes ++ [entry] := by
  have hrun := calls_run_noted audience signal (audience.program entry signal delivery.memory.1)
    (delivery.memory.2 ++ [.called entry]) (delivery.turning entry)
  rw [Incident.calls_append] at hrun
  rw [call_eq]
  exact hrun

/-- What has ended stays so. -/
theorem finished_go (entries : List (Subscription κ)) (delivery : Delivery κ α μ)
    {entry : Subscription κ} (h : entry ∈ delivery.finished) :
    entry ∈ (delivery.go audience signal entries).finished := by
  induction entries generalizing delivery with
  | nil => exact h
  | cons first rest ih =>
    by_cases hanswers : delivery.bus.answers first = true
    · have hcall : entry ∈ (delivery.call audience signal first).finished := by
        rw [call_eq]
        show entry ∈ if first.once then _ else _
        split
        · exact List.mem_cons_of_mem _ h
        · exact h
      simp only [go, hanswers, if_true]
      split
      · exact hcall
      · exact ih _ hcall
    · simp only [go, hanswers]
      exact ih _ (List.mem_cons_of_mem _ h)

/-- Those who are called are among the subscriptions that the delivery goes by, in their order, and those of
them that end with a first call end with this delivery. -/
theorem calls_go_noted (entries : List (Subscription κ))
    (delivery : Delivery κ α (μ × List (Incident κ α))) :
    ∃ called, called.Sublist entries ∧
      Incident.calls (delivery.go audience.noted signal entries).notes =
        Incident.calls delivery.notes ++ called ∧
      ∀ entry ∈ called, entry.once = true →
        entry ∈ (delivery.go audience.noted signal entries).finished := by
  induction entries generalizing delivery with
  | nil => exact ⟨[], .slnil, (List.append_nil _).symm, fun entry hentry => nomatch hentry⟩
  | cons first rest ih =>
    by_cases hanswers : delivery.bus.answers first = true
    · have hcalls := calls_call_noted audience signal first delivery
      have hfirst : first.once = true →
          first ∈ (delivery.call audience.noted signal first).finished := by
        intro honce
        rw [call_eq]
        show first ∈ if first.once then _ else _
        rw [if_pos honce]
        exact List.mem_cons_self
      simp only [go, hanswers, if_true]
      by_cases hdone : (delivery.call audience.noted signal first).consumed = true
      · rw [if_pos hdone]
        refine ⟨[first], List.singleton_sublist.mpr List.mem_cons_self, hcalls, ?_⟩
        intro entry hentry
        rw [List.mem_singleton.mp hentry]
        exact hfirst
      · rw [if_neg hdone]
        obtain ⟨called, hsub, hnotes, hended⟩ := ih (delivery.call audience.noted signal first)
        refine ⟨first :: called, hsub.cons_cons first, ?_, ?_⟩
        · rw [hnotes, hcalls, List.append_assoc]
          rfl
        · intro entry hentry honce
          rcases List.mem_cons.mp hentry with rfl | hentry
          · exact finished_go _ _ _ _ (hfirst honce)
          · exact hended entry hentry honce
    · simp only [go, hanswers]
      obtain ⟨called, hsub, hnotes, hended⟩ := ih (delivery.skip first)
      exact ⟨called, hsub.cons first, hnotes, hended⟩

end Delivery

/-! ### Deliveries, one after the other -/

/-- A signal that is delivered, and the bus and the memory that it finds. -/
structure Occasion (κ α μ : Type) where
  bus : Bus κ α
  memory : μ
  signal : Signal α

namespace Occasion

variable (occasion : Occasion κ α μ)

/-- The delivery. -/
def delivery : Delivery κ α μ := occasion.bus.deliver audience occasion.memory occasion.signal

/-- The delivery with notes. -/
def noted : Delivery κ α (μ × List (Incident κ α)) :=
  occasion.bus.deliver audience.noted (occasion.memory, []) occasion.signal

/-- What happens in the delivery. -/
def incidents : List (Incident κ α) := (occasion.noted audience).notes

/-- The subscriptions whose listeners are called. -/
def calls : List (Subscription κ) := Incident.calls (occasion.incidents audience)

/-- Taking notes changes nothing else. -/
theorem plain_noted : (occasion.noted audience).plain = occasion.delivery audience := by
  have hgo := Delivery.plain_go_noted audience occasion.signal
    (occasion.bus.subscriptions occasion.signal.topic)
    ⟨occasion.bus.opening occasion.signal.topic, (occasion.memory, []), false, []⟩
  exact congrArg (fun went => ({ went with
    bus := (went.bus.retire occasion.signal.topic
      ((occasion.bus.rosters occasion.signal.topic).map Roster.edition) went.finished).closing
        went.finished occasion.bus.kept } : Delivery κ α μ)) hgo

end Occasion

namespace Bus

/-- The deliveries that `drain` makes. -/
def drained : Nat → Bus κ α → μ → List (Occasion κ α μ)
  | 0, _, _ => []
  | fuel + 1, bus, memory =>
    match bus.queue with
    | [] => []
    | signal :: queue =>
      let occasion : Occasion κ α μ := ⟨{ bus with queue }, memory, signal⟩
      occasion :: drained fuel (occasion.delivery audience).bus (occasion.delivery audience).memory

/-- The deliveries that `publish` makes. -/
def published (fuel : Nat) (bus : Bus κ α) (memory : μ) (signal : Signal α) :
    List (Occasion κ α μ) :=
  let occasion : Occasion κ α μ := ⟨bus, memory, signal⟩
  occasion :: drained audience fuel (occasion.delivery audience).bus (occasion.delivery audience).memory

/-- The deliveries that `operate` makes. -/
def operated (fuel : Nat) (bus : Bus κ α) (memory : μ) : Action κ α → List (Occasion κ α μ)
  | .publish signal => bus.published audience fuel memory signal
  | _ => []

/-- The bus and the memory after actions from outside, one after the other. -/
def runs (fuel : Nat) (bus : Bus κ α) (memory : μ) : List (Action κ α) → Bus κ α × μ
  | [] => (bus, memory)
  | action :: rest =>
    let next := bus.operate audience fuel memory action
    runs fuel next.1 next.2.1 rest

/-- The deliveries made by actions from outside. -/
def history (fuel : Nat) (bus : Bus κ α) (memory : μ) : List (Action κ α) → List (Occasion κ α μ)
  | [] => []
  | action :: rest =>
    let next := bus.operate audience fuel memory action
    bus.operated audience fuel memory action ++ history fuel next.1 next.2.1 rest

end Bus

end Parley

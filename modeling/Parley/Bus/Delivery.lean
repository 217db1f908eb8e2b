import Parley.Bus.Basic

/-! Delivery: listeners are called.

A signal goes to the subscriptions that its topic has when its delivery begins, one after the other, until
one of them consumes it. What listeners do to the bus in the meantime does not change who is called. A
signal published by a listener waits in a queue until the delivery is over; signals leave the queue in the
order in which they came. Each is delivered before the publication is over of the one that left the queue before
it, so one delivery stands within another, and there is only so much room. A publication for which it does not
suffice fails, and leaves signals in the queue. -/
namespace Parley

/-- What may be done to a bus. -/
inductive Action (κ α : Type) where
  | subscribe (topic : Topic) (listener : κ) (priority : Int) (once weak : Bool)
  | unsubscribe (topic : Topic) (listener : κ)
  | clear (topic : Option Topic)
  | publish (signal : Signal α)
  | release (listener : κ)
  /-- Ask whether anyone listens. -/
  | heard (topic : Topic)
  /-- Keep the signal from the listeners that come later. -/
  | consume

/-- What a listener does when it is called: actions, each chosen in view of the answers so far, and then
it is done, or it fails. It leaves a memory of the type `μ`. -/
inductive Program (κ α μ : Type) where
  | done (memory : μ)
  | fail (memory : μ)
  | act (action : Action κ α) (next : Bool → Program κ α μ)

/-- What listeners do, in view of the memory that those before them left, and how a failure is
remembered. -/
structure Audience (κ α μ : Type) where
  program : Subscription κ → Signal α → μ → Program κ α μ
  failed : Signal α → μ → μ

/-- A delivery under way. -/
structure Delivery (κ α μ : Type) where
  bus : Bus κ α
  memory : μ
  consumed : Bool
  /-- The subscriptions that end with this delivery. -/
  finished : List (Subscription κ)

variable {κ α μ : Type} [DecidableEq κ]

/-- The bus after an action of a listener, and the answer; only a question has an answer that matters. -/
def Action.perform (bus : Bus κ α) : Action κ α → Bus κ α × Bool
  | subscribe topic listener priority once weak => (bus.subscribe topic listener priority once weak, true)
  | unsubscribe topic listener => (bus.unsubscribe topic listener, true)
  | clear topic => (bus.clear topic, true)
  | publish signal => ({ bus with queue := bus.queue ++ [signal] }, true)
  | release listener => (bus.release listener, true)
  | heard topic => (bus, bus.heard topic)
  | consume => (bus, true)

/-- Whether an action consumes the signal. -/
def Action.consumes : Action κ α → Bool
  | consume => true
  | _ => false

/-- A program is run. -/
def Program.run (audience : Audience κ α μ) (signal : Signal α) (delivery : Delivery κ α μ) :
    Program κ α μ → Delivery κ α μ
  | done memory => { delivery with memory }
  | fail memory => { delivery with memory := audience.failed signal memory }
  | act action next =>
    let (bus, answer) := action.perform delivery.bus
    (next answer).run audience signal
      { delivery with bus, consumed := delivery.consumed || action.consumes }

namespace Delivery

/-- The listener of a subscription is called. -/
def call (audience : Audience κ α μ) (signal : Signal α) (entry : Subscription κ)
    (delivery : Delivery κ α μ) : Delivery κ α μ :=
  let delivery := { delivery with bus := { delivery.bus with latest := some entry.listener } }
  let delivery := (audience.program entry signal delivery.memory).run audience signal delivery
  if entry.once then { delivery with finished := entry :: delivery.finished } else delivery

/-- A subscription whose listener is gone ends. -/
def skip (entry : Subscription κ) (delivery : Delivery κ α μ) : Delivery κ α μ :=
  { delivery with
    bus := { delivery.bus with latest := none }
    finished := entry :: delivery.finished }

/-- The signal goes to subscriptions in turn, until it is consumed. -/
def go (audience : Audience κ α μ) (signal : Signal α) :
    List (Subscription κ) → Delivery κ α μ → Delivery κ α μ
  | [], delivery => delivery
  | entry :: rest, delivery =>
    if delivery.bus.answers entry then
      let delivery := delivery.call audience signal entry
      if delivery.consumed then delivery else go audience signal rest delivery
    else go audience signal rest (delivery.skip entry)

end Delivery

namespace Bus

/-- The bus when a delivery begins: the delivery goes by the edition there is of the roster of its topic,
and while it calls, it keeps the listeners that its subscriptions hold strongly. -/
def opening (bus : Bus κ α) (topic : Topic) : Bus κ α :=
  { bus with
    editions := ((bus.rosters topic).map Roster.edition).toList ++ bus.editions
    kept := strongly (bus.subscriptions topic) ++ bus.kept
    latest := none }

/-- The bus when a delivery has made its calls: beside what the roster holds that it goes by, it keeps the
listener that it called last and those that its finished subscriptions hold strongly. What deliveries
around it keep is given. -/
def closing (bus : Bus κ α) (finished : List (Subscription κ)) (around : List κ) : Bus κ α :=
  { bus with kept := strongly finished ++ bus.latest.toList ++ around, latest := none }

/-- A roster without finished subscriptions, if it is of an edition. -/
def trimmed (edition : Option Nat) (finished : List (Subscription κ)) (roster : Roster κ) : Roster κ :=
  if some roster.edition = edition then
    { roster with
      entries := roster.entries.filter fun entry => !finished.any (·.serial == entry.serial) }
  else roster

/-- Finished subscriptions are taken off the roster of a topic that is of an edition, also if it has been
withdrawn. -/
def retire (bus : Bus κ α) (topic : Topic) (edition : Option Nat) (finished : List (Subscription κ)) :
    Bus κ α :=
  { bus.setRoster topic ((bus.rosters topic).map (trimmed edition finished)) with
    withdrawn := bus.withdrawn.map (trimmed edition finished) }

/-- One signal is delivered. What it leaves has the subscriptions taken off that ended with it. -/
def deliver (audience : Audience κ α μ) (bus : Bus κ α) (memory : μ) (signal : Signal α) :
    Delivery κ α μ :=
  let delivery : Delivery κ α μ := ⟨bus.opening signal.topic, memory, false, []⟩
  let delivery := delivery.go audience signal (bus.subscriptions signal.topic)
  let edition := (bus.rosters signal.topic).map Roster.edition
  { delivery with
    bus := (delivery.bus.retire signal.topic edition delivery.finished).closing delivery.finished bus.kept }

/-- How many deliveries there is room for within the first. -/
def deepest : Nat := 990

/-- The waiting signals are delivered, first in, first out, `fuel` of them at the most. -/
def drain (audience : Audience κ α μ) : Nat → Bus κ α → μ → Bus κ α × μ
  | 0, bus, memory => (bus, memory)
  | fuel + 1, bus, memory =>
    match bus.queue with
    | [] => (bus, memory)
    | signal :: queue =>
      let delivery := deliver audience { bus with queue } memory signal
      drain audience fuel delivery.bus delivery.memory

/-- Nothing is under way any more. -/
def settled (bus : Bus κ α) : Bus κ α :=
  { bus with editions := [], withdrawn := [], kept := [], latest := none }

/-- A signal is published while none is under way: it is delivered, and then those that wait, with room for
`fuel` of them. The last part says whether the signal was consumed; there is no answer if a signal is left that
there is no room for. That signal is lost, and those behind it wait on. -/
def publish (audience : Audience κ α μ) (fuel : Nat) (bus : Bus κ α) (memory : μ) (signal : Signal α) :
    Bus κ α × μ × Option Bool :=
  let delivery := deliver audience bus memory signal
  let (bus, memory) := drain audience fuel delivery.bus delivery.memory
  ({ bus.settled with queue := bus.queue.tail }, memory,
    if bus.queue.isEmpty then some delivery.consumed else none)

/-- An action from outside, while no signal is under way, and the answer: whether a published signal was
consumed, or what a question asks. Only a publication may have none. -/
def operate (audience : Audience κ α μ) (fuel : Nat) (bus : Bus κ α) (memory : μ) :
    Action κ α → Bus κ α × μ × Option Bool
  | .publish signal => bus.publish audience fuel memory signal
  | action =>
    let (bus, answer) := action.perform bus
    (bus, memory, some answer)

end Bus

end Parley

import Parley.Proofs.Bus.Posting

/-! Publishing as one recursion.

Here a bus has a mark that says whether a delivery is under way, and there is one way to publish, for listeners
and for anyone else: with the mark, the signal waits; without it, the signal is dispatched. To dispatch is to
set the mark, make the calls, take the mark away, and then dispatch what waits, so one dispatch stands within
another, and there is only so much room. This does what the loop does that takes one waiting signal after the
other, moment by moment (`Desk.publish_eq`). So whatever listeners do, signals are delivered first in, first out;
but what they publish is all delivered only if there is room for it, and else the publication raises
(`publish_fifo_iff`). -/
namespace Parley

variable {κ α μ : Type}

/-- A moment of a run. -/
inductive Moment (κ α : Type) where
  | began (signal : Signal α)
  /-- Something happens in the delivery of a signal. -/
  | within (signal : Signal α) (incident : Incident κ α)
  | over (signal : Signal α)

/-- A bus with its mark, and the moments so far. -/
structure Desk (κ α μ : Type) where
  bus : Bus κ α
  memory : μ
  dispatching : Bool
  moments : List (Moment κ α)

/-- How a call ends. -/
inductive Ending where
  | returned
  | raised
  deriving DecidableEq, Repr

/-- What a publication answers, namely whether its signal was consumed; when it raises, it answers nothing. -/
def Ending.answer (consumed : Bool) : Ending → Option Bool
  | returned => some consumed
  | raised => none

namespace Desk

/-- Someone dispatches a signal; no result means that a loop is not over within its rounds. -/
abbrev Dispatch (κ α μ : Type) : Type := Signal α → Desk κ α μ → Option (Desk κ α μ × Bool × Ending)

def note (desk : Desk κ α μ) (moment : Moment κ α) : Desk κ α μ :=
  { desk with moments := desk.moments ++ [moment] }

/-- A signal waits, or it is dispatched. The answer says whether it was consumed. -/
def send (dispatch : Dispatch κ α μ) : Dispatch κ α μ := fun signal desk =>
  if desk.dispatching then
    some ({ desk with bus := { desk.bus with queue := desk.bus.queue ++ [signal] } }, false, .returned)
  else dispatch signal desk

variable [DecidableEq κ]

/-- The body of a listener is run, within the delivery of a signal that may have been consumed. -/
def body (dispatch : Dispatch κ α μ) (signal : Signal α) (consumed : Bool) (desk : Desk κ α μ) :
    Program κ α μ → Option (Desk κ α μ × Bool × Ending)
  | .done memory => some ({ desk with memory }, consumed, .returned)
  | .fail memory => some ({ desk with memory }, consumed, .raised)
  | .act (.publish other) next =>
    match send dispatch other (desk.note (.within signal (.did (.publish other)))) with
    | none => none
    | some (desk, _, .raised) => some (desk, consumed, .raised)
    | some (desk, _, .returned) => body dispatch signal consumed desk (next true)
  | .act action next =>
    let (bus, answer) := action.perform desk.bus
    body dispatch signal (consumed || action.consumes) { desk.note (.within signal (.did action)) with bus }
      (next answer)

/-- What a listener raises is caught and remembered. -/
def caught (audience : Audience κ α μ) (signal : Signal α) : Desk κ α μ × Bool × Ending → Desk κ α μ × Bool
  | (desk, consumed, .returned) => (desk, consumed)
  | (desk, consumed, .raised) => ({ desk with memory := audience.failed signal desk.memory }, consumed)

/-- A listener is called. -/
def call (dispatch : Dispatch κ α μ) (audience : Audience κ α μ) (signal : Signal α) (entry : Subscription κ)
    (consumed : Bool) (desk : Desk κ α μ) : Option (Desk κ α μ × Bool) :=
  let desk := { desk.note (.within signal (.called entry)) with
    bus := { desk.bus with latest := some entry.listener } }
  (body dispatch signal consumed desk (audience.program entry signal desk.memory)).map (caught audience signal)

/-- Listeners are called in turn, until one of them consumes the signal. With them are given the
subscriptions that end with the delivery. -/
def calls (dispatch : Dispatch κ α μ) (audience : Audience κ α μ) (signal : Signal α) :
    List (Subscription κ) → List (Subscription κ) → Bool → Desk κ α μ →
      Option (Desk κ α μ × Bool × List (Subscription κ))
  | [], finished, consumed, desk => some (desk, consumed, finished)
  | entry :: rest, finished, consumed, desk =>
    if desk.bus.answers entry then
      (call dispatch audience signal entry consumed desk).bind fun (desk, consumed) =>
        let finished := if entry.once then entry :: finished else finished
        if consumed then some (desk, consumed, finished)
        else calls dispatch audience signal rest finished consumed desk
    else
      calls dispatch audience signal rest (entry :: finished) consumed
        { desk with bus := { desk.bus with latest := none } }

/-- What waits is dispatched, until nothing does, in so many rounds at the most. -/
def settle (dispatch : Dispatch κ α μ) : Nat → Desk κ α μ → Option (Desk κ α μ × Ending)
  | 0, desk => if desk.bus.queue.isEmpty then some (desk, .returned) else none
  | rounds + 1, desk =>
    match desk.bus.queue with
    | [] => some (desk, .returned)
    | signal :: queue =>
      match dispatch signal { desk with bus := { desk.bus with queue } } with
      | none => none
      | some (desk, _, .raised) => some (desk, .raised)
      | some (desk, _, .returned) => settle dispatch rounds desk

/-- A signal is dispatched, and then what waits. So many dispatches may stand within one another; the next raises
before it does anything. -/
def dispatch (audience : Audience κ α μ) : Nat → Dispatch κ α μ
  | 0, _, desk => some (desk, false, .raised)
  | room + 1, signal, desk =>
    let entries := desk.bus.subscriptions signal.topic
    let edition := (desk.bus.rosters signal.topic).map Roster.edition
    let around := desk.bus.kept
    let desk := { desk.note (.began signal) with bus := desk.bus.opening signal.topic, dispatching := true }
    (calls (dispatch audience room) audience signal entries [] false desk).bind fun (desk, consumed, finished) =>
      let bus := (desk.bus.retire signal.topic edition finished).closing finished around
      let desk := { desk.note (.over signal) with bus, dispatching := false }
      -- a dispatch leaves nothing waiting, so one round would do
      (settle (dispatch audience room) (room + 1) desk).map fun (desk, ending) => (desk, consumed, ending)

/-- A signal is published from outside, with room for so many dispatches within the first. -/
def publish (audience : Audience κ α μ) (room : Nat) (signal : Signal α) (desk : Desk κ α μ) :
    Option (Desk κ α μ × Option Bool) :=
  (send (dispatch audience (room + 1)) signal desk).map fun (desk, consumed, ending) =>
    ({ desk with bus := desk.bus.settled }, ending.answer consumed)

/-- Nothing waits, and no delivery is under way. -/
structure Rests (desk : Desk κ α μ) : Prop where
  queue : desk.bus.queue = []
  mark : desk.dispatching = false

/-! ### One dispatch -/

variable (dispatch' : Dispatch κ α μ) (audience : Audience κ α μ) (signal : Signal α)

/-- The desk in the middle of a delivery whose notes are kept. -/
def amid (moments : List (Moment κ α)) (delivery : Delivery κ α (μ × List (Incident κ α))) : Desk κ α μ :=
  ⟨delivery.bus, delivery.memory.1, true, moments ++ delivery.notes.map (.within signal)⟩

/-- While the mark is set, what a listener publishes waits, whoever dispatches. -/
theorem body_marked (moments : List (Moment κ α)) (program : Program κ α μ) (incidents : List (Incident κ α))
    (memory : μ) (delivery : Delivery κ α (μ × List (Incident κ α))) :
    let ran := (program.noted incidents).run audience.noted signal delivery
    (body dispatch' signal delivery.consumed
        ⟨delivery.bus, memory, true, moments ++ incidents.map (.within signal)⟩ program).map
        (caught audience signal) =
      some (amid signal moments ran, ran.consumed) := by
  induction program generalizing incidents memory delivery with
  | done memory => rfl
  | fail memory => rfl
  | act action next ih =>
    have hmoments : moments ++ (incidents ++ [Incident.did action]).map (Moment.within signal) =
        (moments ++ incidents.map (.within signal)) ++ [.within signal (.did action)] := by
      rw [List.map_append, List.append_assoc]
      rfl
    have hnext := ih (action.perform delivery.bus).2 (incidents ++ [.did action]) memory
      { delivery with
        bus := (action.perform delivery.bus).1
        consumed := delivery.consumed || action.consumes }
    rw [hmoments] at hnext
    cases action with
    | publish other =>
      refine Eq.trans ?_ hnext
      exact congrArg (fun consumed => (body dispatch' signal consumed _ (next true)).map (caught audience signal))
        (Bool.or_false delivery.consumed).symm
    | _ => exact hnext

theorem call_marked (moments : List (Moment κ α)) (entry : Subscription κ)
    (delivery : Delivery κ α (μ × List (Incident κ α))) :
    call dispatch' audience signal entry delivery.consumed (amid signal moments delivery) =
      some (amid signal moments (delivery.call audience.noted signal entry),
        (delivery.call audience.noted signal entry).consumed) := by
  have hbody := body_marked dispatch' audience signal moments
    (audience.program entry signal delivery.memory.1) (delivery.notes ++ [.called entry]) delivery.memory.1
    (delivery.turning entry)
  rw [List.map_append, ← List.append_assoc] at hbody
  rw [Delivery.call_eq]
  exact hbody

theorem calls_marked (moments : List (Moment κ α)) (entries : List (Subscription κ))
    (delivery : Delivery κ α (μ × List (Incident κ α))) :
    let went := delivery.go audience.noted signal entries
    calls dispatch' audience signal entries delivery.finished delivery.consumed
        (amid signal moments delivery) =
      some (amid signal moments went, went.consumed, went.finished) := by
  induction entries generalizing delivery with
  | nil => rfl
  | cons entry rest ih =>
    by_cases hanswers : delivery.bus.answers entry = true
    · have hfinished : (delivery.call audience.noted signal entry).finished =
          if entry.once then entry :: delivery.finished else delivery.finished := by
        rw [Delivery.call_eq]
      have hsame : (amid signal moments delivery).bus.answers entry = true := hanswers
      simp only [calls, hsame, if_true, call_marked, Option.bind_some, Delivery.go, hanswers, ← hfinished]
      by_cases hdone : (delivery.call audience.noted signal entry).consumed = true
      · rw [if_pos hdone, if_pos hdone]
      · rw [if_neg hdone, if_neg hdone]
        exact ih _
    · have hsame : ¬(amid signal moments delivery).bus.answers entry = true := hanswers
      simp only [calls, hsame, Delivery.go, hanswers]
      exact ih (delivery.skip entry)

omit [DecidableEq κ] in
theorem settle_nothing (rounds : Nat) {desk : Desk κ α μ} (h : desk.bus.queue = []) :
    settle dispatch' rounds desk = some (desk, .returned) := by
  cases rounds <;> simp [settle, h]

/-- No more deliveries are made. If signals wait, the first of them is lost, and this is raised. -/
def stopped (desk : Desk κ α μ) : Desk κ α μ × Ending :=
  ({ desk with bus := { desk.bus with queue := desk.bus.queue.tail } },
    if desk.bus.queue.isEmpty then .returned else .raised)

omit [DecidableEq κ] in
theorem stopped_of_empty {desk : Desk κ α μ} (h : desk.bus.queue = []) : desk.stopped = (desk, .returned) := by
  have hbus : { desk.bus with queue := desk.bus.queue.tail } = desk.bus := by
    rw [h, List.tail_nil, ← h]
  rw [stopped, hbus, h]
  rfl

omit [DecidableEq κ] in
theorem stopped_of_waiting {desk : Desk κ α μ} (h : desk.bus.queue ≠ []) :
    desk.stopped = ({ desk with bus := { desk.bus with queue := desk.bus.queue.tail } }, .raised) := by
  rw [stopped, List.isEmpty_eq_false_iff.mpr h]
  rfl

end Desk

section Deliveries

variable [DecidableEq κ] (audience : Audience κ α μ)

namespace Occasion

variable (occasion : Occasion κ α μ)

/-- The moments of a delivery. -/
def moments : List (Moment κ α) :=
  .began occasion.signal :: (occasion.incidents audience).map (.within occasion.signal) ++ [.over occasion.signal]

/-- The desk when a delivery is over and nothing that waits has been dispatched. -/
def desk (moments : List (Moment κ α)) : Desk κ α μ :=
  ⟨occasion.after audience, (occasion.delivery audience).memory, false, moments ++ occasion.moments audience⟩

theorem memory_went : (occasion.went audience).memory.1 = (occasion.delivery audience).memory :=
  congrArg Delivery.memory (occasion.plain_noted audience)

theorem consumed_went : (occasion.went audience).consumed = (occasion.delivery audience).consumed :=
  congrArg Delivery.consumed (occasion.plain_noted audience)

end Occasion

namespace Desk

/-- A dispatch is one delivery, and then what waits. -/
theorem dispatch_succ (room : Nat) (signal : Signal α) (desk : Desk κ α μ) :
    let occasion : Occasion κ α μ := ⟨desk.bus, desk.memory, signal⟩
    dispatch audience (room + 1) signal desk =
      (settle (dispatch audience room) (room + 1) (occasion.desk audience desk.moments)).map
        fun (desk, ending) => (desk, (occasion.delivery audience).consumed, ending) := by
  intro occasion
  have hcalls := calls_marked (dispatch audience room) audience signal
    (desk.moments ++ [.began signal]) (desk.bus.subscriptions signal.topic)
    ⟨desk.bus.opening signal.topic, (desk.memory, []), false, []⟩
  have hstart : amid signal (desk.moments ++ [.began signal])
      (⟨desk.bus.opening signal.topic, (desk.memory, []), false, []⟩ :
        Delivery κ α (μ × List (Incident κ α))) =
      { desk.note (.began signal) with bus := desk.bus.opening signal.topic, dispatching := true } := by
    rw [amid, Delivery.notes, List.map_nil, List.append_nil]
    rfl
  rw [hstart] at hcalls
  have hover : occasion.desk audience desk.moments =
      { (amid signal (desk.moments ++ [.began signal]) (occasion.went audience)).note (.over signal) with
        bus := ((occasion.went audience).bus.retire signal.topic (desk.bus.edition? signal.topic)
          (occasion.went audience).finished).closing (occasion.went audience).finished desk.bus.kept
        dispatching := false } := by
    rw [Occasion.desk, occasion.after_eq audience, ← occasion.memory_went audience]
    simp only [note, amid, Occasion.moments, Occasion.incidents, List.append_assoc, List.cons_append,
      List.nil_append]
    rfl
  simp only [dispatch, hcalls, Option.bind_some, hover, ← occasion.consumed_went audience]
  rfl

/-! ### One dispatch within another -/

/-- The desk after so many of the signals that wait have been delivered, one after the other. -/
def swept (count : Nat) (desk : Desk κ α μ) : Desk κ α μ :=
  let drained := Bus.drain audience count desk.bus desk.memory
  ⟨drained.1, drained.2, false,
    desk.moments ++ (Bus.drained audience count desk.bus desk.memory).flatMap (Occasion.moments audience)⟩

theorem swept_nothing (count : Nat) {desk : Desk κ α μ} (h : desk.bus.queue = [])
    (hmark : desk.dispatching = false) : swept audience count desk = desk := by
  have hnothing : Bus.drain audience count desk.bus desk.memory = (desk.bus, desk.memory) ∧
      Bus.drained audience count desk.bus desk.memory = [] := by
    cases count <;> simp [Bus.drain, Bus.drained, h]
  rw [swept, hnothing.1, hnothing.2, List.flatMap_nil, List.append_nil, ← hmark]

theorem swept_zero {desk : Desk κ α μ} (hmark : desk.dispatching = false) : swept audience 0 desk = desk := by
  rw [swept, Bus.drain, Bus.drained, List.flatMap_nil, List.append_nil, ← hmark]

/-- One more signal is delivered first. -/
theorem swept_succ (count : Nat) {desk : Desk κ α μ} {signal : Signal α} {queue : List (Signal α)}
    (h : desk.bus.queue = signal :: queue) :
    let occasion : Occasion κ α μ := ⟨{ desk.bus with queue }, desk.memory, signal⟩
    swept audience (count + 1) desk = swept audience count (occasion.desk audience desk.moments) := by
  simp only [swept, Bus.drain, Bus.drained, h, List.flatMap_cons, ← List.append_assoc]
  rfl

/-- Whatever waits is delivered as long as there is room. The dispatch of the first signal that waits stands within
the loop, delivers the others too if it can, and else raises. -/
theorem settle_swept (room rounds : Nat) {desk : Desk κ α μ} (hmark : desk.dispatching = false) :
    settle (dispatch audience room) (rounds + 1) desk = some (swept audience room desk).stopped := by
  induction room generalizing rounds desk with
  | zero =>
    rw [show swept audience 0 desk = desk from swept_zero audience hmark]
    cases hwaiting : desk.bus.queue with
    | nil => rw [settle_nothing _ _ hwaiting, stopped_of_empty hwaiting]
    | cons first queue =>
      rw [stopped_of_waiting (hwaiting ▸ List.cons_ne_nil first queue), settle, hwaiting]
      rfl
  | succ room ih =>
    cases hwaiting : desk.bus.queue with
    | nil =>
      rw [settle_nothing _ _ hwaiting, swept_nothing audience (room + 1) hwaiting hmark, stopped_of_empty hwaiting]
    | cons first queue =>
      let occasion : Occasion κ α μ := ⟨{ desk.bus with queue }, desk.memory, first⟩
      let last := swept audience room (occasion.desk audience desk.moments)
      have hfirst : dispatch audience (room + 1) first { desk with bus := { desk.bus with queue } } =
          some (last.stopped.1, (occasion.delivery audience).consumed, last.stopped.2) := by
        rw [dispatch_succ]
        exact congrArg (Option.map _) (ih room rfl)
      have hswept : swept audience (room + 1) desk = last := swept_succ audience room hwaiting
      rw [hswept, settle, hwaiting]
      simp only [hfirst]
      by_cases hlast : last.bus.queue = []
      · rw [stopped_of_empty hlast]
        exact settle_nothing _ rounds hlast
      · rw [stopped_of_waiting hlast]

/-- What a loop delivers that takes one waiting signal after the other, with room for so many. -/
def loop (room : Nat) (signal : Signal α) (desk : Desk κ α μ) : List (Occasion κ α μ) :=
  Bus.published audience room desk.bus desk.memory signal

/-- What the loop leaves: one delivery has been made after the other. -/
def looped (room : Nat) (signal : Signal α) (desk : Desk κ α μ) : Desk κ α μ :=
  let after := desk.bus.publish audience room desk.memory signal
  ⟨after.1, after.2.1, false, desk.moments ++ (desk.loop audience room signal).flatMap (Occasion.moments audience)⟩

/-- **The recursion does what the loop does**, moment by moment, and has the same answer, if any. -/
theorem publish_eq (room : Nat) (signal : Signal α) {desk : Desk κ α μ} (hmark : desk.dispatching = false) :
    publish audience room signal desk =
      some (desk.looped audience room signal, (desk.bus.publish audience room desk.memory signal).2.2) := by
  let occasion : Occasion κ α μ := ⟨desk.bus, desk.memory, signal⟩
  let last := swept audience room (occasion.desk audience desk.moments)
  have hdispatch : dispatch audience (room + 1) signal desk =
      some (last.stopped.1, (occasion.delivery audience).consumed, last.stopped.2) := by
    rw [dispatch_succ]
    exact congrArg (Option.map _) (settle_swept audience room room rfl)
  have hmoments : desk.moments ++ (desk.loop audience room signal).flatMap (Occasion.moments audience) =
      last.moments := (List.append_assoc _ _ _).symm
  have hanswer : (desk.bus.publish audience room desk.memory signal).2.2 =
      last.stopped.2.answer (occasion.delivery audience).consumed := by
    show (if last.bus.queue.isEmpty then _ else _) = Ending.answer _ (if last.bus.queue.isEmpty then _ else _)
    split <;> rfl
  rw [looped, hmoments, hanswer, publish, send, hmark]
  exact congrArg (Option.map _) hdispatch

end Desk

end Deliveries

/-! ### First in, first out -/

namespace Desk

variable [DecidableEq κ] {audience : Audience κ α μ} {signal : Signal α} {desk : Desk κ α μ} {count room : Nat}

/-- What is promised of a publication when listeners publish `count` signals meanwhile. -/
structure InOrder (audience : Audience κ α μ) (room : Nat) (signal : Signal α) (desk : Desk κ α μ) (count : Nat)
    (consumed : Bool) : Prop where
  /-- It returns, raises nothing, and leaves what a loop leaves. -/
  returns : publish audience room signal desk = some (desk.looped audience count signal, some consumed)
  /-- A delivery is made of the signal, and of each that listeners publish. -/
  length : (desk.loop audience count signal).length = count + 1
  /-- They are made in the order in which the signals were published. -/
  signals : (desk.loop audience count signal).map Occasion.signal =
    signal :: Bus.posted audience (desk.loop audience count signal)
  rests : (desk.looped audience count signal).Rests

theorem looped_of_empty {fuel more : Nat} (h : fuel ≤ more)
    (hempty : Bus.waiting audience fuel desk.bus desk.memory signal = []) :
    desk.looped audience more signal = desk.looped audience fuel signal := by
  obtain ⟨hdrain, hdrained⟩ := Bus.drain_of_empty audience h hempty
  simp only [looped, loop, Bus.publish, Bus.published, Occasion.delivery, hdrain, hdrained]

/-- A publication answers if it has left nothing waiting. -/
theorem answer_of_empty (hempty : Bus.waiting audience room desk.bus desk.memory signal = []) :
    (desk.bus.publish audience room desk.memory signal).2.2 =
      some (desk.bus.deliver audience desk.memory signal).consumed := by
  show (if (Bus.waiting audience room desk.bus desk.memory signal).isEmpty then _ else _) = _
  rw [hempty]
  rfl

theorem answer_of_waiting (hwaiting : Bus.waiting audience room desk.bus desk.memory signal ≠ []) :
    (desk.bus.publish audience room desk.memory signal).2.2 = none := by
  show (if (Bus.waiting audience room desk.bus desk.memory signal).isEmpty then _ else _) = _
  rw [List.isEmpty_eq_false_iff.mpr hwaiting]
  rfl

/-- With room for all that listeners publish, the promise is kept. -/
theorem inOrder_of_le (rests : desk.Rests) (posts : Bus.Posts audience desk.bus desk.memory signal count)
    (h : count ≤ room) : ∃ consumed, desk.InOrder audience room signal count consumed := by
  obtain ⟨hsettled, hlength, hsignals⟩ := posts.settles rests.queue (Nat.le_refl count)
  have hempty : Bus.waiting audience room desk.bus desk.memory signal = [] := (posts.settles rests.queue h).1
  have hpublish := publish_eq audience room signal rests.mark
  rw [answer_of_empty hempty, looped_of_empty h hsettled] at hpublish
  exact ⟨_, hpublish, hlength, hsignals, congrArg List.tail hsettled, rfl⟩

/-- Without, every delivery is made that there is room for, in order. Then the publication raises, and of the signals
that wait the first is lost. -/
theorem raises_of_lt (rests : desk.Rests) (posts : Bus.Posts audience desk.bus desk.memory signal count)
    (h : room < count) :
    publish audience room signal desk = some (desk.looped audience room signal, none) ∧
      (desk.loop audience room signal).length = room + 1 ∧
      ∃ lost, (desk.loop audience room signal).map Occasion.signal ++
          lost :: (desk.looped audience room signal).bus.queue =
        signal :: Bus.posted audience (desk.loop audience room signal) := by
  obtain ⟨hwaiting, hlength⟩ := posts.exceeds rests.queue h
  have hpublish := publish_eq audience room signal rests.mark
  rw [answer_of_waiting hwaiting] at hpublish
  obtain ⟨lost, queue, hqueue⟩ := List.exists_cons_of_ne_nil hwaiting
  have hsignals := Bus.signals_of_rest audience rests.queue room desk.memory signal
  have hleft : (desk.looped audience room signal).bus.queue = queue := congrArg List.tail hqueue
  rw [hqueue] at hsignals
  exact ⟨hpublish, hlength, lost, hleft.symm ▸ hsignals⟩

theorem not_inOrder_of_lt (rests : desk.Rests) (posts : Bus.Posts audience desk.bus desk.memory signal count)
    (h : room < count) : ¬∃ consumed, desk.InOrder audience room signal count consumed := by
  intro hkept
  obtain ⟨consumed, inOrder⟩ := hkept
  have hraises := inOrder.returns.symm.trans (raises_of_lt rests posts h).1
  have hanswer : some (some consumed) = some none := congrArg (Option.map Prod.snd) hraises
  cases hanswer

/-- A publication returns exactly if there is room for what listeners publish. -/
theorem returns_iff (rests : desk.Rests) :
    (∃ after consumed, publish audience room signal desk = some (after, some consumed)) ↔
      ∃ count, count ≤ room ∧ Bus.Posts audience desk.bus desk.memory signal count := by
  rw [← Bus.waiting_eq_nil_iff rests.queue, publish_eq audience room signal rests.mark]
  constructor
  · intro hanswer
    obtain ⟨after, consumed, hreturns⟩ := hanswer
    refine Classical.byContradiction fun hwaiting => ?_
    rw [answer_of_waiting hwaiting] at hreturns
    cases hreturns
  · intro hempty
    rw [answer_of_empty hempty]
    exact ⟨_, _, rfl⟩

end Desk

namespace Echo

/-- Whoever hears a number greater than zero publishes the one before it, and fails. -/
def audience : Audience Bool Nat Unit where
  program _ signal _ :=
    if signal.data = 0 then .done ()
    else .act (.publish ⟨signal.topic, signal.data - 1⟩) fun _ => .fail ()
  failed _ _ := ()

/-- Two listen. -/
def desk : Desk Bool Nat Unit :=
  ⟨((Bus.empty []).subscribe .nodeEntered true 0 false false).subscribe .nodeEntered false 0 false false, (), false, []⟩

end Echo

def Crowd.desk : Desk Unit Nat Unit := ⟨bus, (), false, []⟩

/-- **What is published is delivered first in, first out, each signal once and by itself, as long as there is room.**
Nothing waits on a bus that no delivery is under way on. When a signal is published there and listeners publish
`count` signals meanwhile, whatever else they do and however they fail, then it returns with that signal and those
delivered in the order in which they were published, one after the other as by a loop, and with nothing waiting and
the mark gone, exactly if there is room for `count` dispatches within the first. Without, just as many are delivered
as there is room for, in the same order. Then the publication raises, the mark is gone, and of what waits the first
signal is lost. -/
theorem publish_fifo_iff [DecidableEq κ] {audience : Audience κ α μ} {signal : Signal α} {desk : Desk κ α μ}
    {count : Nat} (rests : desk.Rests) (posts : Bus.Posts audience desk.bus desk.memory signal count) (room : Nat) :
    ((∃ consumed, desk.InOrder audience room signal count consumed) ↔ count ≤ room) ∧
    (room < count →
      Desk.publish audience room signal desk = some (desk.looped audience room signal, none) ∧
        (desk.loop audience room signal).length = room + 1 ∧
        ∃ lost, (desk.loop audience room signal).map Occasion.signal ++
            lost :: (desk.looped audience room signal).bus.queue =
          signal :: Bus.posted audience (desk.loop audience room signal)) := by
  refine ⟨⟨fun inOrder => ?_, Desk.inOrder_of_le rests posts⟩, Desk.raises_of_lt rests posts⟩
  exact Nat.le_of_not_lt fun hlt => Desk.not_inOrder_of_lt rests posts hlt inOrder

/-- Of two, each number but zero is heard twice by each of two, so there has to be room for six. -/
theorem publish_fifo_iff_echo :
    Echo.desk.Rests ∧ Bus.Posts Echo.audience Echo.desk.bus () ⟨.nodeEntered, 2⟩ 6 ∧
      (Echo.desk.loop Echo.audience 6 ⟨.nodeEntered, 2⟩).map (·.signal.data) = [2, 1, 1, 0, 0, 0, 0] ∧
      (∃ consumed, Echo.desk.InOrder Echo.audience 6 ⟨.nodeEntered, 2⟩ 6 consumed) ∧
      (Desk.publish Echo.audience 5 ⟨.nodeEntered, 2⟩ Echo.desk).map Prod.snd = some none := by
  have rests : Echo.desk.Rests := ⟨rfl, rfl⟩
  have hposts : Bus.Posts Echo.audience Echo.desk.bus () ⟨.nodeEntered, 2⟩ 6 := by
    have hempty : Bus.waiting Echo.audience 6 Echo.desk.bus () ⟨.nodeEntered, 2⟩ = [] := by decide
    exact .of_empty hempty
  refine ⟨rests, hposts, by decide, (publish_fifo_iff rests hposts 6).1.mpr (Nat.le_refl 6), ?_⟩
  rw [((publish_fifo_iff rests hposts 5).2 (by decide)).1]
  rfl

/-- Where a listener publishes one thousand and five hundred signals, there is no room for all of them. -/
theorem not_inOrder_crowd :
    Crowd.desk.Rests ∧ Bus.Posts Crowd.audience Crowd.desk.bus () ⟨.nodeEntered, 1500⟩ 1500 ∧
      ¬∃ consumed, Crowd.desk.InOrder Crowd.audience Bus.deepest ⟨.nodeEntered, 1500⟩ 1500 consumed := by
  have rests : Crowd.desk.Rests := ⟨rfl, rfl⟩
  exact ⟨rests, Crowd.posts 1500, Desk.not_inOrder_of_lt rests (Crowd.posts 1500) (by decide)⟩

end Parley

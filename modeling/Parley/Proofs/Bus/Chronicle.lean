import Parley.Proofs.Bus.Once

/-! The chronicle of a bus.

The chronicle of a run tells everything that is done to the bus, from outside and by listeners, and between it the
deliveries as they begin. What is listed at any moment is accounted for by what was done before (`Bus.Accounted`):
every subscription was entered by one of those actions and has not been ended since, and its serial says how many were
entered before it. No delivery brings back what has been taken off while it was under way, since it only takes off more.
So whoever has left a topic is called in a later delivery only if they were entered again in the meantime
(`called_after_leaving`). -/
namespace Parley

variable {κ α μ : Type}

/-- Whether an action enters a subscription. -/
def Action.enters : Action κ α → Bool
  | subscribe .. => true
  | _ => false

/-- Something is done to a bus, or a delivery begins. -/
inductive Happening (κ α μ : Type) where
  | did (action : Action κ α)
  | began (occasion : Occasion κ α μ)

namespace Happening

def did? : Happening κ α μ → Option (Action κ α)
  | did action => some action
  | began _ => none

/-- What is done, in order. -/
def deeds (happenings : List (Happening κ α μ)) : List (Action κ α) := happenings.filterMap did?

@[simp] theorem deeds_append (a b : List (Happening κ α μ)) : deeds (a ++ b) = deeds a ++ deeds b :=
  List.filterMap_append

theorem append_deeds_did (done : List (Action κ α)) (action : Action κ α) (rest : List (Happening κ α μ)) :
    done ++ deeds (did action :: rest) = done ++ [action] ++ deeds rest := List.append_cons done action (deeds rest)

@[simp] theorem deeds_map_did (actions : List (Action κ α)) :
    deeds (actions.map did : List (Happening κ α μ)) = actions := by
  rw [deeds, List.filterMap_map]
  exact List.filterMap_some

end Happening

open Happening

namespace Occasion

variable [DecidableEq κ] (audience : Audience κ α μ)

/-- A delivery begins, and then its listeners do what they do. -/
def happenings (occasion : Occasion κ α μ) : List (Happening κ α μ) :=
  .began occasion :: (Incident.deeds (occasion.incidents audience)).map .did

end Occasion

namespace Bus

variable [DecidableEq κ] (audience : Audience κ α μ)

/-- All that happens in a run of actions from outside, in order. -/
def chronicle (fuel : Nat) (bus : Bus κ α) (memory : μ) : List (Action κ α) → List (Happening κ α μ)
  | [] => []
  | action :: rest =>
    let next := bus.operate audience fuel memory action
    .did action :: (bus.operated audience fuel memory action).flatMap (Occasion.happenings audience) ++
      chronicle fuel next.1 next.2.1 rest

end Bus

/-! ### What lasts -/

/-- What holds of a bus in view of all that has been done to it, whatever is done next. -/
structure Bus.Lasting [DecidableEq κ] (holds : List (Action κ α) → Bus κ α → Prop) : Prop where
  alike : ∀ {done bus bus'}, holds done bus → bus.Alike bus' → holds done bus'
  did : ∀ {done bus} action, holds done bus → holds (done ++ [action]) (action.perform bus).1
  retire : ∀ {done bus} topic edition finished, holds done bus → holds done (bus.retire topic edition finished)

/-- It holds of every bus at which a delivery begins, after what was done before. -/
def Happening.Finds (holds : List (Action κ α) → Bus κ α → Prop) :
    List (Action κ α) → List (Happening κ α μ) → Prop
  | _, [] => True
  | done, did action :: rest => Finds holds (done ++ [action]) rest
  | done, began occasion :: rest => holds done occasion.bus ∧ Finds holds done rest

variable {holds : List (Action κ α) → Bus κ α → Prop} {done : List (Action κ α)}

theorem Happening.finds_append {a b : List (Happening κ α μ)} :
    Finds holds done (a ++ b) ↔ Finds holds done a ∧ Finds holds (done ++ deeds a) b := by
  induction a generalizing done with
  | nil => simp [Finds, deeds]
  | cons happening rest ih =>
    cases happening with
    | did action =>
      rw [append_deeds_did]
      exact ih
    | began occasion =>
      show _ ∧ Finds holds done (rest ++ b) ↔ _
      rw [ih, ← and_assoc]
      rfl

theorem Happening.finds_map_did (actions : List (Action κ α)) :
    Finds holds done (actions.map did : List (Happening κ α μ)) := by
  induction actions generalizing done with
  | nil => trivial
  | cons action rest ih => exact ih

namespace Bus.Lasting

variable [DecidableEq κ] (audience : Audience κ α μ) {bus : Bus κ α}

/-- What lasts also lasts within a delivery. -/
theorem within (h : Bus.Lasting holds) (done : List (Action κ α)) :
    Delivery.Lasting fun (bus : Bus κ α) (incidents : List (Incident κ α)) =>
      holds (done ++ Incident.deeds incidents) bus where
  latest _ _ _ hbus := h.alike hbus ⟨rfl, rfl, rfl⟩
  called _ incidents called hbus := (Incident.deeds_append_called incidents called).symm ▸ hbus
  did _ _ action hbus := by
    rw [Incident.deeds_append, ← List.append_assoc]
    exact h.did action hbus

theorem after (h : Bus.Lasting holds) {occasion : Occasion κ α μ} (hbus : holds done occasion.bus) :
    holds (done ++ Incident.deeds (occasion.incidents audience)) (occasion.after audience) := by
  have hopening : holds (done ++ Incident.deeds []) (occasion.bus.opening occasion.signal.topic) := by
    rw [show Incident.deeds [] = [] from rfl, List.append_nil]
    exact h.alike hbus ⟨rfl, rfl, rfl⟩
  have hwent := (h.within done).go audience occasion.signal (occasion.bus.subscriptions occasion.signal.topic)
    ⟨occasion.bus.opening occasion.signal.topic, (occasion.memory, []), false, []⟩ hopening
  rw [Occasion.after_eq]
  exact h.alike (h.retire _ _ _ hwent) ⟨rfl, rfl, rfl⟩

/-- The deliveries of a list that are made one after the other find what lasts, and leave it. -/
theorem finds_happenings (h : Bus.Lasting holds) {occasion : Occasion κ α μ} {later : List (Occasion κ α μ)}
    {last : Bus κ α} (hbus : holds done occasion.bus)
    (hlater : ∀ {done}, holds done (occasion.after audience) →
      Finds holds done (later.flatMap (Occasion.happenings audience)) ∧
        holds (done ++ deeds (later.flatMap (Occasion.happenings audience))) last) :
    Finds holds done ((occasion :: later).flatMap (Occasion.happenings audience)) ∧
      holds (done ++ deeds ((occasion :: later).flatMap (Occasion.happenings audience))) last := by
  obtain ⟨hfinds, hlast⟩ := hlater (h.after audience hbus)
  have hdeeds : deeds (occasion.happenings audience) = Incident.deeds (occasion.incidents audience) :=
    deeds_map_did _
  rw [List.flatMap_cons, finds_append, deeds_append, hdeeds, ← List.append_assoc]
  exact ⟨⟨⟨hbus, finds_map_did _⟩, hfinds⟩, hlast⟩

theorem drained (h : Bus.Lasting holds) (fuel : Nat) (memory : μ) (hbus : holds done bus) :
    Finds holds done ((bus.drained audience fuel memory).flatMap (Occasion.happenings audience)) ∧
      holds (done ++ deeds ((bus.drained audience fuel memory).flatMap (Occasion.happenings audience)))
        (bus.drain audience fuel memory).1 := by
  have hnone : Finds (μ := μ) holds done [] ∧ holds (done ++ []) bus := ⟨trivial, (List.append_nil done).symm ▸ hbus⟩
  induction fuel generalizing done bus memory with
  | zero => exact hnone
  | succ fuel ih =>
    unfold Bus.drained Bus.drain
    cases hqueue : bus.queue with
    | nil => exact hnone
    | cons signal queue =>
      refine h.finds_happenings audience (h.alike hbus ⟨rfl, rfl, rfl⟩) fun hafter => ih _ hafter ?_
      exact ⟨trivial, (List.append_nil _).symm ▸ hafter⟩

/-- What is done from outside, and the deliveries that it makes. -/
theorem operated (h : Bus.Lasting holds) (fuel : Nat) (memory : μ) (action : Action κ α) (hbus : holds done bus) :
    let happenings := (bus.operated audience fuel memory action).flatMap (Occasion.happenings audience)
    Finds holds (done ++ [action]) happenings ∧
      holds (done ++ [action] ++ deeds happenings) (bus.operate audience fuel memory action).1 := by
  have hdid := h.did action hbus
  cases action with
  | publish signal =>
    refine h.finds_happenings audience (h.alike hdid ⟨rfl, rfl, rfl⟩) fun hafter => ?_
    obtain ⟨hfinds, hlast⟩ := h.drained audience fuel _ hafter
    exact ⟨hfinds, h.alike hlast ⟨rfl, rfl, rfl⟩⟩
  | _ => exact ⟨trivial, (List.append_nil _).symm ▸ hdid⟩

/-- **What lasts is found by every delivery of a run**, in view of all that was done before it. -/
theorem chronicle (h : Bus.Lasting holds) (fuel : Nat) (memory : μ) (actions : List (Action κ α))
    (hbus : holds done bus) :
    Finds holds done (bus.chronicle audience fuel memory actions) ∧
      holds (done ++ deeds (bus.chronicle audience fuel memory actions))
        (bus.runs audience fuel memory actions).1 := by
  induction actions generalizing done bus memory with
  | nil => exact ⟨trivial, (List.append_nil done).symm ▸ hbus⟩
  | cons action rest ih =>
    obtain ⟨hfinds, hlast⟩ := h.operated audience fuel memory action hbus
    obtain ⟨hrest, hend⟩ := ih (bus.operate audience fuel memory action).2.1 hlast
    refine ⟨finds_append.mpr ⟨hfinds, ?_⟩, ?_⟩
    · rw [append_deeds_did]
      exact hrest
    · rw [Bus.chronicle, List.cons_append, append_deeds_did, deeds_append, ← List.append_assoc]
      exact hend

end Bus.Lasting

/-! ### What is listed -/

/-- The subscription was entered for the topic by one of the actions, and none that was done after it ends it. The
serial says how many had been entered before. -/
def Subscription.Entered (entry : Subscription κ) (topic : Topic) (done : List (Action κ α)) : Prop :=
  ∃ before after, done = before ++ .subscribe topic entry.listener entry.priority entry.once entry.weak :: after ∧
    entry.serial = before.countP Action.enters ∧ ∀ action ∈ after, ¬action.Ends topic entry

/-- What is listed, and how many serials have been given out, in view of all that has been done. -/
structure Bus.Accounted (done : List (Action κ α)) (bus : Bus κ α) : Prop where
  counted : bus.nextSerial = done.countP Action.enters
  entered : ∀ topic, ∀ entry ∈ bus.subscriptions topic, entry.Entered topic done

theorem Subscription.Entered.append {entry : Subscription κ} {topic : Topic} (h : entry.Entered topic done)
    {action : Action κ α} (hends : ¬action.Ends topic entry) : entry.Entered topic (done ++ [action]) := by
  obtain ⟨before, after, rfl, hserial, hafter⟩ := h
  refine ⟨before, after ++ [action], List.append_assoc .., hserial, fun other hother => ?_⟩
  rcases List.mem_append.mp hother with hother | hother
  · exact hafter other hother
  · exact List.mem_singleton.mp hother ▸ hends

namespace Bus

theorem accounted_empty (owned : List κ) : Accounted [] (empty owned : Bus κ α) := ⟨rfl, fun _ _ h => nomatch h⟩

theorem Accounted.of_subset {bus bus' : Bus κ α} (h : Accounted done bus)
    (hsub : ∀ topic, bus'.subscriptions topic ⊆ bus.subscriptions topic) (hserial : bus'.nextSerial = bus.nextSerial) :
    Accounted done bus' :=
  ⟨hserial.trans h.counted, fun topic entry hentry => h.entered topic entry (hsub topic hentry)⟩

variable [DecidableEq κ] {bus : Bus κ α} {topic : Topic} {entry : Subscription κ}

/-- An action that enters no subscription takes off those that it ends, and no others. -/
theorem subscriptions_perform {action : Action κ α} (h : action.enters = false) (bus : Bus κ α) (topic : Topic) :
    (action.perform bus).1.subscriptions topic =
      (bus.subscriptions topic).filter fun entry => ¬action.Ends topic entry := by
  -- an action that ends nothing leaves the list as it is
  have hall : (∀ entry, ¬action.Ends topic entry) →
      bus.subscriptions topic = (bus.subscriptions topic).filter fun entry => ¬action.Ends topic entry :=
    fun hnone => (List.filter_eq_self.mpr fun entry _ => decide_eq_true (hnone entry)).symm
  cases action with
  | subscribe => cases h
  | unsubscribe left listener =>
    refine (bus.subscriptions_unsubscribe left topic listener).trans ?_
    split
    · rename_i htopic
      subst htopic
      refine List.filter_congr fun entry _ => decide_eq_decide.mpr ?_
      exact ⟨fun hne hends => hne hends.2.symm, fun hends heq => hends ⟨rfl, heq.symm⟩⟩
    · rename_i htopic
      exact hall fun entry hends => htopic hends.1.symm
  | clear cleared =>
    refine (bus.subscriptions_clear cleared topic).trans ?_
    split
    · rename_i hcleared
      refine (List.filter_eq_nil_iff.mpr fun entry _ hstays => ?_).symm
      have hends : ¬(Action.clear cleared : Action κ α).Ends topic entry := of_decide_eq_true hstays
      exact hends hcleared
    · rename_i hcleared
      exact hall fun entry hends => hcleared hends
  | publish signal => exact hall fun _ => id
  | release listener => exact hall fun _ => id
  | heard asked => exact hall fun _ => id
  | consume => exact hall fun _ => id

theorem nextSerial_perform (bus : Bus κ α) (action : Action κ α) :
    (action.perform bus).1.nextSerial = bus.nextSerial + [action].countP Action.enters := by
  cases action with
  | subscribe topic listener priority once weak => exact bus.nextSerial_subscribe topic listener priority once weak
  | unsubscribe left listener => exact bus.nextSerial_unsubscribe left listener
  | clear cleared => exact (bus.counters_clear cleared).1
  | publish signal => rfl
  | release listener => rfl
  | heard asked => rfl
  | consume => rfl

/-- What an action leaves is accounted for by it and by what was done before. -/
theorem Accounted.perform (h : Accounted done bus) (action : Action κ α) :
    Accounted (done ++ [action]) (action.perform bus).1 := by
  refine ⟨?_, fun topic entry hentry => ?_⟩
  · rw [nextSerial_perform, h.counted, List.countP_append]
  · cases henters : action.enters with
    | true =>
      cases action with
      | subscribe entered listener priority once weak =>
        rcases mem_subscribe.mp hentry with ⟨rfl, rfl⟩ | hentry
        · exact ⟨done, [], rfl, h.counted, fun _ hmem => nomatch hmem⟩
        · exact (h.entered topic entry hentry).append id
      | _ => cases henters
    | false =>
      rw [subscriptions_perform henters, List.mem_filter] at hentry
      exact (h.entered topic entry hentry.1).append (of_decide_eq_true hentry.2)

theorem lasting_accounted : Bus.Lasting (Accounted : List (Action κ α) → Bus κ α → Prop) where
  alike h same := h.of_subset (fun _ => same.subscriptions ▸ fun _ => id) same.nextSerial
  did action h := h.perform action
  retire topic edition finished h :=
    h.of_subset (fun other => (sublist_retire _ topic edition finished other).subset) rfl

end Bus

/-! ### Leaving for good -/

/-- What is done is done somewhere in a chronicle. -/
theorem Happening.exists_did {happenings : List (Happening κ α μ)} {a b : List (Action κ α)} {action : Action κ α}
    (h : deeds happenings = a ++ action :: b) :
    ∃ before after, happenings = before ++ .did action :: after ∧ deeds before = a := by
  obtain ⟨first, rest, rfl, hfirst, hrest⟩ := List.filterMap_eq_append_iff.mp h
  obtain ⟨idle, happening, after, rfl, hidle, hdid, -⟩ := List.filterMap_eq_cons_iff.mp hrest
  cases happening with
  | began occasion => cases hdid
  | did found =>
    cases hdid
    refine ⟨first ++ idle, after, (List.append_assoc ..).symm, ?_⟩
    rw [deeds_append, show deeds first = a from hfirst, show deeds idle = [] from List.filterMap_eq_nil_iff.mpr hidle,
      List.append_nil]

/-- A subscription that is still there after an action that ends such a one was entered after it. -/
theorem Subscription.Entered.after {entry : Subscription κ} {topic : Topic} {past between : List (Action κ α)}
    {action : Action κ α} (h : entry.Entered topic (past ++ action :: between)) (hends : action.Ends topic entry) :
    ∃ before after, between = before ++ .subscribe topic entry.listener entry.priority entry.once entry.weak :: after ∧
      entry.serial = (past ++ action :: before).countP Action.enters := by
  obtain ⟨before, after, hsplit, hserial, hafter⟩ := h
  rcases List.append_eq_append_iff.mp hsplit with ⟨more, hbefore, hrest⟩ | ⟨more, -, hrest⟩
  · cases more with
    | nil =>
      cases (List.cons.inj hrest).1
      exact hends.elim
    | cons first more =>
      obtain ⟨rfl, hbetween⟩ := List.cons.inj hrest
      exact ⟨more, after, hbetween, hbefore ▸ hserial⟩
  · cases more with
    | nil =>
      cases (List.cons.inj hrest).1
      exact hends.elim
    | cons first more =>
      have hmem : action ∈ after := (List.cons.inj hrest).2 ▸ List.mem_append_right more List.mem_cons_self
      exact absurd hends (hafter action hmem)

variable [DecidableEq κ]

/-- **Leaving a topic is for good.** Whoever leaves a topic, or was there when it was cleared, at whatever point of a
run, from outside or from a listener, is called in a delivery that begins later only through a subscription that was
entered in the meantime. And to leave or to clear takes off the subscriptions that are meant and no others, whatever the
bus. -/
theorem called_after_leaving (audience : Audience κ α μ) (fuel : Nat) (owned : List κ) (memory : μ)
    (actions : List (Action κ α)) :
    (∀ past action between occasion later,
      (Bus.empty owned).chronicle audience fuel memory actions =
        past ++ .did action :: (between ++ .began occasion :: later) →
      ∀ entry ∈ occasion.calls audience, action.Ends occasion.signal.topic entry →
        ∃ before after,
          between = before ++
            .did (.subscribe occasion.signal.topic entry.listener entry.priority entry.once entry.weak) :: after ∧
          entry.serial = (deeds (past ++ .did action :: before)).countP Action.enters) ∧
    ∀ (bus : Bus κ α) (action : Action κ α) (topic : Topic), action.enters = false →
      (action.perform bus).1.subscriptions topic =
        (bus.subscriptions topic).filter fun entry => ¬action.Ends topic entry := by
  refine ⟨?_, fun bus action topic henters => Bus.subscriptions_perform henters bus topic⟩
  intro past action between occasion later hchronicle entry hcalled hends
  have hfinds := (Bus.lasting_accounted.chronicle audience fuel memory actions (Bus.accounted_empty owned)).1
  have hfound : deeds (past ++ .did action :: between) = deeds past ++ action :: deeds between := deeds_append ..
  rw [hchronicle, ← List.cons_append, ← List.append_assoc, finds_append, hfound] at hfinds
  have hlisted := (occasion.calls_sublist audience).subset hcalled
  obtain ⟨before, after, hbetween, hserial⟩ := (hfinds.2.1.entered _ entry hlisted).after hends
  obtain ⟨before, after, rfl, rfl⟩ := exists_did hbetween
  refine ⟨before, after, rfl, ?_⟩
  rw [hserial, deeds_append]
  rfl

/-- The listener who is sent away in a delivery is called in the next one after being entered again. -/
theorem called_after_leaving_at_watch :
    let signal : Signal Unit := ⟨.nodeEntered, ()⟩
    let enter (listener : Bool) : Action Bool Unit := .subscribe .nodeEntered listener 0 false false
    let actions := [enter true, enter false, .publish signal, enter false, .publish signal]
    let chronicle := (Bus.empty []).chronicle Watch.audience 2 () actions
    let occasion : Occasion Bool Unit Unit :=
      ⟨((Bus.empty []).runs Watch.audience 2 () (actions.take 4)).1, (), signal⟩
    let entry : Subscription Bool := ⟨2, false, 0, false, false⟩
    chronicle = chronicle.take 7 ++ .did (.unsubscribe .nodeEntered false) ::
        ([.did (enter false), .did (.publish signal)] ++ .began occasion :: chronicle.drop 11) ∧
      entry ∈ occasion.calls Watch.audience ∧
      ∃ before after, [.did (enter false), .did (.publish signal)] = before ++ .did (enter false) :: after ∧
        2 = (deeds (chronicle.take 7 ++ .did (.unsubscribe .nodeEntered false) :: before)).countP Action.enters := by
  intro signal enter actions chronicle occasion entry
  have hchronicle : chronicle = chronicle.take 7 ++ .did (.unsubscribe .nodeEntered false) ::
      ([.did (enter false), .did (.publish signal)] ++ .began occasion :: chronicle.drop 11) := by
    rfl
  have hcalled : entry ∈ occasion.calls Watch.audience := by decide
  refine ⟨hchronicle, hcalled, ?_⟩
  exact (called_after_leaving Watch.audience 2 [] () actions).1 _ _ _ occasion _ hchronicle entry hcalled ⟨rfl, rfl⟩

end Parley

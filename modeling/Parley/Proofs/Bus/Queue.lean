import Parley.Proofs.Bus.Once

/-! The queue of a bus.

A signal that a listener publishes joins the end of the queue, and deliveries take signals from its front. So
the signals that are delivered, and then those that wait, are what was published, in order
(`signals_published`). When listeners publish so many signals and there is room for them, that many deliveries
after the first are made, and none waits then (`Posts.settles`). When there is not, every delivery is made that
there is room for, and signals wait (`Posts.exceeds`). -/
namespace Parley

variable {κ α μ : Type}

/-- The signal that an action publishes. -/
def Action.posted? : Action κ α → Option (Signal α)
  | publish signal => some signal
  | _ => none

/-- The signals that listeners publish, in order. -/
def Incident.posts (incidents : List (Incident κ α)) : List (Signal α) :=
  (deeds incidents).filterMap Action.posted?

@[simp] theorem Incident.posts_append_called (incidents : List (Incident κ α)) (called : Subscription κ) :
    posts (incidents ++ [.called called]) = posts incidents := by
  rw [posts, deeds_append_called, posts]

theorem Incident.posts_append_did (incidents : List (Incident κ α)) (action : Action κ α) :
    posts (incidents ++ [.did action]) = posts incidents ++ action.posted?.toList := by
  rw [posts, deeds_append, List.filterMap_append, posts]
  cases action <;> rfl

/-! ### One delivery -/

theorem queue_foldl_withdraw (topics : List Topic) (bus : Bus κ α) :
    (topics.foldl Bus.withdraw bus).queue = bus.queue := by
  induction topics generalizing bus with
  | nil => rfl
  | cons topic rest ih => exact ih _

variable [DecidableEq κ]

/-- Nothing but a publication touches the queue. -/
theorem queue_perform (bus : Bus κ α) (action : Action κ α) :
    (action.perform bus).1.queue = bus.queue ++ action.posted?.toList := by
  cases action with
  | publish signal => rfl
  | subscribe topic listener priority once weak =>
    show (bus.subscribe topic listener priority once weak).queue = _
    unfold Bus.subscribe
    cases bus.rosters topic <;> exact (List.append_nil _).symm
  | unsubscribe topic listener =>
    show (bus.unsubscribe topic listener).queue = _
    unfold Bus.unsubscribe
    split
    · exact (List.append_nil _).symm
    · split <;> exact (List.append_nil _).symm
  | clear topic =>
    cases topic with
    | some topic => exact (List.append_nil _).symm
    | none => exact (queue_foldl_withdraw _ _).trans (List.append_nil _).symm
  | release listener => exact (List.append_nil _).symm
  | heard topic => exact (List.append_nil _).symm
  | consume => exact (List.append_nil _).symm

theorem lasting_queue (waiting : List (Signal α)) :
    Delivery.Lasting fun (bus : Bus κ α) (incidents : List (Incident κ α)) =>
      bus.queue = waiting ++ Incident.posts incidents where
  latest _ _ _ h := h
  called bus incidents entry h := by rw [Incident.posts_append_called, h]
  did bus incidents action h := by
    rw [queue_perform, Incident.posts_append_did, h, List.append_assoc]

namespace Occasion

variable (audience : Audience κ α μ) (occasion : Occasion κ α μ)

/-- The signals that listeners publish in the delivery. -/
def posts : List (Signal α) := Incident.posts (occasion.incidents audience)

/-- The signals published in a delivery wait behind those that waited before. -/
theorem queue_after : (occasion.after audience).queue = occasion.bus.queue ++ occasion.posts audience := by
  have hwent : (occasion.went audience).bus.queue =
      occasion.bus.queue ++ Incident.posts (occasion.went audience).notes :=
    (lasting_queue occasion.bus.queue).go audience occasion.signal _ _ (List.append_nil _).symm
  rw [after_eq]
  exact hwent

end Occasion

/-! ### Deliveries, one after the other -/

namespace Bus

variable (audience : Audience κ α μ)

/-- The signals that listeners publish in deliveries. -/
def posted (occasions : List (Occasion κ α μ)) : List (Signal α) := occasions.flatMap (Occasion.posts audience)

/-- What is delivered, and then what waits, is what waited and what was published meanwhile. -/
theorem signals_drained (fuel : Nat) (bus : Bus κ α) (memory : μ) :
    (drained audience fuel bus memory).map Occasion.signal ++ (drain audience fuel bus memory).1.queue =
      bus.queue ++ posted audience (drained audience fuel bus memory) := by
  induction fuel generalizing bus memory with
  | zero => exact (List.append_nil _).symm
  | succ fuel ih =>
    cases hqueue : bus.queue with
    | nil => simp [drained, drain, hqueue, posted]
    | cons signal queue =>
      let occasion : Occasion κ α μ := ⟨{ bus with queue }, memory, signal⟩
      have hafter : (occasion.delivery audience).bus.queue = queue ++ occasion.posts audience :=
        occasion.queue_after audience
      have hrest := ih (occasion.delivery audience).bus (occasion.delivery audience).memory
      rw [hafter] at hrest
      simp only [drained, drain, hqueue, posted, List.map_cons, List.cons_append, List.flatMap_cons]
      exact congrArg (signal :: ·) (hrest.trans (List.append_assoc _ _ _))

/-- The signals that wait when a signal has been delivered, and so many others as there is room for. -/
def waiting (fuel : Nat) (bus : Bus κ α) (memory : μ) (signal : Signal α) : List (Signal α) :=
  let delivery := deliver audience bus memory signal
  (drain audience fuel delivery.bus delivery.memory).1.queue

theorem signals_published (fuel : Nat) (bus : Bus κ α) (memory : μ) (signal : Signal α) :
    (published audience fuel bus memory signal).map Occasion.signal ++ waiting audience fuel bus memory signal =
      signal :: (bus.queue ++ posted audience (published audience fuel bus memory signal)) := by
  let occasion : Occasion κ α μ := ⟨bus, memory, signal⟩
  have hafter : (occasion.delivery audience).bus.queue = bus.queue ++ occasion.posts audience :=
    occasion.queue_after audience
  have hrest := signals_drained audience fuel (occasion.delivery audience).bus (occasion.delivery audience).memory
  rw [hafter] at hrest
  simp only [published, posted, List.map_cons, List.cons_append, List.flatMap_cons]
  exact congrArg (signal :: ·) (hrest.trans (List.append_assoc _ _ _))

/-- From a bus on which nothing waits, the signal is delivered and what listeners publish. -/
theorem signals_of_rest {bus : Bus κ α} (rest : bus.queue = []) (fuel : Nat) (memory : μ) (signal : Signal α) :
    (published audience fuel bus memory signal).map Occasion.signal ++ waiting audience fuel bus memory signal =
      signal :: posted audience (published audience fuel bus memory signal) := by
  rw [signals_published, rest, List.nil_append]

/-- As long as signals wait, every delivery that may be made is made. -/
theorem length_drained {fuel : Nat} {bus : Bus κ α} {memory : μ}
    (h : (drain audience fuel bus memory).1.queue ≠ []) : (drained audience fuel bus memory).length = fuel := by
  induction fuel generalizing bus memory with
  | zero => rfl
  | succ fuel ih =>
    cases hqueue : bus.queue with
    | nil =>
      simp only [drain, hqueue] at h
      exact absurd rfl h
    | cons signal queue =>
      simp only [drain, hqueue] at h
      simp only [drained, hqueue, List.length_cons]
      exact congrArg (· + 1) (ih h)

theorem length_drained_le (fuel : Nat) (bus : Bus κ α) (memory : μ) :
    (drained audience fuel bus memory).length ≤ fuel := by
  induction fuel generalizing bus memory with
  | zero => exact Nat.le_refl 0
  | succ fuel ih =>
    cases hqueue : bus.queue with
    | nil => simp [drained, hqueue]
    | cons signal queue =>
      simp only [drained, hqueue, List.length_cons]
      exact Nat.succ_le_succ (ih _ _)

/-- With more fuel the same deliveries are made first. -/
theorem drained_isPrefix {fuel more : Nat} (h : fuel ≤ more) (bus : Bus κ α) (memory : μ) :
    (drained audience fuel bus memory) <+: (drained audience more bus memory) := by
  induction fuel generalizing more bus memory with
  | zero => exact List.nil_prefix
  | succ fuel ih =>
    obtain ⟨more, rfl⟩ := Nat.exists_eq_add_one_of_ne_zero (Nat.ne_of_gt (Nat.lt_of_lt_of_le fuel.succ_pos h))
    cases hqueue : bus.queue with
    | nil => simp [drained, hqueue]
    | cons signal queue =>
      simp only [drained, hqueue]
      exact (List.prefix_cons_inj _).mpr (ih (Nat.le_of_succ_le_succ h) _ _)

/-- Once nothing waits, more fuel changes nothing. -/
theorem drain_of_empty {fuel more : Nat} {bus : Bus κ α} {memory : μ} (h : fuel ≤ more)
    (hempty : (drain audience fuel bus memory).1.queue = []) :
    drain audience more bus memory = drain audience fuel bus memory ∧
      drained audience more bus memory = drained audience fuel bus memory := by
  induction fuel generalizing more bus memory with
  | zero =>
    have hqueue : bus.queue = [] := hempty
    cases more with
    | zero => exact ⟨rfl, rfl⟩
    | succ more => simp [drain, drained, hqueue]
  | succ fuel ih =>
    obtain ⟨more, rfl⟩ := Nat.exists_eq_add_one_of_ne_zero (Nat.ne_of_gt (Nat.lt_of_lt_of_le fuel.succ_pos h))
    cases hqueue : bus.queue with
    | nil => simp [drain, drained, hqueue]
    | cons signal queue =>
      simp only [drain, hqueue] at hempty
      obtain ⟨hdrain, hdrained⟩ := ih (Nat.le_of_succ_le_succ h) hempty
      simp only [drain, drained, hqueue]
      exact ⟨hdrain, congrArg _ hdrained⟩

/-- Listeners publish so many signals when a signal is published, however many deliveries are made. -/
structure Posts (bus : Bus κ α) (memory : μ) (signal : Signal α) (count : Nat) : Prop where
  bounded : ∀ fuel, (posted audience (published audience fuel bus memory signal)).length ≤ count
  reached : ∃ fuel, (posted audience (published audience fuel bus memory signal)).length = count

variable {audience} {bus : Bus κ α} {memory : μ} {signal : Signal α} {count fuel more : Nat}

theorem published_isPrefix (h : fuel ≤ more) :
    (published audience fuel bus memory signal) <+: (published audience more bus memory signal) :=
  (List.prefix_cons_inj _).mpr (drained_isPrefix audience h _ _)

theorem published_of_empty (h : fuel ≤ more) (hempty : waiting audience fuel bus memory signal = []) :
    published audience more bus memory signal = published audience fuel bus memory signal :=
  congrArg _ (drain_of_empty audience h hempty).2

theorem length_posted_le (h : fuel ≤ more) :
    (posted audience (published audience fuel bus memory signal)).length ≤
      (posted audience (published audience more bus memory signal)).length := by
  obtain ⟨later, hlater⟩ : published audience fuel bus memory signal <+:
      published audience more bus memory signal := published_isPrefix h
  rw [← hlater, posted, posted, List.flatMap_append, List.length_append]
  exact Nat.le_add_right _ _

/-- When nothing waits, all has been published that will be. -/
theorem Posts.of_empty (hempty : waiting audience fuel bus memory signal = []) :
    Posts audience bus memory signal (posted audience (published audience fuel bus memory signal)).length := by
  refine ⟨fun other => ?_, fuel, rfl⟩
  rcases Nat.le_total other fuel with hle | hle
  · exact length_posted_le hle
  · exact Nat.le_of_eq (by rw [published_of_empty hle hempty])

theorem Posts.unique {other : Nat} (posts : Posts audience bus memory signal count)
    (others : Posts audience bus memory signal other) : count = other := by
  obtain ⟨fuel, hfuel⟩ := posts.reached
  obtain ⟨more, hmore⟩ := others.reached
  exact Nat.le_antisymm (hfuel ▸ others.bounded fuel) (hmore ▸ posts.bounded more)

/-- From a bus on which nothing waits, every signal that is published is delivered, and no other. -/
theorem Posts.settles (posts : Posts audience bus memory signal count) (rest : bus.queue = [])
    (h : count ≤ fuel) :
    waiting audience fuel bus memory signal = [] ∧
      (published audience fuel bus memory signal).length = count + 1 ∧
      (published audience fuel bus memory signal).map Occasion.signal =
        signal :: posted audience (published audience fuel bus memory signal) := by
  have hsignals := signals_of_rest audience rest fuel memory signal
  have hlength := congrArg List.length hsignals
  rw [List.length_append, List.length_map, List.length_cons] at hlength
  have hbounded := posts.bounded fuel
  have hempty : waiting audience fuel bus memory signal = [] := by
    refine Classical.byContradiction fun hwaiting => ?_
    have hdrained : (published audience fuel bus memory signal).length = fuel + 1 :=
      congrArg (· + 1) (length_drained audience hwaiting)
    have := List.length_pos_iff.mpr hwaiting
    omega
  rw [hempty, List.length_nil] at hlength
  rw [hempty, List.append_nil] at hsignals
  have hcount := posts.unique (.of_empty hempty)
  exact ⟨hempty, by omega, hsignals⟩

/-- Nothing waits after so many deliveries exactly if listeners publish no more signals than that. -/
theorem waiting_eq_nil_iff (rest : bus.queue = []) :
    waiting audience fuel bus memory signal = [] ↔ ∃ count, count ≤ fuel ∧ Posts audience bus memory signal count := by
  constructor
  · intro hempty
    have hlength := congrArg List.length (signals_of_rest audience rest fuel memory signal)
    rw [hempty, List.append_nil, List.length_map, List.length_cons] at hlength
    have hfuel : (published audience fuel bus memory signal).length ≤ fuel + 1 :=
      Nat.succ_le_succ (length_drained_le audience fuel _ _)
    rw [hlength] at hfuel
    exact ⟨_, Nat.le_of_succ_le_succ hfuel, .of_empty hempty⟩
  · intro hposts
    obtain ⟨count, hcount, posts⟩ := hposts
    exact (posts.settles rest hcount).1

/-- With less room than listeners publish signals, the room is used up, and signals wait. -/
theorem Posts.exceeds (posts : Posts audience bus memory signal count) (rest : bus.queue = [])
    (h : fuel < count) :
    waiting audience fuel bus memory signal ≠ [] ∧
      (published audience fuel bus memory signal).length = fuel + 1 := by
  have hwaiting : waiting audience fuel bus memory signal ≠ [] := by
    intro hempty
    obtain ⟨other, hother, others⟩ := (waiting_eq_nil_iff rest).mp hempty
    rw [posts.unique others] at h
    exact absurd hother (Nat.not_le_of_lt h)
  exact ⟨hwaiting, congrArg (· + 1) (length_drained audience hwaiting)⟩

end Bus

end Parley

import Parley.Proofs.Bus.Queue

/-! What listeners publish.

If whatever a listener may publish when it hears a signal has a property, then so has all that is published in the
delivery of that signal (`publishes_posts`). A crowd passes on one call with as many murmurs as it is told to, and no
one listens to those: so a publication sets off that many signals, and no others (`Crowd.posts`). -/
namespace Parley

variable {κ α μ : Type}

/-- Whether a program publishes nothing but such signals. -/
def Program.Publishes (P : Signal α → Prop) : Program κ α μ → Prop
  | done _ => True
  | fail _ => True
  | act action next => (∀ signal ∈ action.posted?, P signal) ∧ ∀ answer, (next answer).Publishes P

section

variable [DecidableEq κ] {audience : Audience κ α μ} {P : Signal α → Prop} {signal : Signal α}

theorem publishes_run {program : Program κ α μ} (h : program.Publishes P) {incidents : List (Incident κ α)}
    (hposts : ∀ other ∈ Incident.posts incidents, P other)
    (delivery : Delivery κ α (μ × List (Incident κ α))) :
    ∀ other ∈ Incident.posts ((program.noted incidents).run audience.noted signal delivery).notes, P other := by
  induction program generalizing incidents delivery with
  | done memory => exact hposts
  | fail memory => exact hposts
  | act action next ih =>
    obtain ⟨haction, hnext⟩ := h
    refine ih _ (hnext _) ?_ _
    rw [Incident.posts_append_did]
    refine List.forall_mem_append.mpr ⟨hposts, fun other hother => haction other ?_⟩
    exact Option.mem_toList.mp hother

variable (h : ∀ entry memory, (audience.program entry signal memory).Publishes P)
include h

theorem publishes_go (entries : List (Subscription κ)) {delivery : Delivery κ α (μ × List (Incident κ α))}
    (hposts : ∀ other ∈ Incident.posts delivery.notes, P other) :
    ∀ other ∈ Incident.posts (delivery.go audience.noted signal entries).notes, P other := by
  induction entries generalizing delivery with
  | nil => exact hposts
  | cons entry rest ih =>
    have hcalled : ∀ other ∈ Incident.posts (delivery.notes ++ [.called entry]), P other := by
      rwa [Incident.posts_append_called]
    have hcall : ∀ other ∈ Incident.posts (delivery.call audience.noted signal entry).notes, P other := by
      rw [Delivery.call_eq]
      exact publishes_run (h entry delivery.memory.1) hcalled (delivery.turning entry)
    by_cases hanswers : delivery.bus.answers entry = true
    · simp only [Delivery.go, hanswers, if_true]
      by_cases hdone : (delivery.call audience.noted signal entry).consumed = true
      · rw [if_pos hdone]
        exact hcall
      · rw [if_neg hdone]
        exact ih hcall
    · simp only [Delivery.go, hanswers]
      exact ih hposts

theorem publishes_posts (bus : Bus κ α) (memory : μ) :
    ∀ other ∈ Occasion.posts audience ⟨bus, memory, signal⟩, P other :=
  publishes_go h _ fun _ hother => absurd hother List.not_mem_nil

end

/-! ### A crowd -/

namespace Crowd

/-- A murmur. -/
def murmur : Signal Nat := ⟨.variableSet, 0⟩

/-- So many murmurs. -/
def murmurs : Nat → Program Unit Nat Unit
  | 0 => .done ()
  | count + 1 => .act (.publish murmur) fun _ => murmurs count

/-- Whoever hears of a node murmurs as often as the number says that comes with it. -/
def audience : Audience Unit Nat Unit where
  program _ signal _ := if signal.topic = .nodeEntered then murmurs signal.data else .done ()
  failed _ _ := ()

/-- One listens for nodes. -/
def bus : Bus Unit Nat := (Bus.empty []).subscribe .nodeEntered () 0 false false

theorem publishes_murmurs (count : Nat) : (murmurs count).Publishes (· = murmur) := by
  induction count with
  | zero => trivial
  | succ count ih => exact ⟨fun signal hsignal => (Option.some.inj hsignal).symm, fun _ => ih⟩

theorem length_posts_run (signal : Signal Nat) (count : Nat) (incidents : List (Incident Unit Nat))
    (delivery : Delivery Unit Nat (Unit × List (Incident Unit Nat))) :
    (Incident.posts (((murmurs count).noted incidents).run audience.noted signal delivery).notes).length =
      (Incident.posts incidents).length + count := by
  induction count generalizing incidents delivery with
  | zero => rfl
  | succ count ih =>
    have hrest := ih (incidents ++ [.did (.publish murmur)])
      { delivery with
        bus := (Action.perform delivery.bus (.publish murmur)).1
        consumed := delivery.consumed || (Action.publish murmur : Action Unit Nat).consumes }
    rw [Incident.posts_append_did, List.length_append] at hrest
    refine hrest.trans ?_
    rw [Nat.add_assoc, Nat.add_comm count]
    rfl

/-- When a node is heard of, there are so many murmurs. -/
theorem length_posts_entered (count : Nat) :
    (Occasion.posts audience ⟨bus, (), ⟨.nodeEntered, count⟩⟩).length = count := by
  let entry : Subscription Unit := ⟨0, (), 0, false, false⟩
  let start : Delivery Unit Nat (Unit × List (Incident Unit Nat)) :=
    ⟨bus.opening .nodeEntered, ((), []), false, []⟩
  have hanswers : start.bus.answers entry = true := by decide
  have hgo : start.go audience.noted ⟨.nodeEntered, count⟩ [entry] =
      start.call audience.noted ⟨.nodeEntered, count⟩ entry := by
    simp only [Delivery.go, hanswers, if_true, ite_self]
  show (Incident.posts (start.go audience.noted ⟨.nodeEntered, count⟩ [entry]).notes).length = count
  rw [hgo, Delivery.call_eq]
  exact (length_posts_run ⟨.nodeEntered, count⟩ count [.called entry] (start.turning entry)).trans (Nat.zero_add _)

/-- When a murmur is heard, nothing is said. -/
theorem posts_murmur (bus : Bus Unit Nat) (memory : Unit) : Occasion.posts audience ⟨bus, memory, murmur⟩ = [] := by
  have hquiet : ∀ entry memory, (audience.program entry murmur memory).Publishes fun _ => False :=
    fun _ _ => trivial
  exact List.eq_nil_iff_forall_not_mem.mpr (publishes_posts hquiet bus memory)

theorem posted_drained (fuel : Nat) {bus : Bus Unit Nat} (memory : Unit) (h : ∀ signal ∈ bus.queue, signal = murmur) :
    Bus.posted audience (Bus.drained audience fuel bus memory) = [] := by
  induction fuel generalizing bus memory with
  | zero => rfl
  | succ fuel ih =>
    cases hqueue : bus.queue with
    | nil => simp [Bus.drained, hqueue, Bus.posted]
    | cons signal queue =>
      rw [hqueue] at h
      obtain ⟨rfl, hrest⟩ := List.forall_mem_cons.mp h
      let occasion : Occasion Unit Nat Unit := ⟨{ bus with queue }, memory, murmur⟩
      have hafter : (occasion.after audience).queue = queue := by
        rw [occasion.queue_after audience, posts_murmur, List.append_nil]
      simp only [Bus.drained, hqueue, Bus.posted, List.flatMap_cons, posts_murmur, List.nil_append]
      exact ih _ (hafter.symm ▸ hrest)

/-- What is said of a node sets off so many signals. -/
theorem posts (count : Nat) : Bus.Posts audience bus () ⟨.nodeEntered, count⟩ count := by
  have hposted : ∀ fuel,
      (Bus.posted audience (Bus.published audience fuel bus () ⟨.nodeEntered, count⟩)).length = count := by
    intro fuel
    let occasion : Occasion Unit Nat Unit := ⟨bus, (), ⟨.nodeEntered, count⟩⟩
    have hqueue : ∀ signal ∈ (occasion.after audience).queue, signal = murmur := by
      rw [occasion.queue_after audience]
      exact publishes_posts (fun _ _ => publishes_murmurs count) bus ()
    have hrest := posted_drained fuel (occasion.delivery audience).memory hqueue
    have hpublished : Bus.posted audience (Bus.published audience fuel bus () ⟨.nodeEntered, count⟩) =
        occasion.posts audience ++ [] := congrArg (occasion.posts audience ++ ·) hrest
    rw [hpublished, List.append_nil]
    exact length_posts_entered count
  exact ⟨fun fuel => Nat.le_of_eq (hposted fuel), 0, hposted 0⟩

end Crowd

end Parley

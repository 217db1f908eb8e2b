import Parley.Proofs.Play.Marked

/-! Beginning afresh.

Runners that differ in nothing but their marks are `Alike`. What is asked of them is met alike, but for the flags of what
is offered, and they stay alike (`Alike.performs`). After a choice or a move to a node a runner is like a new one that
begins there, so it goes on like that one (`goes_on_afresh`). -/
namespace Parley

variable {ω η ε : Type}

/-! ### Without flags -/

def Offer.unmarked (offer : Offer) : Offer := { offer with used := false }

/-- Numbered offers without flags. -/
def unflagged (offers : List (Nat × Offer)) : List (Nat × Offer) := offers.map (Prod.map id Offer.unmarked)

def Event.unmarked : Event → Event
  | .options speaker offers => .options speaker (offers.map Offer.unmarked)
  | event => event

def Notice.unmarked : Notice → Notice
  | .optionsPresented title offers => .optionsPresented title (offers.map Offer.unmarked)
  | notice => notice

def Effect.unmarked : Effect η → Effect η
  | .tell notice => .tell notice.unmarked
  | effect => effect

/-- What a runner shows of itself, without flags and without what it says of choices that have been made. -/
def View.unmarked (view : View) : View :=
  { view with offers := view.offers.map Offer.unmarked, used := fun _ _ _ => false }

/-- Runners at one line, in one phase, that offer the same at the same positions but for flags. -/
structure Runner.Alike (runner other : Runner) : Prop where
  node : other.node = runner.node
  line : other.line = runner.line
  phase : other.phase = runner.phase
  offers : unflagged other.offers = unflagged runner.offers

/-! ### Turns that do alike -/

namespace Turn

variable (turn : Turn ω η ε) (dialog : Dialog)

/-- All that is done to the world when a turn is taken. -/
structure Does (runner : Runner) (w : ω) (done : List (Effect η)) : Prop where
  performs : (turn.setting dialog).Performs runner (turn.prepare w) turn.request done
    (turn.take dialog runner w).result (turn.take dialog runner w).runner
  leaves : (turn.take dialog runner w).world = (turn.setting dialog).effects (turn.prepare w) done

/-- Worlds that nothing in a turn tells apart once the host has prepared them: they are read alike, handlers fail alike
in them, and what is done to both alike keeps them so. -/
def Level (w w' : ω) : Prop :=
  ∃ R, (turn.setting dialog).Mirrors id R (turn.setting dialog) ∧ R (turn.prepare w) (turn.prepare w')

/-- Worlds that are alike stay so in a turn, also when what is told differs in flags. -/
structure Overlooks (R : ω → ω → Prop) : Prop where
  mirrors : turn.Mirrors id R dialog dialog turn
  publish : ∀ {w w' notice notice'}, R w w' → Notice.unmarked notice' = Notice.unmarked notice →
    R (turn.world.publish notice w) (turn.world.publish notice' w')

/-- A turn that does alike for two runners in worlds of their own, but for flags: what it gives, what is done to the
world, in order, and what the runners then show of themselves. -/
structure DoesAlike (runner : Runner) (w : ω) (other : Runner) (w' : ω) : Prop where
  gives : (turn.take dialog other w').result.map (Option.map Event.unmarked) =
    (turn.take dialog runner w).result.map (Option.map Event.unmarked)
  does : ∃ done done', turn.Does dialog runner w done ∧ turn.Does dialog other w' done' ∧
    done'.map Effect.unmarked = done.map Effect.unmarked
  shows : ((turn.setting dialog).view (turn.take dialog other w').runner).unmarked =
    ((turn.setting dialog).view (turn.take dialog runner w).runner).unmarked

end Turn

/-- Two runners of which the same is asked, turn by turn, each in a world of its own: as long as the worlds are level,
the turns do alike. -/
def InStep (dialog : Dialog) : List (Turn ω η ε) → Runner → ω → Runner → ω → Prop
  | [], _, _, _, _ => True
  | turn :: rest, runner, w, other, w' =>
    turn.Level dialog w w' → turn.DoesAlike dialog runner w other w' ∧
      InStep dialog rest (turn.take dialog runner w).runner (turn.take dialog runner w).world
        (turn.take dialog other w').runner (turn.take dialog other w').world

/-! ### Offers without flags -/

theorem isEmpty_unflagged (offers : List (Nat × Offer)) : (unflagged offers).isEmpty = offers.isEmpty :=
  List.isEmpty_map

theorem snd_unflagged (offers : List (Nat × Offer)) :
    (unflagged offers).map Prod.snd = (offers.map Prod.snd).map Offer.unmarked := by
  simp [unflagged, Function.comp_def]

/-- Where an offer leads does not depend on its flag. -/
theorem find?_unflagged (offers : List (Nat × Offer)) (title : String) :
    (unflagged offers).find? (·.2.target = title) =
      (offers.find? (·.2.target = title)).map (Prod.map id Offer.unmarked) := List.find?_map

theorem map_some_unmarked (result : Except (PlayFault ε) Event) :
    (result.map some).map (Option.map Event.unmarked) = (result.map Event.unmarked).map some := by
  cases result <;> rfl

/-- Flags are told and nothing else is done with them. -/
theorem Effect.eq_or_tell_of_unmarked {effect effect' : Effect η} (h : effect'.unmarked = effect.unmarked) :
    effect' = effect ∨ ∃ notice notice', effect = .tell notice ∧ effect' = .tell notice' ∧
      notice'.unmarked = notice.unmarked := by
  cases effect' with
  | tell notice' =>
    cases effect with
    | tell notice => exact .inr ⟨notice, notice', rfl, rfl, Effect.tell.inj h⟩
    | _ => cases h
  | _ =>
    cases effect with
    | tell notice => cases h
    | _ => exact .inl h

/-! ### Runners that are alike -/

namespace Setting

variable {setting : Setting ω η ε} {R : ω → ω → Prop} {runner landed other : Runner} {w w' : ω} {host : η}
  {line : Line Nat} {lines : List (Line Nat)} {done done' : List (Effect η)}

theorem Mirrors.handler (mirrors : setting.Mirrors id R setting) {name : String} {handler : Handler ω η ε}
    (registered : setting.commands.get? name = some handler) : handler.Mirrors R handler := by
  have hname := mirrors.commands name
  rw [registered] at hname
  cases hname with
  | some hhandler => exact @hhandler

/-- In worlds that are alike a quiet line does the same. -/
theorem Quiet.mirrored (quiet : setting.Quiet host w line done) (mirrors : setting.Mirrors id R setting)
    (hw : R w w') : setting.Quiet host w' line done := by
  cases quiet with
  | assign => exact .assign
  | command registered succeeds =>
    exact .command registered ((mirrors.handler registered _ host hw).2.trans succeeds)

theorem Mirrors.effect (mirrors : setting.Mirrors id R setting) (hw : R w w') (effect : Effect η) :
    R (setting.effect w effect) (setting.effect w' effect) := by
  cases effect with
  | set name value => exact mirrors.world.set name value hw
  | tell notice => exact mirrors.world.publish notice hw
  | report entry => exact mirrors.world.report entry hw
  | call name arguments host =>
    show R ((setting.commands.get? name).elim w _) ((setting.commands.get? name).elim w' _)
    cases registered : setting.commands.get? name with
    | none => exact hw
    | some handler => exact (mirrors.handler registered arguments host hw).1

theorem Mirrors.effects (mirrors : setting.Mirrors id R setting) (hw : R w w') (done : List (Effect η)) :
    R (setting.effects w done) (setting.effects w' done) := by
  induction done generalizing w w' with
  | nil => exact hw
  | cons effect rest ih => exact ih (mirrors.effect hw effect)

end Setting

namespace Runner.Alike

variable {setting : Setting ω η ε} {R : ω → ω → Prop} {runner landed other : Runner} {w w' : ω} {host : η}
  {line : Line Nat} {lines : List (Line Nat)} {done : List (Effect η)}

theorem reads (h : runner.Alike other) (reads : setting.Reads runner line) : setting.Reads other line := by
  unfold Setting.Reads
  rwa [h.node, h.line]

theorem hasMore (h : runner.Alike other) : setting.HasMore other ↔ setting.HasMore runner := by
  unfold Setting.HasMore
  rw [h.node, h.line]

theorem onward (h : runner.Alike other) : runner.onward.Alike other.onward :=
  ⟨h.node, congrArg (· + 1) h.line, h.phase, h.offers⟩

theorem stopped (h : runner.Alike other) : runner.stopped.Alike other.stopped :=
  ⟨h.node, congrArg (· + 1) h.line, rfl, rfl⟩

theorem ending (h : runner.Alike other) : setting.ending other = setting.ending runner := by
  unfold Setting.ending
  rw [h.node]

/-- Beginning a node leaves nothing to tell runners apart but their marks. -/
theorem entering (runner other : Runner) (node : Nat) : (runner.entering node).Alike (other.entering node) :=
  ⟨rfl, rfl, rfl, rfl⟩

/-- A line that leads on leads runners that are alike to where they are alike, and does the same. -/
theorem pass (h : runner.Alike other) (mirrors : setting.Mirrors id R setting) (hw : R w w')
    (pass : setting.Pass host runner w line done landed) :
    ∃ landed', setting.Pass host other w' line done landed' ∧ landed.Alike landed' := by
  cases pass with
  | onward quiet more => exact ⟨_, .onward (quiet.mirrored mirrors hw) (h.hasMore.mpr more), h.onward⟩
  | jump found => exact ⟨_, .jump found, entering ..⟩

/-- Runners that are alike go the same way. -/
theorem way (h : runner.Alike other) (mirrors : setting.Mirrors id R setting) (hw : R w w')
    (way : setting.Way host runner w lines done landed) :
    ∃ landed', setting.Way host other w' lines done landed' ∧ landed.Alike landed' := by
  induction way generalizing other w' with
  | here => exact ⟨_, .here, h⟩
  | pass reads pass _ ih =>
    obtain ⟨between, hpass, hbetween⟩ := h.pass mirrors hw pass
    -- what was done for the line is the same, so the worlds that it leaves are alike too
    obtain ⟨landed', hway, hlanded⟩ := ih hbetween (mirrors.effects hw _)
    exact ⟨landed', .pass (h.reads reads) hpass hway, hlanded⟩

/-- A menu offers the same to any runners, but for flags. -/
theorem unflagged_offers (setting : Setting ω η ε) (runner other : Runner)
    (hget : setting.world.get w' = setting.world.get w) (menu : Menu Nat) :
    unflagged (setting.offers other w' menu) = unflagged (setting.offers runner w menu) := by
  unfold unflagged Setting.offers
  rw [Setting.offersFrom_eq, Setting.offersFrom_eq, List.map_filterMap, List.map_filterMap]
  refine List.filterMap_congr fun numbered _ => ?_
  unfold Setting.offer?
  rw [hget]
  split <;> rfl

/-- Showing what is offered does the same, but for flags. -/
theorem showing (h : runner.Alike other) {offers offers' : List (Nat × Offer)}
    (hoffers : unflagged offers' = unflagged offers) :
    (setting.showing other offers').map Effect.unmarked =
      (setting.showing (η := η) runner offers).map Effect.unmarked := by
  unfold Setting.showing Setting.nothingOffered
  rw [h.node, ← isEmpty_unflagged, hoffers, isEmpty_unflagged, List.map_append, List.map_append]
  simp only [List.map_cons, List.map_nil, Effect.unmarked, Notice.unmarked, ← snd_unflagged, hoffers]

/-- A line that gives a result gives it alike, but for flags. -/
theorem stop {result : Except (PlayFault ε) Event} (h : runner.Alike other) (mirrors : setting.Mirrors id R setting)
    (hw : R w w') (stop : setting.Stop host runner w line done result landed) :
    ∃ done' result' landed', setting.Stop host other w' line done' result' landed' ∧
      done'.map Effect.unmarked = done.map Effect.unmarked ∧
      result'.map Event.unmarked = result.map Event.unmarked ∧ landed.Alike landed' := by
  cases stop with
  | speech more => exact ⟨_, _, _, .speech (h.hasMore.mpr more), rfl, rfl, h.node, h.onward.line, rfl, h.offers⟩
  | lastSpeech last => exact ⟨_, _, _, .lastSpeech (mt h.hasMore.mp last), by rw [h.ending], rfl, h.stopped⟩
  | lastQuiet quiet last =>
    exact ⟨_, _, _, .lastQuiet (quiet.mirrored mirrors hw) (mt h.hasMore.mp last), by rw [h.ending], rfl, h.stopped⟩
  | @menu menu =>
    have hoffers := unflagged_offers setting runner other (mirrors.world.get hw) menu
    refine ⟨_, _, _, .menu, h.showing hoffers, ?_, h.node, h.line, rfl, hoffers⟩
    simp only [Except.map, Event.unmarked, ← snd_unflagged, hoffers]
  | unregistered missing =>
    refine ⟨_, _, _, .unregistered missing, ?_, rfl, h⟩
    rw [h.node]
  | failed registered fails =>
    exact ⟨_, _, _, .failed registered ((mirrors.handler registered _ host hw).2.trans fails), rfl, rfl, h⟩

/-! ### Requests -/

/-- Of runners that are alike, the same offer is the first that leads to a title. -/
theorem find? (h : runner.Alike other) (title : String) :
    (other.offers.find? (·.2.target = title)).map (Prod.map id Offer.unmarked) =
      (runner.offers.find? (·.2.target = title)).map (Prod.map id Offer.unmarked) := by
  rw [← find?_unflagged, h.offers, find?_unflagged]

theorem idle {request : Request η} {result : Except (PlayFault ε) (Option Event)} (h : runner.Alike other)
    (idle : Idle setting.dialog runner request result) : Idle setting.dialog other request result := by
  cases idle with
  | waiting waiting => exact .waiting (h.phase.trans waiting)
  | ended ended => exact .ended (h.phase.trans ended)
  | notWaiting busy =>
    rw [← h.phase] at busy ⊢
    exact .notWaiting busy
  | @notOffered title waiting unoffered =>
    refine .notOffered (h.phase.trans waiting) fun offer hoffer htarget => ?_
    have hfind := h.find? title
    rw [Setting.find?_eq_none_of_unoffered unoffered, Option.map_none, Option.map_eq_none_iff,
      List.find?_eq_none] at hfind
    exact hfind offer hoffer (by simpa using htarget)
  | unknownNode unknown => exact .unknownNode unknown

/-- A choice or a move is made alike. -/
theorem moves {request : Request η} (h : runner.Alike other) (moves : setting.Moves runner request done landed) :
    ∃ landed', setting.Moves other request done landed' ∧ landed.Alike landed' := by
  cases moves with
  | reset found => exact ⟨_, .reset found, entering ..⟩
  | @choose title offer menu choice node waiting offered reads member target found =>
    have hfind := h.find? title
    rw [offered, Option.map_some, Option.map_eq_some_iff] at hfind
    obtain ⟨offer', offered', hoffer⟩ := hfind
    have htext : offer'.2.text = offer.2.text := congrArg (fun offer => offer.2.text) hoffer
    have hmoves := Setting.Moves.choose (η := η) (h.phase.trans waiting) offered' (h.reads reads) member target found
    rw [h.node, htext] at hmoves
    exact ⟨_, hmoves, entering ..⟩

/-- What is asked of runners that are alike is met alike, but for flags, and they stay alike. -/
theorem performs {request : Request η} {result : Except (PlayFault ε) (Option Event)} (h : runner.Alike other)
    (mirrors : setting.Mirrors id R setting) (hw : R w w')
    (performs : setting.Performs runner w request done result landed) :
    ∃ done' result' landed', setting.Performs other w' request done' result' landed' ∧
      done'.map Effect.unmarked = done.map Effect.unmarked ∧
      result'.map (Option.map Event.unmarked) = result.map (Option.map Event.unmarked) ∧ landed.Alike landed' := by
  cases performs with
  | idle idle => exact ⟨[], result, other, .idle (h.idle idle), rfl, rfl, h⟩
  | moves moves =>
    obtain ⟨landed', hmoves, hlanded⟩ := h.moves moves
    exact ⟨done, _, landed', .moves hmoves, rfl, rfl, hlanded⟩
  | givesUp going along limit =>
    obtain ⟨landed', hway, hlanded⟩ := h.way mirrors hw along
    refine ⟨done, _, landed', .givesUp (h.phase ▸ going) hway limit, rfl, ?_, hlanded⟩
    rw [hlanded.node]
  | @stops _ _ way _ _ _ _ shown going along within reads stop =>
    obtain ⟨between', hway, hbetween⟩ := h.way mirrors hw along
    obtain ⟨last', shown', landed', hstop, hlast, hshown, hlanded⟩ :=
      hbetween.stop mirrors (mirrors.effects hw way) stop
    refine ⟨way ++ last', _, landed', .stops (h.phase ▸ going) hway within (hbetween.reads reads) hstop, ?_, ?_,
      hlanded⟩
    · rw [List.map_append, List.map_append, hlast]
    · rw [map_some_unmarked, map_some_unmarked, hshown]

theorem view (h : runner.Alike other) : (setting.view other).unmarked = (setting.view runner).unmarked := by
  unfold Setting.view View.unmarked
  rw [h.phase, h.node, h.line]
  simp only [← snd_unflagged, h.offers]

end Runner.Alike

/-! ### Turns -/

variable {dialog : Dialog} {turn : Turn ω η ε} {runner other : Runner} {w w' : ω} {R : ω → ω → Prop}

namespace Turn

/-- A turn as it is. -/
theorem mirrors_self (turn : Turn ω η ε) (dialog : Dialog) : turn.Mirrors id Eq dialog dialog turn where
  setting := ⟨rearranged_self dialog, rfl, turn.world.mirrors_self, turn.commands.mirrors_self⟩
  prepare h := congrArg turn.prepare h
  request := rfl

/-- Worlds that the host makes the same are level. -/
theorem level_of_eq (h : turn.prepare w = turn.prepare w') : turn.Level dialog w w' :=
  ⟨Eq, (turn.mirrors_self dialog).setting, h⟩

theorem Overlooks.effect (overlooks : turn.Overlooks dialog R) (hw : R w w') {effect effect' : Effect η}
    (heffect : effect'.unmarked = effect.unmarked) :
    R ((turn.setting dialog).effect w effect) ((turn.setting dialog).effect w' effect') := by
  rcases Effect.eq_or_tell_of_unmarked heffect with rfl | ⟨notice, notice', rfl, rfl, hnotice⟩
  · exact overlooks.mirrors.setting.effect hw effect'
  · exact overlooks.publish hw hnotice

/-- What is done alike but for flags keeps worlds alike. -/
theorem Overlooks.effects (overlooks : turn.Overlooks dialog R) (hw : R w w') {done done' : List (Effect η)}
    (hdone : done'.map Effect.unmarked = done.map Effect.unmarked) :
    R ((turn.setting dialog).effects w done) ((turn.setting dialog).effects w' done') := by
  induction done generalizing w w' done' with
  | nil =>
    rw [List.map_eq_nil_iff.mp hdone]
    exact hw
  | cons effect rest ih =>
    obtain ⟨effect', rest', rfl, heffect, hrest⟩ := List.map_eq_cons_iff.mp hdone
    exact ih (overlooks.effect hw heffect) hrest

/-- In level worlds a turn does alike for runners that are alike, and they stay alike. -/
theorem doesAlike (alike : runner.Alike other) (standing : Standing dialog runner) (standing' : Standing dialog other)
    (level : turn.Level dialog w w') :
    turn.DoesAlike dialog runner w other w' ∧
      (turn.take dialog runner w).runner.Alike (turn.take dialog other w').runner := by
  obtain ⟨R, mirrors, hw⟩ := level
  have hstanding' : Standing (turn.setting dialog).dialog other := standing'
  obtain ⟨done, result, landed, performs, htake⟩ := turn.exists_take standing w
  obtain ⟨done', result', landed', performs', hdone, hresult, hlanded⟩ := alike.performs mirrors hw performs
  have htake' : turn.take dialog other w' = ⟨result', landed', (turn.setting dialog).effects (turn.prepare w') done'⟩ :=
    performs'.meet hstanding'
  refine ⟨⟨?_, ⟨done, done', ⟨?_, ?_⟩, ⟨?_, ?_⟩, hdone⟩, ?_⟩, ?_⟩
  · rw [htake, htake']
    exact hresult
  · rw [htake]
    exact performs
  · rw [htake]
  · rw [htake']
    exact performs'
  · rw [htake']
  · rw [htake, htake']
    exact hlanded.view
  · rw [htake, htake']
    exact hlanded

end Turn

/-- Runners that are alike are in step, whatever is asked of them. -/
theorem inStep_of_alike (turns : List (Turn ω η ε)) (alike : runner.Alike other) (standing : Standing dialog runner)
    (standing' : Standing dialog other) : InStep dialog turns runner w other w' := by
  induction turns generalizing runner other w w' with
  | nil => trivial
  | cons turn rest ih =>
    intro level
    obtain ⟨does, hlanded⟩ := Turn.doesAlike alike standing standing' level
    exact ⟨does, ih hlanded (standing.take turn w).standing (standing'.take turn w').standing⟩

/-- Where flags make no difference, a turn does alike for runners that are alike, and leaves worlds that are. -/
theorem Turn.Overlooks.take (overlooks : turn.Overlooks dialog R) (hw : R w w') (alike : runner.Alike other)
    (standing : Standing dialog runner) (standing' : Standing dialog other) :
    turn.DoesAlike dialog runner w other w' ∧
      (turn.take dialog runner w).runner.Alike (turn.take dialog other w').runner ∧
      R (turn.take dialog runner w).world (turn.take dialog other w').world := by
  obtain ⟨does, hlanded⟩ :=
    doesAlike alike standing standing' ⟨R, overlooks.mirrors.setting, overlooks.mirrors.prepare hw⟩
  obtain ⟨done, done', hdoes, hdoes', hdone⟩ := does.does
  refine ⟨does, hlanded, ?_⟩
  rw [hdoes.leaves, hdoes'.leaves]
  exact overlooks.effects (overlooks.mirrors.prepare hw) hdone

/-- So do turns, one after the other. -/
theorem course_alike {turns : List (Turn ω η ε)} (overlooks : ∀ turn ∈ turns, turn.Overlooks dialog R) (hw : R w w')
    (alike : runner.Alike other) (standing : Standing dialog runner) (standing' : Standing dialog other) :
    (course dialog turns runner w).1.Alike (course dialog turns other w').1 ∧
      R (course dialog turns runner w).2 (course dialog turns other w').2 := by
  induction turns generalizing runner other w w' with
  | nil => exact ⟨alike, hw⟩
  | cons turn rest ih =>
    obtain ⟨first, later⟩ := List.forall_mem_cons.mp overlooks
    obtain ⟨_, hlanded, hworld⟩ := first.take hw alike standing standing'
    exact ih later hworld hlanded (standing.take turn w).standing (standing'.take turn w').standing

namespace Setting

/-- The runner after a move to the node with a title, or after a choice that leads there. -/
inductive Begins (setting : Setting ω η ε) (title : String) (runner : Runner) : Runner → Prop where
  | reset (w : ω) (accepted : (setting.reset title runner w).result = .ok ()) :
      Begins setting title runner (setting.reset title runner w).runner
  | choose (w : ω) (accepted : (setting.choose title runner w).result = .ok ()) :
      Begins setting title runner (setting.choose title runner w).runner

variable {setting : Setting ω η ε} {check : Bool} {title : String} {w₀ : ω} {fresh moved : Runner}

/-- A runner that begins a node stands there, like a new one but for its marks. -/
theorem Begins.alike (begins : setting.Begins title runner moved) (standing : Standing setting.dialog runner)
    (create : setting.create check title w = (.ok fresh, w₀)) :
    Standing setting.dialog moved ∧ moved.Alike fresh := by
  obtain ⟨hindex, hfresh, _⟩ := eq_of_create create
  have hentering : ∀ marked : Runner, (marked.entering fresh.node).Alike fresh := by
    intro marked
    rw [hfresh]
    exact .entering marked ⟨fresh.node, 0, .start, [], []⟩ fresh.node
  cases begins with
  | reset w accepted =>
    refine ⟨(standing.reset (η := η) title w).standing, ?_⟩
    rw [Setting.reset, hindex]
    exact hentering runner
  | choose w accepted =>
    refine ⟨(standing.choose (η := η) title w).standing, ?_⟩
    rcases setting.moves_or_error_of_choose standing title w with ⟨done, landed, moves, hchoose⟩ | ⟨fault, hchoose⟩
    · rw [hchoose]
      cases moves with
      | choose _ _ _ _ _ found =>
        cases hindex.symm.trans found
        exact hentering _
    · rw [hchoose] at accepted
      cases accepted

/-- **Who begins a node goes on afresh.** Whatever a runner has been through, it can go to the node at which a new one
begins. Once it has gone there, or a choice has led there, it shows of itself what the new one does but for flags and
marks, and whatever is asked of the two, turn by turn, they are in step: as long as their worlds are level, each turn
gives the same, does the same to the world and leaves the same to be seen, but for flags. Where flags make no difference
to worlds that are alike, this holds of every turn, and the worlds stay alike. -/
theorem goes_on_afresh (reachable : Reachable setting.dialog runner)
    (create : setting.create check title w = (.ok fresh, w₀)) :
    (∀ w, (setting.reset title runner w).result = .ok ()) ∧
    ∀ moved, setting.Begins title runner moved →
      (setting.view moved).unmarked = (setting.view fresh).unmarked ∧
      ∀ (turns : List (Turn ω η ε)) (left right : ω),
        InStep setting.dialog turns moved left fresh right ∧
        ∀ R, (∀ turn ∈ turns, turn.Overlooks setting.dialog R) → R left right →
          ∀ earlier turn later, turns = earlier ++ turn :: later →
            let after := course setting.dialog earlier moved left
            let after' := course setting.dialog earlier fresh right
            turn.DoesAlike setting.dialog after.1 after.2 after'.1 after'.2 ∧
              R (turn.take setting.dialog after.1 after.2).world (turn.take setting.dialog after'.1 after'.2).world := by
  have hfresh := standing_of_created create
  refine ⟨fun w => ?_, fun moved begins => ?_⟩
  · rw [reset, (eq_of_create create).1]
  obtain ⟨hmoved, alike⟩ := begins.alike reachable.standing create
  refine ⟨alike.view.symm, fun turns left right => ⟨?_, ?_⟩⟩
  · exact inStep_of_alike turns alike hmoved hfresh
  · intro R overlooks hR earlier turn later hturns after after'
    rw [hturns] at overlooks
    obtain ⟨before, now⟩ := List.forall_mem_append.mp overlooks
    obtain ⟨hafter, hworld⟩ := course_alike before hR alike hmoved hfresh
    obtain ⟨does, _, hleft⟩ := (now turn List.mem_cons_self).take hworld hafter (hmoved.course earlier left)
      (hfresh.course earlier right)
    exact ⟨does, hleft⟩

/-- Who turns back on the road, and who comes to the gate for the first time, are told and asked the same by the guard.
Only greeting shows as used to the one. -/
theorem goes_on_afresh_at_gate :
    let runner : Runner := ⟨1, 1, .start, [], [⟨0, 2, 1⟩]⟩
    let moved := (Gate.setting.reset "Gate" runner .empty).runner
    let fresh : Runner := ⟨0, 0, .start, [], []⟩
    let turn := Gate.turn (.next ())
    let after := course Gate.dialog [turn] moved .empty
    let after' := course Gate.dialog [turn] fresh .empty
    Reachable Gate.dialog runner ∧ Gate.setting.create false "Gate" .empty = (.ok fresh, .empty) ∧
      turn.DoesAlike Gate.dialog moved .empty fresh .empty ∧
      turn.DoesAlike Gate.dialog after.1 after.2 after'.1 after'.2 ∧
      (turn.take Gate.dialog after.1 after.2).runner.offers.map (·.2.used) = [true, false] ∧
      (turn.take Gate.dialog after'.1 after'.2).runner.offers.map (·.2.used) = [false, false] := by
  intro runner moved fresh turn after after'
  have create : Gate.setting.create false "Gate" .empty = (.ok fresh, .empty) := rfl
  have reachable : Reachable Gate.dialog runner :=
    .course create [Gate.turn (.next ()), Gate.turn (.next ()), Gate.turn (.choose "Road"), Gate.turn (.next ())]
  have overlooks : ∀ asked ∈ [turn, turn], asked.Overlooks Gate.dialog Eq := by
    intro asked hasked
    rw [show asked = turn by simpa using hasked]
    exact ⟨turn.mirrors_self Gate.dialog, fun hw _ => hw⟩
  obtain ⟨_, hbegins⟩ := goes_on_afresh reachable create
  obtain ⟨_, hturns⟩ := hbegins moved (.reset .empty rfl)
  obtain ⟨inStep, alike⟩ := hturns [turn, turn] .empty .empty
  have hsecond := alike Eq overlooks rfl [turn] turn [] rfl
  exact ⟨reachable, create, (inStep (Turn.level_of_eq rfl)).1, hsecond.1, by decide, by decide⟩

end Setting

end Parley

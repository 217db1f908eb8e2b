import Parley.Library.Basic
import Parley.Proofs.Dialog.Reach
import Parley.Proofs.Play.Keeping
import Parley.Proofs.Play.Noting

/-! Where a course may lead.

Every way from one node to another is a reference of the line under the cursor: a jump, or a choice of the menu
that is offered. So a runner stays in a region that is closed under the references of the dialog, unless it is
reset (`Confined`). What can be reached from its start, or from where it was reset to, is such a region. -/
namespace Parley

variable {ω η ε : Type}

/-- Whether a title can be reached from one of some titles. -/
def Dialog.Around (dialog : Dialog) (sources : List String) (title : String) : Prop :=
  ∃ source ∈ sources, title ∈ dialog.reachable source

/-- The title that a turn asks the runner to be reset to. -/
def Turn.goal? (turn : Turn ω η ε) : Option String :=
  match turn.request with
  | .reset title => some title
  | _ => none

/-- A runner that is in a region and has entered no node outside it. -/
structure Confined (dialog : Dialog) (region : String → Prop) (runner : Runner) (told : List Notice) : Prop where
  here : region (dialog.titleAt runner.node)
  entered : ∀ title, Notice.nodeEntered title ∈ told → region title

/-! ### A shore to stay on -/

namespace Shore

/-- A shore that leads to itself only, and a wreck. -/
def dialog : Dialog where
  id := "shore"
  nodes := [
    ⟨"Shore", [.offer ⟨"", [⟨"Stay", "Shore", 0, none⟩], List.cons_ne_nil _ _⟩], .empty, 1,
      List.cons_ne_nil _ _⟩,
    ⟨"Wreck", [.say "" "Planks." []], .empty, 5, List.cons_ne_nil _ _⟩]
  distinct := by decide
  resolved := by decide

def setting : Setting (Table Bool) Unit Unit := { Gate.setting with dialog }

end Shore

/-! ### Regions -/

variable {dialog : Dialog} {region : String → Prop} {runner landed : Runner} {told later : List Notice}

theorem Dialog.closed_around (dialog : Dialog) (sources : List String) : dialog.Closed (dialog.Around sources) := by
  intro i line found r hregion hline hr
  obtain ⟨source, hsource, hmem⟩ := hregion
  exact ⟨source, hsource, dialog.closed_reachable source hmem hline hr⟩

theorem Dialog.around_of_mem {sources : List String} {title : String} {node : Nat} (hsource : title ∈ sources)
    (found : dialog.indexOf? title = some node) : dialog.Around sources title :=
  ⟨title, hsource, self_mem_reachable found⟩

/-- More is told, and the runner comes to where it may be. -/
theorem Confined.append (confined : Confined dialog region runner told) (here : region (dialog.titleAt landed.node))
    (entered : ∀ title, Notice.nodeEntered title ∈ later → region title) :
    Confined dialog region landed (told ++ later) where
  here := here
  entered := fun title hmem => (List.mem_append.mp hmem).elim (confined.entered title) (entered title)

/-- The runner enters a node of the region. -/
theorem Confined.entering (confined : Confined dialog region runner told) {title : String} {node : Nat}
    (found : dialog.indexOf? title = some node) (hregion : region title) :
    Confined dialog region (runner.entering node) (told ++ [.nodeEntered title]) := by
  refine confined.append ?_ fun entered hmem => ?_
  · rw [← dialog.titleAt_of_indexOf? found] at hregion
    exact hregion
  · cases List.mem_singleton.mp hmem
    exact hregion

/-- What a library reports about nodes names some that cannot be reached from its starting node. -/
theorem Library.exists_of_unreachableReport {config : Config} {entry : LogEntry}
    (h : entry ∈ unreachableReport config dialog) : ∃ lost : List String,
      entry = ⟨.warning, s!"Dialog '{dialog.id}': nodes unreachable from '{config.startNode}': " ++
        Names.join lost⟩ ∧ ∀ name ∈ lost, name ∉ dialog.reachable config.startNode := by
  unfold unreachableReport at h
  split at h
  · simp only at h
    split at h
    · cases h
    · refine ⟨_, List.mem_singleton.mp h, fun name hname => ?_⟩
      rw [Names.mem_sorted, List.mem_filter] at hname
      simpa using hname.2
  · cases h

/-! ### Lines and moves -/

namespace Setting

variable {setting : Setting ω η ε} {host : η} {w : ω} {line : Line Nat} {done : List (Effect η)}

/-- A line that gives a result leaves the runner in its node. -/
theorem Stop.node_eq {result : Except (PlayFault ε) Event} (stop : setting.Stop host runner w line done result landed) :
    landed.node = runner.node := by
  cases stop <;> rfl

/-- No line leads out of a closed region. -/
theorem keeps_confined (setting : Setting ω η ε) (closed : setting.dialog.Closed region) :
    setting.noting.Keeps fun runner noted => Confined setting.dialog region runner noted.2 where
  pass := by
    intro host runner landed noted line done confined going reads pass
    rw [effects_noting]
    cases pass with
    | onward quiet more =>
      refine confined.append confined.here fun title hmem => ?_
      exact (quiet.topic_of_told hmem).elim nofun nofun
    | jump found => exact confined.entering found (closed confined.here reads List.mem_cons_self)
  stop := by
    intro host runner landed noted line done result confined going reads stop
    rw [effects_noting]
    refine confined.append ?_ fun title hmem => absurd rfl (stop.topic_of_told hmem).1
    rw [stop.node_eq]
    exact confined.here

end Setting

/-- A turn keeps the runner in a closed region, unless it asks for a node outside. -/
theorem Turn.keeps_confined (closed : dialog.Closed region) (turn : Turn ω η ε)
    (goal : ∀ title node, turn.goal? = some title → dialog.indexOf? title = some node → region title) :
    turn.noting.Keeps dialog fun runner noted => Confined dialog region runner noted.2 where
  prepare := id
  line := (turn.setting dialog).keeps_confined closed
  move := by
    intro runner landed noted done confined moves
    rw [show turn.noting.setting dialog = (turn.setting dialog).noting from rfl, Setting.effects_noting]
    generalize hrequest : turn.noting.request = request at moves
    cases moves with
    | @choose title offer menu choice node waiting offered reads member target found =>
      have hregion : region title := by
        rw [← target]
        exact closed confined.here reads (List.mem_map_of_mem member)
      have hentered := confined.entering found hregion
      refine confined.append hentered.here fun entered hmem => hentered.entered entered ?_
      simp only [Effect.notice?, List.filterMap_cons, List.filterMap_nil] at hmem
      exact List.mem_append_right _ ((List.mem_cons.mp hmem).resolve_left Notice.noConfusion)
    | @reset title node found =>
      have hrequest' : turn.request = .reset title := hrequest
      refine confined.entering found (goal title node ?_ found)
      rw [Turn.goal?, hrequest']

/-! ### Courses -/

namespace Setting

variable {setting : Setting ω η ε} {check : Bool} {title : String} {w w₀ : ω} {created : Runner}

/-- **A runner stays where the references of its dialog lead to.** After any turns of a host, whatever
surroundings they brought and whether they failed or not, the title of the node that a new runner is in can be
reached from the title it began with, or from one that a turn reset it to; and so can the title of every node
that observers have been told it entered. So a node that a library reports as not to be reached from its
starting node is never entered from there by a runner that is not reset. -/
theorem confined_of_create (create : setting.create check title w = (.ok created, w₀)) (turns : List (Turn ω η ε)) :
    let after := course setting.dialog turns created w₀
    let told := setting.history check title w turns
    let sources := title :: turns.filterMap Turn.goal?
    setting.dialog.Around sources (setting.dialog.titleAt after.1.node) ∧
    (∀ entered, Notice.nodeEntered entered ∈ told → setting.dialog.Around sources entered) ∧
    ∀ config : Config, config.startNode = title → turns.filterMap Turn.goal? = [] →
      ∀ entry ∈ Library.unreachableReport config setting.dialog, ∃ lost : List String,
        entry = ⟨.warning, s!"Dialog '{setting.dialog.id}': nodes unreachable from '{title}': " ++
          Names.join lost⟩ ∧
        ∀ name ∈ lost, setting.dialog.titleAt after.1.node ≠ name ∧ Notice.nodeEntered name ∉ told := by
  intro after told sources
  obtain ⟨found, _, _⟩ := eq_of_create create
  have hstart : setting.dialog.Around sources title := Dialog.around_of_mem List.mem_cons_self found
  have hcreated : Confined setting.dialog (setting.dialog.Around sources) created [.nodeEntered title] := by
    refine ⟨?_, fun entered hmem => ?_⟩
    · rw [setting.dialog.titleAt_of_indexOf? found]
      exact hstart
    · cases List.mem_singleton.mp hmem
      exact hstart
  have hconfined : Confined setting.dialog (setting.dialog.Around sources) after.1 told := by
    refine history_of_keeps create (P := fun runner noted => Confined _ _ runner noted.2) hcreated ?_
    intro turn hturn
    refine turn.keeps_confined (setting.dialog.closed_around sources) fun goal node hgoal hfound => ?_
    exact Dialog.around_of_mem (List.mem_cons_of_mem _ (List.mem_filterMap.mpr ⟨turn, hturn, hgoal⟩)) hfound
  refine ⟨hconfined.here, hconfined.entered, fun config hconfig hgoals entry hentry => ?_⟩
  have hreached : ∀ name, setting.dialog.Around sources name → name ∈ setting.dialog.reachable title := by
    intro name hname
    obtain ⟨source, hsource, hmem⟩ := hname
    rw [show sources = [title] from congrArg (title :: ·) hgoals, List.mem_singleton] at hsource
    rwa [hsource] at hmem
  obtain ⟨lost, hentry, hlost⟩ := Library.exists_of_unreachableReport hentry
  rw [hconfig] at hentry hlost
  refine ⟨lost, hentry, fun name hname => ⟨fun h => hlost name hname (hreached name ?_), fun hmem => ?_⟩⟩
  · rw [← h]
    exact hconfined.here
  · exact hlost name hname (hreached name (hconfined.entered name hmem))

/-- Who stays on the shore does not enter the wreck, which is reported. -/
theorem confined_at_shore :
    let config : Config := { startNode := "Shore" }
    let turns := [Gate.turn (.next ()), Gate.turn (.choose "Shore")]
    let after := course Shore.dialog turns ⟨0, 0, .start, [], []⟩ .empty
    let told := Shore.setting.history true "Shore" .empty turns
    told = [.nodeEntered "Shore", .optionsPresented "Shore" [⟨"Stay", "Shore", false⟩],
      .choiceSelected "Shore" "Shore" "Stay", .nodeEntered "Shore"] ∧
    Library.unreachableReport config Shore.dialog =
      [⟨.warning, "Dialog 'shore': nodes unreachable from 'Shore': Wreck"⟩] ∧
    Shore.dialog.Around ["Shore"] (Shore.dialog.titleAt after.1.node) ∧
    ∀ entry ∈ Library.unreachableReport config Shore.dialog, ∃ lost : List String,
      entry = ⟨.warning, "Dialog 'shore': nodes unreachable from 'Shore': " ++ Names.join lost⟩ ∧
      ∀ name ∈ lost, Shore.dialog.titleAt after.1.node ≠ name ∧ Notice.nodeEntered name ∉ told := by
  intro config turns after told
  have create : Shore.setting.create true "Shore" .empty = (.ok ⟨0, 0, .start, [], []⟩, .empty) := rfl
  obtain ⟨here, _, reported⟩ := confined_of_create create turns
  refine ⟨rfl, ?_, here, reported config rfl rfl⟩
  have hreach : Shore.dialog.reachable "Shore" = ["Shore"] := by
    show Names.sorted ((explore Shore.dialog.targets [0, 1] [0]).filterMap _) = _
    simp [explore, Dialog.targets, Shore.dialog, Node.references, Line.references]
    rfl
  unfold Library.unreachableReport
  rw [show config.startNode = "Shore" from rfl, hreach]
  rfl

end Setting

end Parley

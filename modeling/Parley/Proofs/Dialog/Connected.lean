import Mathlib.Data.List.Dedup
import Mathlib.Data.List.Perm.Subperm
import Mathlib.Logic.Relation
import Parley.Proofs.Dialog.Reach
import Parley.Proofs.Dialog.Resolution

/-! What can be reached is what is connected.

A node leads to the titles that its jumps and the choices of its menus name, and a title is connected with all that
leads go on to, in any number of steps. Just these titles can be reached from it (`mem_reachable_iff_connected`). The
order in which a search goes on does not matter: it may take any position that is pending (`Search.Step`), each step
keeps what is known of the search (`Search.Sound.step`), and so every run ends, with the same positions seen
(`mem_seen_iff_connected`). -/
namespace Parley

variable {ι κ : Type}

/-- A line leads to a title: it jumps there, or a choice of its menu leads there. -/
inductive Line.LeadsTo : Line ι → String → Prop where
  | jump (target : String) (index : ι) : LeadsTo (.jump target index) target
  | offer {menu : Menu ι} {choice : Choice ι} (mem : choice ∈ menu.choices) : LeadsTo (.offer menu) choice.target

/-- A node with a title leads to another title. -/
def Dialog.Leads (dialog : Dialog) (title other : String) : Prop :=
  ∃ node ∈ dialog.nodes, node.title = title ∧ ∃ line ∈ node.lines, line.LeadsTo other

/-- From a title of the dialog, leads go on to another title, in any number of steps. -/
def Dialog.Connected (dialog : Dialog) (title other : String) : Prop :=
  title ∈ dialog.titles ∧ Relation.ReflTransGen dialog.Leads title other

/-- Every node of a dialog is in a larger one too, with lines added to its lines. Positions do not matter. -/
def Dialog.Within (dialog larger : Dialog) : Prop :=
  ∀ node ∈ dialog.nodes, ∃ other ∈ larger.nodes, other.title = node.title ∧
    node.bare.lines.Sublist other.bare.lines

/-! ### Searches -/

/-- A search under way: the positions that have been seen, and those of them that it has not gone on from. -/
structure Search where
  seen : List Nat
  pending : List Nat

namespace Search

variable {targets : Nat → List Nat} {start count bound : Nat} {search next : Search}

/-- A search begins at one position. -/
def begin (start : Nat) : Search := ⟨[start], [start]⟩

/-- A search goes on from any one of the pending positions. What it leads to and has not been seen yet is seen then,
and pending. -/
inductive Step (targets : Nat → List Nat) : Search → Search → Prop where
  | visit {seen pending rest fresh : List Nat} (position : Nat) (taken : pending.Perm (position :: rest))
      (distinct : fresh.Nodup) (mem_fresh : ∀ i, i ∈ fresh ↔ i ∈ targets position ∧ i ∉ seen) :
      Step targets ⟨seen, pending⟩ ⟨fresh ++ seen, fresh ++ rest⟩

/-- What a search comes to in a number of steps. -/
inductive Steps (targets : Nat → List Nat) (first : Search) : Nat → Search → Prop where
  | none : Steps targets first 0 first
  | more {count : Nat} {search next : Search} (before : Steps targets first count search)
      (step : Step targets search next) : Steps targets first (count + 1) next

/-- What is known of a search after some steps: it has seen nothing but what its start leads on to, with a position
that is not pending also what the position leads to, and each step has taken one position off the pending ones. -/
structure Sound (targets : Nat → List Nat) (start count : Nat) (search : Search) : Prop where
  distinct : search.seen.Nodup
  pending_seen : ∀ i ∈ search.pending, i ∈ search.seen
  start_seen : start ∈ search.seen
  led : ∀ i ∈ search.seen, Relation.ReflTransGen (fun i j => j ∈ targets i) start i
  gone_on : ∀ i ∈ search.seen, i ∉ search.pending → ∀ j ∈ targets i, j ∈ search.seen
  length : count + search.pending.length = search.seen.length

theorem sound_begin (targets : Nat → List Nat) (start : Nat) : Sound targets start 0 (begin start) where
  distinct := List.pairwise_singleton _ start
  pending_seen := fun _ h => h
  start_seen := List.mem_singleton_self start
  led := List.forall_mem_singleton.mpr .refl
  gone_on := fun _ hseen hpending => absurd hseen hpending
  length := rfl

theorem Sound.step (sound : Sound targets start count search) (h : Step targets search next) :
    Sound targets start (count + 1) next := by
  cases h with
  | @visit seen pending rest fresh position taken distinct mem_fresh =>
    have hposition : position ∈ pending := taken.mem_iff.mpr List.mem_cons_self
    have hrest : ∀ i ∈ rest, i ∈ pending := fun i hi => taken.mem_iff.mpr (List.mem_cons_of_mem _ hi)
    refine ⟨?_, ?_, List.mem_append_right _ sound.start_seen, ?_, ?_, ?_⟩
    · refine List.nodup_append.mpr ⟨distinct, sound.distinct, fun i hfresh j hseen heq => ?_⟩
      exact ((mem_fresh i).mp hfresh).2 (heq ▸ hseen)
    · intro i hi
      rcases List.mem_append.mp hi with hfresh | hi
      · exact List.mem_append_left _ hfresh
      · exact List.mem_append_right _ (sound.pending_seen i (hrest i hi))
    · intro i hi
      rcases List.mem_append.mp hi with hfresh | hseen
      · exact (sound.led position (sound.pending_seen position hposition)).tail ((mem_fresh i).mp hfresh).1
      · exact sound.led i hseen
    · intro i hi hpending j hj
      obtain ⟨hfresh, hrest⟩ := not_or.mp (mt List.mem_append.mpr hpending)
      have hseen : i ∈ seen := (List.mem_append.mp hi).resolve_left hfresh
      by_cases hjseen : j ∈ seen
      · exact List.mem_append_right _ hjseen
      by_cases hi : i = position
      · exact List.mem_append_left _ ((mem_fresh j).mpr ⟨hi ▸ hj, hjseen⟩)
      · refine absurd (sound.gone_on i hseen (fun hmem => ?_) j hj) hjseen
        exact (List.mem_cons.mp (taken.mem_iff.mp hmem)).elim hi hrest
    · have hlength := sound.length
      have htaken := taken.length_eq
      simp only [List.length_cons, List.length_append] at hlength htaken ⊢
      omega

theorem sound_of_steps (h : Steps targets (begin start) count search) : Sound targets start count search := by
  induction h with
  | none => exact sound_begin targets start
  | more _ step ih => exact ih.step step

/-- A search that does not end has a step to take. -/
theorem exists_step (h : search.pending ≠ []) : ∃ next, Step targets search next := by
  obtain ⟨seen, pending⟩ := search
  obtain ⟨position, rest, rfl⟩ := List.exists_cons_of_ne_nil h
  have hfresh : ∀ i, i ∈ ((targets position).filter (· ∉ seen)).dedup ↔ i ∈ targets position ∧ i ∉ seen := by simp
  exact ⟨_, .visit position (.refl _) (List.nodup_dedup _) hfresh⟩

/-- When nothing is pending, what has been seen is what the start leads on to. -/
theorem Sound.mem_seen_iff (sound : Sound targets start count search) (h : search.pending = []) (i : Nat) :
    i ∈ search.seen ↔ Relation.ReflTransGen (fun i j => j ∈ targets i) start i := by
  refine ⟨sound.led i, fun hled => ?_⟩
  induction hled with
  | refl => exact sound.start_seen
  | tail _ htarget ih => exact sound.gone_on _ ih (h ▸ List.not_mem_nil) _ htarget

/-- A search takes no more steps than there are positions. -/
theorem Sound.count_le (sound : Sound targets start count search) (hstart : start < bound)
    (htargets : ∀ i, ∀ j ∈ targets i, j < bound) : count ≤ bound := by
  have hseen : search.seen ⊆ List.range bound := by
    intro i hi
    rw [List.mem_range]
    cases Relation.ReflTransGen.cases_tail (sound.led i hi) with
    | inl heq => exact heq ▸ hstart
    | inr h =>
      obtain ⟨j, -, hj⟩ := h
      exact htargets j i hj
  have hlength : search.seen.length ≤ bound := by
    simpa using (sound.distinct.subperm hseen).length_le
  have := sound.length
  omega

end Search

/-! ### Leads -/

theorem Line.leadsTo_iff {line : Line ι} {other : String} :
    line.LeadsTo other ↔ ∃ r ∈ line.references, r.1 = other := by
  constructor
  · intro h
    cases h with
    | jump _ index => exact ⟨(other, index), List.mem_singleton_self _, rfl⟩
    | @offer menu choice mem => exact ⟨(choice.target, choice.index), List.mem_map.mpr ⟨choice, mem, rfl⟩, rfl⟩
  · rintro ⟨r, hr, rfl⟩
    cases line with
    | jump target index =>
      cases List.mem_singleton.mp hr
      exact .jump target index
    | offer menu =>
      obtain ⟨choice, hchoice, rfl⟩ := List.mem_map.mp hr
      exact .offer hchoice
    | _ => cases hr

/-- Where a line leads does not depend on its indices. -/
theorem Line.leadsTo_reindex {f : String → ι → κ} {line : Line ι} {other : String} :
    (line.reindex f).LeadsTo other ↔ line.LeadsTo other := by
  rw [leadsTo_iff, leadsTo_iff, references_reindex]
  simp

namespace Dialog

variable {dialog larger : Dialog} {title other : String}

/-- The node at a position leads to what its lines refer to. -/
theorem leads_of_reference {i line : Nat} {found : Line Nat} {r : String × Nat}
    (hline : dialog.lineAt? i line = some found) (hr : r ∈ found.references) :
    dialog.Leads (dialog.titleAt i) r.1 := by
  obtain ⟨node, hnode, hfound⟩ := Option.bind_eq_some_iff.mp hline
  exact ⟨node, List.mem_of_getElem? hnode, (titleAt_eq hnode).symm, found, List.mem_of_getElem? hfound,
    Line.leadsTo_iff.mpr ⟨r, hr, rfl⟩⟩

/-- What a title leads to, a line of its node refers to. -/
theorem exists_reference_of_leads (h : dialog.Leads title other) :
    ∃ i line found, ∃ r ∈ Line.references found, dialog.titleAt i = title ∧ dialog.lineAt? i line = some found ∧
      r.1 = other := by
  obtain ⟨node, hnode, rfl, found, hfound, hleads⟩ := h
  obtain ⟨i, hi⟩ := List.getElem?_of_mem hnode
  obtain ⟨line, hline⟩ := List.getElem?_of_mem hfound
  obtain ⟨r, hr, rfl⟩ := Line.leadsTo_iff.mp hleads
  exact ⟨i, line, found, r, hr, titleAt_eq hi, by rw [lineAt?_eq hi, hline], rfl⟩

theorem mem_titles_of_reachable (h : other ∈ dialog.reachable title) : title ∈ dialog.titles := by
  by_contra hnone
  rw [reachable, indexOf?_eq_none_iff.mpr hnone] at h
  cases h

/-- **What can be reached from a title is what it is connected with.** -/
theorem mem_reachable_iff_connected : other ∈ dialog.reachable title ↔ dialog.Connected title other := by
  constructor
  · intro h
    have closed : dialog.Closed (dialog.Connected title) := by
      intro i line found r ⟨htitle, hpath⟩ hline hr
      exact ⟨htitle, hpath.tail (leads_of_reference hline hr)⟩
    exact closed.of_reachable ⟨mem_titles_of_reachable h, .refl⟩ h
  · rintro ⟨htitle, hpath⟩
    induction hpath with
    | refl =>
      obtain ⟨i, hi⟩ := Option.isSome_iff_exists.mp (contains_eq_true_iff.mpr htitle)
      exact self_mem_reachable hi
    | tail _ hleads ih =>
      obtain ⟨i, line, found, r, hr, rfl, hline, rfl⟩ := exists_reference_of_leads hleads
      exact closed_reachable title ih hline hr

theorem self_connected (h : title ∈ dialog.titles) : dialog.Connected title title := ⟨h, .refl⟩

theorem Connected.trans {middle : String} (h : dialog.Connected title middle) (h' : dialog.Connected middle other) :
    dialog.Connected title other :=
  ⟨h.1, h.2.trans h'.2⟩

/-- Added lines take no lead away. -/
theorem Within.leads (within : dialog.Within larger) (h : dialog.Leads title other) : larger.Leads title other := by
  obtain ⟨node, hnode, rfl, line, hline, hleads⟩ := h
  obtain ⟨grown, hgrown, htitle, hlines⟩ := within node hnode
  have hbare : line.reindex (fun _ _ => ()) ∈ grown.bare.lines := hlines.subset (List.mem_map_of_mem hline)
  obtain ⟨same, hsame, heq⟩ := List.mem_map.mp hbare
  refine ⟨grown, hgrown, htitle, same, hsame, ?_⟩
  rwa [← Line.leadsTo_reindex (f := fun _ _ => ()), heq, Line.leadsTo_reindex]

theorem Within.connected (within : dialog.Within larger) (h : dialog.Connected title other) :
    larger.Connected title other := by
  obtain ⟨node, hnode, rfl⟩ := List.mem_map.mp h.1
  obtain ⟨grown, hgrown, htitle, -⟩ := within node hnode
  exact ⟨htitle ▸ List.mem_map_of_mem hgrown, Relation.ReflTransGen.mono (fun _ _ => within.leads) _ _ h.2⟩

/-! ### Searches in a dialog -/

theorem lt_of_targets {i j : Nat} (h : j ∈ dialog.targets i) : j < dialog.nodes.length := by
  obtain ⟨line, found, r, hr, hline, rfl⟩ := exists_reference h
  exact lt_of_indexOf? (indexOf?_of_reference hline hr)

/-- Positions lead on as their titles do. -/
theorem leads_of_targets {i j : Nat} (h : j ∈ dialog.targets i) :
    dialog.Leads (dialog.titleAt i) (dialog.titleAt j) := by
  obtain ⟨line, found, r, hr, hline, rfl⟩ := exists_reference h
  rw [titleAt_of_indexOf? (indexOf?_of_reference hline hr)]
  exact leads_of_reference hline hr

/-- What a title is connected with stands at a position that the position of the title leads on to. -/
theorem Connected.exists_position {start : Nat} (hstart : dialog.indexOf? title = some start)
    (h : dialog.Connected title other) : ∃ j, dialog.indexOf? other = some j ∧
      Relation.ReflTransGen (fun i j => j ∈ dialog.targets i) start j := by
  obtain ⟨-, hpath⟩ := h
  induction hpath with
  | refl => exact ⟨start, hstart, .refl⟩
  | tail _ hleads ih =>
    obtain ⟨j, hj, hled⟩ := ih
    obtain ⟨i, line, found, r, hr, rfl, hline, rfl⟩ := exists_reference_of_leads hleads
    obtain ⟨node, hnode, -⟩ := Option.bind_eq_some_iff.mp hline
    -- a title stands at one position only
    obtain rfl : i = j := Option.some.inj ((indexOf?_titleAt (List.getElem?_eq_some_iff.mp hnode).1).symm.trans hj)
    exact ⟨r.2, indexOf?_of_reference hline hr, hled.tail (mem_targets hline hr).1⟩

/-- A search that has ended has seen the positions of all that its title is connected with, and no other. -/
theorem mem_seen_iff_connected {start count : Nat} {search : Search} (hstart : dialog.indexOf? title = some start)
    (sound : Search.Sound dialog.targets start count search) (hended : search.pending = []) :
    other ∈ search.seen.map dialog.titleAt ↔ dialog.Connected title other := by
  rw [List.mem_map]
  constructor
  · rintro ⟨j, hj, rfl⟩
    have hpath : Relation.ReflTransGen dialog.Leads (dialog.titleAt start) (dialog.titleAt j) :=
      Relation.ReflTransGen.lift dialog.titleAt (fun _ _ => leads_of_targets) _ _ (sound.led j hj)
    rw [titleAt_of_indexOf? hstart] at hpath
    refine ⟨?_, hpath⟩
    by_contra hnone
    cases hstart.symm.trans (indexOf?_eq_none_iff.mpr hnone)
  · intro h
    obtain ⟨j, hj, hled⟩ := h.exists_position hstart
    exact ⟨j, (sound.mem_seen_iff hended j).mpr hled, titleAt_of_indexOf? hj⟩

/-- **Reaching is being connected.** From a title just those titles can be reached that it is connected with, and none
if it is no title of the dialog. So every title can be reached from itself, what can be reached from there can be
reached, and added lines take nothing away. A search that goes on from pending positions in any order can go on until
none is pending, which is after no more steps than there are nodes, and has then seen just these titles. -/
theorem reachable_is_connected (dialog : Dialog) (title : String) :
    (∀ other, other ∈ dialog.reachable title ↔ dialog.Connected title other) ∧
    (dialog.reachable title = [] ↔ title ∉ dialog.titles) ∧
    (title ∈ dialog.titles → title ∈ dialog.reachable title) ∧
    (∀ middle ∈ dialog.reachable title, ∀ other ∈ dialog.reachable middle, other ∈ dialog.reachable title) ∧
    (∀ larger : Dialog, dialog.Within larger → ∀ other ∈ dialog.reachable title, other ∈ larger.reachable title) ∧
    ∀ start, dialog.indexOf? title = some start → ∀ count search,
      Search.Steps dialog.targets (.begin start) count search →
        count ≤ dialog.nodes.length ∧
        (search.pending ≠ [] → ∃ next, Search.Step dialog.targets search next) ∧
        (search.pending = [] → ∀ other, other ∈ search.seen.map dialog.titleAt ↔ other ∈ dialog.reachable title) := by
  have hself : title ∈ dialog.titles → title ∈ dialog.reachable title :=
    fun h => mem_reachable_iff_connected.mpr (self_connected h)
  refine ⟨fun other => mem_reachable_iff_connected, ⟨fun hnil htitle => ?_, fun hnone => ?_⟩, hself, ?_, ?_, ?_⟩
  · exact List.ne_nil_of_mem (hself htitle) hnil
  · exact List.eq_nil_iff_forall_not_mem.mpr fun other hother => hnone (mem_titles_of_reachable hother)
  · intro middle hmiddle other hother
    rw [mem_reachable_iff_connected] at *
    exact hmiddle.trans hother
  · intro larger within other hother
    rw [mem_reachable_iff_connected] at *
    exact within.connected hother
  · intro start hstart count search hsteps
    have sound := Search.sound_of_steps hsteps
    refine ⟨sound.count_le (lt_of_indexOf? hstart) fun _ _ => lt_of_targets, Search.exists_step, fun hended other => ?_⟩
    rw [mem_seen_iff_connected hstart sound hended, mem_reachable_iff_connected]

/-- An inn and a road that lead to each other, and a cave. -/
def ring : Dialog where
  id := "ring"
  nodes := [
    ⟨"Inn", [.jump "Road" 1], .empty, 1, List.cons_ne_nil _ _⟩,
    ⟨"Road", [.offer ⟨"", [⟨"Back", "Inn", 0, none⟩], List.cons_ne_nil _ _⟩], .empty, 5, List.cons_ne_nil _ _⟩,
    ⟨"Cave", [.say "" "Drip." []], .empty, 10, List.cons_ne_nil _ _⟩]
  distinct := by decide
  resolved := by decide

/-- The road leads to the cave also. -/
def wideRing : Dialog where
  id := "ring"
  nodes := [
    ⟨"Inn", [.jump "Road" 1], .empty, 1, List.cons_ne_nil _ _⟩,
    ⟨"Road", [.offer ⟨"", [⟨"Back", "Inn", 0, none⟩], List.cons_ne_nil _ _⟩, .jump "Cave" 2], .empty, 5,
      List.cons_ne_nil _ _⟩,
    ⟨"Cave", [.say "" "Drip." []], .empty, 11, List.cons_ne_nil _ _⟩]
  distinct := by decide
  resolved := by decide

theorem reachable_is_connected_ring :
    ring.indexOf? "Inn" = some 0 ∧ Search.Steps ring.targets (.begin 0) 2 ⟨[1, 0], []⟩ ∧
      "Road" ∈ ring.reachable "Inn" ∧ ring.Within wideRing ∧ "Road" ∈ wideRing.reachable "Inn" := by
  have hstart : ring.indexOf? "Inn" = some 0 := by decide
  have hroad : Search.Step ring.targets (.begin 0) ⟨[1] ++ [0], [1] ++ []⟩ :=
    .visit 0 (.refl _) (by decide) (by simp [targets, ring, Node.references, Line.references])
  have hinn : Search.Step ring.targets ⟨[1, 0], [1]⟩ ⟨[] ++ [1, 0], [] ++ []⟩ :=
    .visit 1 (.refl _) (by decide) (by simp [targets, ring, Node.references, Line.references])
  have hsteps : Search.Steps ring.targets (.begin 0) 2 ⟨[1, 0], []⟩ := (Search.Steps.none.more hroad).more hinn
  have hseen : "Road" ∈ [1, 0].map ring.titleAt := by decide
  have hmem : "Road" ∈ ring.reachable "Inn" :=
    ((reachable_is_connected ring "Inn").2.2.2.2.2 0 hstart 2 _ hsteps).2.2 rfl "Road" |>.mp hseen
  have hwithin : ring.Within wideRing := by
    unfold Within
    decide
  exact ⟨hstart, hsteps, hmem, hwithin, (reachable_is_connected ring "Inn").2.2.2.2.1 wideRing hwithin "Road" hmem⟩

end Dialog

end Parley

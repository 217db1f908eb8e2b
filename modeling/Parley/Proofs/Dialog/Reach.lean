import Parley.Dialog.Reach
import Parley.Proofs.Dialog.Titles

/-! What the search for reachable nodes finds.

The search finds where it begins (`mem_explore`), and with a position all that the position leads to
(`explore_closed`), and nothing else (`forall_explore`). So the titles that can be reached from a title are closed
under the references of the dialog (`closed_reachable`), and are all in whatever else is (`Closed.of_reachable`). -/
namespace Parley

variable {targets : Nat → List Nat} {unseen pending : List Nat} {i j : Nat}

/-- What is pending and not yet seen is found. -/
theorem mem_explore (hpending : i ∈ pending) (hunseen : i ∈ unseen) : i ∈ explore targets unseen pending := by
  induction unseen, pending using explore.induct targets with
  | case1 unseen => cases hpending
  | case2 unseen first rest hmem ih =>
    rw [explore, if_pos hmem]
    by_cases hfirst : i = first
    · exact List.mem_cons.mpr (.inl hfirst)
    · have hrest : i ∈ rest := (List.mem_cons.mp hpending).resolve_left hfirst
      have hleft : i ∈ unseen.erase first := (List.mem_erase_of_ne hfirst).mpr hunseen
      exact List.mem_cons_of_mem _ (ih (List.mem_append_right _ hrest) hleft)
  | case3 unseen first rest hmem ih =>
    rw [explore, if_neg hmem]
    have hfirst : i ≠ first := fun h => hmem (h ▸ hunseen)
    exact ih ((List.mem_cons.mp hpending).resolve_left hfirst) hunseen

/-- With a position, what it leads to is found, unless it was seen before. -/
theorem explore_closed (hi : i ∈ explore targets unseen pending) (htarget : j ∈ targets i)
    (hunseen : j ∈ unseen) : j ∈ explore targets unseen pending := by
  induction unseen, pending using explore.induct targets with
  | case1 unseen =>
    rw [explore] at hi
    cases hi
  | case2 unseen first rest hmem ih =>
    rw [explore, if_pos hmem] at hi ⊢
    by_cases hfirst : j = first
    · exact List.mem_cons.mpr (.inl hfirst)
    · have hleft : j ∈ unseen.erase first := (List.mem_erase_of_ne hfirst).mpr hunseen
      refine List.mem_cons_of_mem _ ?_
      cases List.mem_cons.mp hi with
      | inl h =>
        subst h
        exact mem_explore (List.mem_append_left _ htarget) hleft
      | inr h => exact ih h hleft
  | case3 unseen first rest hmem ih =>
    rw [explore, if_neg hmem] at hi ⊢
    exact ih hi hunseen

/-- What pending positions have and what they lead to keeps, all that is found has. -/
theorem forall_explore {P : Nat → Prop} (closed : ∀ i, P i → ∀ j ∈ targets i, P j) (h : ∀ i ∈ pending, P i) :
    ∀ i ∈ explore targets unseen pending, P i := by
  induction unseen, pending using explore.induct targets with
  | case1 unseen =>
    rw [explore]
    exact h
  | case2 unseen first rest hmem ih =>
    obtain ⟨hfirst, hrest⟩ := List.forall_mem_cons.mp h
    rw [explore, if_pos hmem]
    exact List.forall_mem_cons.mpr ⟨hfirst, ih (List.forall_mem_append.mpr ⟨closed first hfirst, hrest⟩)⟩
  | case3 unseen first rest hmem ih =>
    rw [explore, if_neg hmem]
    exact ih (List.forall_mem_cons.mp h).2

namespace Dialog

variable {dialog : Dialog}

/-- Whether every reference of a line in a node of the region leads to a node of the region. -/
def Closed (dialog : Dialog) (region : String → Prop) : Prop :=
  ∀ {i line : Nat} {found : Line Nat} {r : String × Nat}, region (dialog.titleAt i) →
    dialog.lineAt? i line = some found → r ∈ found.references → region r.1

/-- A reference leads to a position of the dialog. -/
theorem mem_targets {line : Nat} {found : Line Nat} {r : String × Nat} (hline : dialog.lineAt? i line = some found)
    (hr : r ∈ found.references) : r.2 ∈ dialog.targets i ∧ r.2 ∈ List.range dialog.nodes.length := by
  obtain ⟨node, hnode, hfound⟩ := Option.bind_eq_some_iff.mp hline
  constructor
  · rw [targets, hnode]
    exact List.mem_map_of_mem (List.mem_flatMap.mpr ⟨found, List.mem_of_getElem? hfound, hr⟩)
  · exact List.mem_range.mpr (lt_of_indexOf? (indexOf?_of_reference hline hr))

/-- What a position leads to, a line there refers to. -/
theorem exists_reference {i j : Nat} (h : j ∈ dialog.targets i) :
    ∃ line found, ∃ r ∈ Line.references found, dialog.lineAt? i line = some found ∧ r.2 = j := by
  unfold targets at h
  cases hnode : dialog.nodes[i]? with
  | none =>
    rw [hnode] at h
    cases h
  | some node =>
    rw [hnode] at h
    obtain ⟨r, hr, hj⟩ := List.mem_map.mp h
    obtain ⟨found, hfound, hr⟩ := List.mem_flatMap.mp hr
    obtain ⟨line, hline⟩ := List.getElem?_of_mem hfound
    exact ⟨line, found, r, hr, by rw [lineAt?_eq hnode, hline], hj⟩

/-- A title can be reached from another exactly if its position can. -/
theorem mem_reachable_iff {title other : String} (hi : dialog.indexOf? other = some i) :
    other ∈ dialog.reachable title ↔ ∃ start, dialog.indexOf? title = some start ∧ i ∈ dialog.reach start := by
  unfold reachable
  cases hstart : dialog.indexOf? title with
  | none => exact iff_of_false List.not_mem_nil fun ⟨_, h, _⟩ => nomatch h
  | some start =>
    simp only [Names.mem_sorted, List.mem_filterMap, ← indexOf?_eq_some_iff, hi]
    constructor
    · intro ⟨k, hk, hother⟩
      rw [Option.some.injEq] at hother
      exact ⟨start, rfl, hother ▸ hk⟩
    · intro ⟨k, hk, hreach⟩
      cases hk
      exact ⟨i, hreach, rfl⟩

/-- A title of the dialog can be reached from itself. -/
theorem self_mem_reachable {title : String} (h : dialog.indexOf? title = some i) :
    title ∈ dialog.reachable title := by
  have hrange : i ∈ List.range dialog.nodes.length := List.mem_range.mpr (lt_of_indexOf? h)
  exact (mem_reachable_iff h).mpr ⟨i, h, mem_explore List.mem_cons_self hrange⟩

/-- What can be reached from a title leads to nothing else. -/
theorem closed_reachable (title : String) : dialog.Closed (· ∈ dialog.reachable title) := by
  intro i line found r hmem hline hr
  obtain ⟨node, hnode, _⟩ := Option.bind_eq_some_iff.mp hline
  have hi := indexOf?_titleAt (List.getElem?_eq_some_iff.mp hnode).1
  obtain ⟨start, hstart, hreach⟩ := (mem_reachable_iff hi).mp hmem
  obtain ⟨htarget, hrange⟩ := mem_targets hline hr
  exact (mem_reachable_iff (indexOf?_of_reference hline hr)).mpr
    ⟨start, hstart, explore_closed hreach htarget hrange⟩

/-- What can be reached from a title is in every region with the title that leads to nothing else. -/
theorem Closed.of_reachable {region : String → Prop} (closed : dialog.Closed region) {title name : String}
    (h : region title) (hname : name ∈ dialog.reachable title) : region name := by
  unfold reachable at hname
  cases hstart : dialog.indexOf? title with
  | none =>
    rw [hstart] at hname
    cases hname
  | some start =>
    simp only [hstart, Names.mem_sorted, List.mem_filterMap, Option.map_eq_some_iff] at hname
    obtain ⟨i, hi, node, hnode, rfl⟩ := hname
    have hregion : ∀ i ∈ dialog.reach start, region (dialog.titleAt i) := by
      refine forall_explore (fun i hi j hj => ?_) (List.forall_mem_singleton.mpr ?_)
      · obtain ⟨line, found, r, hr, hline, rfl⟩ := exists_reference hj
        rw [titleAt_of_indexOf? (indexOf?_of_reference hline hr)]
        exact closed hi hline hr
      · rwa [titleAt_of_indexOf? hstart]
    rw [← titleAt_eq hnode]
    exact hregion i hi

end Dialog

end Parley

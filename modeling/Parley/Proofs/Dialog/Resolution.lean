import Parley.Dialog.Resolve
import Parley.Proofs.Dialog.Titles

/-! Which nodes make a dialog, and which dialog they make.

`resolve_iff` says of every list of nodes what comes of it: the title that is repeated first, else the first
reference to a title that no node has, else the nodes as they are with the position of each title that they
refer to. Whatever indices the nodes come with do not matter. -/
namespace Parley

variable {ι κ : Type}

/-- The node without the indices of its references. -/
def Node.bare (node : Node ι) : Node Unit := node.reindex fun _ _ => ()

/-- Whether every title of some references is one of `titles`. -/
def Known (titles : List String) (references : List (String × ι)) : Prop := ∀ r ∈ references, r.1 ∈ titles

namespace Dialog

/-- The name that comes again before any other does. -/
def FirstRepeat (names : List String) (name : String) : Prop :=
  ∃ before after, names = before ++ name :: after ∧ before.Nodup ∧ name ∈ before

/-- The title that no node has and the title of the node that refers to it, of all such references the first:
by node, then by line, and within a menu by choice. -/
def FirstUnknown (nodes : List (Node ι)) (title source : String) : Prop :=
  let titles := nodes.map Node.title
  title ∉ titles ∧
    ∃ before node after, nodes = before ++ node :: after ∧ node.title = source ∧
      (∀ earlier ∈ before, Known titles earlier.references) ∧
      ∃ above line below, node.lines = above ++ line :: below ∧
        (∀ earlier ∈ above, Known titles earlier.references) ∧
        ∃ front reference back, line.references = front ++ reference :: back ∧ reference.1 = title ∧
          Known titles front

/-- What a dialog that nodes make has to do with them, and how its titles and positions belong together. -/
structure Resolution (id : String) (nodes : List (Node ι)) (dialog : Dialog) : Prop where
  id_eq : dialog.id = id
  bare_eq : dialog.nodes.map Node.bare = nodes.map Node.bare
  leads : ∀ node ∈ dialog.nodes, ∀ r ∈ node.references, (nodes[r.2]?).map Node.title = some r.1
  titles_eq : dialog.titles = nodes.map Node.title
  indexOf : ∀ title i, dialog.indexOf? title = some i ↔ (dialog.nodes[i]?).map Node.title = some title
  contains_iff : ∀ title, dialog.contains title = true ↔ title ∈ dialog.titles
  node_iff : ∀ title node, dialog.node? title = some node ↔ node ∈ dialog.nodes ∧ node.title = title
  /-- There are no positions beyond a machine word. -/
  nodeAt_iff : ∀ (i : Nat) node,
    dialog.nodeAt i = .ok node ↔ i < 0x8000000000000000 ∧ dialog.nodes[i]? = some node
  again : resolve dialog.id dialog.nodes = .ok dialog

/-! ### Repeated titles -/

theorem firstRepeat?_eq_some_iff {seen names : List String} {name : String} :
    firstRepeat? seen names = some name ↔
      ∃ before after, names = before ++ name :: after ∧ before.Nodup ∧ (∀ other ∈ before, other ∉ seen) ∧
        (name ∈ before ∨ name ∈ seen) := by
  induction names generalizing seen with
  | nil => simp [firstRepeat?]
  | cons first rest ih =>
    unfold firstRepeat?
    by_cases hseen : first ∈ seen
    · rw [if_pos hseen]
      constructor
      · intro h
        cases h
        exact ⟨[], rest, rfl, List.nodup_nil, fun other hother => (nomatch hother), .inr hseen⟩
      · rintro ⟨before, after, heq, -, hfresh, -⟩
        cases before with
        | nil =>
          cases heq
          rfl
        | cons other before =>
          cases heq
          exact absurd hseen (hfresh _ List.mem_cons_self)
    · rw [if_neg hseen, ih]
      constructor
      · rintro ⟨before, after, rfl, hnodup, hfresh, hname⟩
        have hfirst : first ∉ before := fun hmem => hfresh first hmem List.mem_cons_self
        refine ⟨first :: before, after, rfl, List.nodup_cons.mpr ⟨hfirst, hnodup⟩, ?_, ?_⟩
        · intro other hother
          rcases List.mem_cons.mp hother with rfl | hother
          · exact hseen
          · exact fun hmem => hfresh other hother (List.mem_cons_of_mem _ hmem)
        · rcases hname with hname | hname
          · exact .inl (List.mem_cons_of_mem _ hname)
          · rcases List.mem_cons.mp hname with rfl | hname
            · exact .inl List.mem_cons_self
            · exact .inr hname
      · rintro ⟨before, after, heq, hnodup, hfresh, hname⟩
        cases before with
        | nil =>
          cases heq
          exact absurd (hname.resolve_left (List.not_mem_nil)) hseen
        | cons other before =>
          cases heq
          obtain ⟨hfirst, hnodup⟩ := List.nodup_cons.mp hnodup
          refine ⟨before, after, rfl, hnodup, ?_, ?_⟩
          · intro other hother hmem
            rcases List.mem_cons.mp hmem with rfl | hmem
            · exact hfirst hother
            · exact hfresh other (List.mem_cons_of_mem _ hother) hmem
          · rcases hname with hname | hname
            · rcases List.mem_cons.mp hname with rfl | hname
              · exact .inr List.mem_cons_self
              · exact .inl hname
            · exact .inr (List.mem_cons_of_mem _ hname)

/-- The titles are gone through with none seen before. -/
theorem firstRepeat?_iff {names : List String} {name : String} :
    firstRepeat? [] names = some name ↔ FirstRepeat names name := by
  rw [firstRepeat?_eq_some_iff]
  unfold FirstRepeat
  simp

theorem firstRepeat?_eq_none_iff {names : List String} : firstRepeat? [] names = none ↔ names.Nodup := by
  constructor
  · exact fun h => (nodup_of_firstRepeat? h).1
  · intro hnodup
    rw [Option.eq_none_iff_forall_ne_some]
    intro name h
    obtain ⟨before, after, rfl, -, hname⟩ := firstRepeat?_iff.mp h
    exact (List.nodup_append.mp hnodup).2.2 name hname name List.mem_cons_self rfl

/-! ### Unknown titles -/

/-- No reference is found exactly when all are known. -/
theorem find?_unknown_eq_none_iff {titles : List String} {references : List (String × ι)} :
    references.find? (·.1 ∉ titles) = none ↔ Known titles references := by
  simp [Known]

theorem unknownIn?_eq_none_iff {titles : List String} {node : Node ι} :
    unknownIn? titles node = none ↔ Known titles node.references := by
  rw [unknownIn?, Option.map_eq_none_iff, find?_unknown_eq_none_iff]

/-- The first unknown title of a node is that of the first line that has one. -/
theorem unknownIn?_eq_some_iff {titles : List String} {node : Node ι} {title source : String} :
    unknownIn? titles node = some (.unknownTitle title source) ↔
      title ∉ titles ∧ node.title = source ∧
        ∃ above line below, node.lines = above ++ line :: below ∧
          (∀ earlier ∈ above, Known titles earlier.references) ∧
          ∃ front reference back, line.references = front ++ reference :: back ∧ reference.1 = title ∧
            Known titles front := by
  rw [unknownIn?, Option.map_eq_some_iff, Node.references, List.find?_flatMap]
  simp only [List.findSome?_eq_some_iff, List.find?_eq_some_iff_append, find?_unknown_eq_none_iff]
  constructor
  · rintro ⟨r, ⟨above, line, below, hlines, ⟨hr, front, back, href, hfront⟩, habove⟩, hfault⟩
    cases hfault
    exact ⟨by simpa using hr, rfl, above, line, below, hlines, habove, front, r, back, href, rfl,
      fun s hs => by simpa using hfront s hs⟩
  · rintro ⟨htitle, rfl, above, line, below, hlines, habove, front, r, back, href, rfl, hfront⟩
    exact ⟨r, ⟨above, line, below, hlines, ⟨by simpa using htitle, front, back, href,
      fun s hs => by simpa using hfront s hs⟩, habove⟩, rfl⟩

theorem firstUnknown?_iff {nodes : List (Node ι)} {title source : String} :
    firstUnknown? (nodes.map Node.title) nodes = some (.unknownTitle title source) ↔
      FirstUnknown nodes title source := by
  rw [firstUnknown?, List.findSome?_eq_some_iff]
  simp only [unknownIn?_eq_some_iff, unknownIn?_eq_none_iff]
  constructor
  · rintro ⟨before, node, after, hnodes, ⟨htitle, hsource, hline⟩, hbefore⟩
    exact ⟨htitle, before, node, after, hnodes, hsource, hbefore, hline⟩
  · rintro ⟨htitle, before, node, after, hnodes, hsource, hbefore, hline⟩
    exact ⟨before, node, after, hnodes, ⟨htitle, hsource, hline⟩, hbefore⟩

theorem firstUnknown?_eq_none_iff {titles : List String} {nodes : List (Node ι)} :
    firstUnknown? titles nodes = none ↔ ∀ node ∈ nodes, Known titles node.references := by
  simp only [firstUnknown?, List.findSome?_eq_none_iff, unknownIn?_eq_none_iff]

/-- What is found is an unknown title. -/
theorem exists_of_firstUnknown? {titles : List String} {nodes : List (Node ι)} {fault : Fault}
    (h : firstUnknown? titles nodes = some fault) : ∃ title source, fault = .unknownTitle title source := by
  obtain ⟨before, node, after, -, hnode, -⟩ := List.findSome?_eq_some_iff.mp h
  obtain ⟨r, -, rfl⟩ := Option.map_eq_some_iff.mp hnode
  exact ⟨r.1, node.title, rfl⟩

/-! ### The three outcomes -/

variable {id : String} {nodes : List (Node ι)}

theorem resolve_of_repeat {title : String} (h : firstRepeat? [] (nodes.map Node.title) = some title) :
    resolve id nodes = .error (.repeatedTitle title) := by
  unfold resolve
  split
  · rename_i found hfound
    rw [h] at hfound
    cases hfound
    rfl
  · rename_i hnone
    rw [h] at hnone
    cases hnone

theorem resolve_of_unknown {fault : Fault} (hnodup : (nodes.map Node.title).Nodup)
    (h : firstUnknown? (nodes.map Node.title) nodes = some fault) : resolve id nodes = .error fault := by
  unfold resolve
  split
  · rename_i found hfound
    rw [firstRepeat?_eq_none_iff.mpr hnodup] at hfound
    cases hfound
  · split
    · rename_i found hfound
      rw [h] at hfound
      cases hfound
      rfl
    · rename_i hnone
      rw [h] at hnone
      cases hnone

/-- Nodes with distinct titles that refer to no other make a dialog. -/
theorem resolve_of_known (id : String) (hnodup : (nodes.map Node.title).Nodup)
    (h : ∀ node ∈ nodes, Known (nodes.map Node.title) node.references) :
    ∃ dialog, resolve id nodes = .ok dialog ∧ dialog.id = id ∧ dialog.nodes = positioned nodes := by
  unfold resolve
  split
  · rename_i found hfound
    rw [firstRepeat?_eq_none_iff.mpr hnodup] at hfound
    cases hfound
  · split
    · rename_i found hfound
      rw [firstUnknown?_eq_none_iff.mpr h] at hfound
      cases hfound
    · exact ⟨_, rfl, rfl, rfl⟩

/-- Every list of nodes has one of the three outcomes. -/
theorem resolve_cases (id : String) (nodes : List (Node ι)) :
    (∃ title, FirstRepeat (nodes.map Node.title) title ∧
      resolve id nodes = .error (.repeatedTitle title)) ∨
    (∃ title source, (nodes.map Node.title).Nodup ∧ FirstUnknown nodes title source ∧
      resolve id nodes = .error (.unknownTitle title source)) ∨
    ∃ dialog, (nodes.map Node.title).Nodup ∧
      (∀ node ∈ nodes, Known (nodes.map Node.title) node.references) ∧
      resolve id nodes = .ok dialog ∧ dialog.id = id ∧ dialog.nodes = positioned nodes := by
  cases hrepeat : firstRepeat? [] (nodes.map Node.title) with
  | some title => exact .inl ⟨title, firstRepeat?_iff.mp hrepeat, resolve_of_repeat hrepeat⟩
  | none =>
    have hnodup := firstRepeat?_eq_none_iff.mp hrepeat
    cases hunknown : firstUnknown? (nodes.map Node.title) nodes with
    | some fault =>
      obtain ⟨title, source, rfl⟩ := exists_of_firstUnknown? hunknown
      exact .inr (.inl ⟨title, source, hnodup, firstUnknown?_iff.mp hunknown,
        resolve_of_unknown hnodup hunknown⟩)
    | none =>
      have hknown := firstUnknown?_eq_none_iff.mp hunknown
      obtain ⟨dialog, hdialog⟩ := resolve_of_known id hnodup hknown
      exact .inr (.inr ⟨dialog, hnodup, hknown, hdialog⟩)

/-! ### The dialog that nodes make -/

/-- A dialog is its name and its nodes. -/
theorem ext_of_nodes {dialog other : Dialog} (hid : dialog.id = other.id)
    (hnodes : dialog.nodes = other.nodes) : dialog = other := by
  cases dialog
  cases other
  cases hid
  cases hnodes
  rfl

theorem reindex_reindex {μ : Type} (f : String → κ → μ) (g : String → ι → κ) (node : Node ι) :
    (node.reindex g).reindex f = node.reindex fun title i => f title (g title i) := by
  have hline : ∀ line : Line ι,
      (line.reindex g).reindex f = line.reindex fun title i => f title (g title i) := by
    intro line
    cases line with
    | offer menu => simp [Line.reindex, Menu.reindex, Choice.reindex]
    | _ => rfl
  simp [Node.reindex, hline]

theorem bare_reindex (f : String → ι → κ) (node : Node ι) : (node.reindex f).bare = node.bare :=
  reindex_reindex _ f node

/-- Nothing but indices tells the nodes from those with positions. -/
theorem map_bare_positioned (nodes : List (Node ι)) : (positioned nodes).map Node.bare = nodes.map Node.bare := by
  simp [positioned, bare_reindex]

/-- A line stays as it is if none of its indices changes. -/
theorem reindex_line_eq_self {f : String → ι → ι} {line : Line ι}
    (h : ∀ r ∈ line.references, f r.1 r.2 = r.2) : line.reindex f = line := by
  cases line with
  | jump target index => exact congrArg (Line.jump target) (h (target, index) List.mem_cons_self)
  | offer menu =>
    have hchoices : menu.choices.map (Choice.reindex f) = menu.choices := by
      refine (List.map_congr_left fun choice hchoice => ?_).trans (List.map_id _)
      have hindex := h (choice.target, choice.index) (List.mem_map.mpr ⟨choice, hchoice, rfl⟩)
      exact congrArg (fun index => ({ choice with index } : Choice ι)) hindex
    cases menu
    simp only [Line.reindex, Menu.reindex, hchoices]
  | _ => rfl

theorem reindex_eq_self {f : String → ι → ι} {node : Node ι}
    (h : ∀ r ∈ node.references, f r.1 r.2 = r.2) : node.reindex f = node := by
  have hlines : node.lines.map (Line.reindex f) = node.lines := by
    refine (List.map_congr_left fun line hline => ?_).trans (List.map_id _)
    exact reindex_line_eq_self fun r hr => h r (List.mem_flatMap.mpr ⟨line, hline, hr⟩)
  cases node
  simp only [Node.reindex, hlines]

variable {dialog : Dialog}

/-- Resolution finds the positions that the nodes of a dialog have. -/
theorem positioned_nodes (dialog : Dialog) : positioned dialog.nodes = dialog.nodes := by
  refine (List.map_congr_left fun node hnode => ?_).trans (List.map_id _)
  refine reindex_eq_self fun r hr => ?_
  have hresolved := dialog.resolved node hnode r hr
  rw [← List.getElem?_map] at hresolved
  obtain ⟨hlt, htitle⟩ := List.getElem?_eq_some_iff.mp hresolved
  rw [← htitle]
  exact dialog.distinct.idxOf_getElem _ hlt

theorem known_nodes (dialog : Dialog) :
    ∀ node ∈ dialog.nodes, Known (dialog.nodes.map Node.title) node.references := by
  intro node hnode r hr
  have hresolved := dialog.resolved node hnode r hr
  rw [← List.getElem?_map] at hresolved
  exact List.mem_of_getElem? hresolved

/-- The nodes of a dialog make the same dialog again. -/
theorem resolve_nodes (dialog : Dialog) : resolve dialog.id dialog.nodes = .ok dialog := by
  obtain ⟨made, hmade, hid, hnodes⟩ := resolve_of_known dialog.id dialog.distinct (known_nodes dialog)
  rw [hmade, ext_of_nodes hid (hnodes.trans (positioned_nodes dialog))]

/-- From the front, a position that fits a machine word gives the node there. -/
theorem nodeAt_eq_ok_iff {i : Nat} {node : Node Nat} :
    dialog.nodeAt i = .ok node ↔ i < 0x8000000000000000 ∧ dialog.nodes[i]? = some node := by
  unfold nodeAt pick pick?
  by_cases hword : i < 0x8000000000000000
  · have hinside : ¬((i : Int) < -0x8000000000000000 ∨ 0x8000000000000000 ≤ (i : Int)) := by omega
    have hfront : (0 : Int) ≤ i := by omega
    rw [if_neg hinside, if_pos hfront, Int.toNat_natCast]
    cases dialog.nodes[i]? <;> simp [hword]
  · have houtside : (i : Int) < -0x8000000000000000 ∨ 0x8000000000000000 ≤ (i : Int) := by omega
    rw [if_pos houtside]
    simp [hword]

/-- What nodes with positions make of the nodes that they come from. -/
theorem resolution_of_positioned {id : String} {nodes : List (Node ι)} (hid : dialog.id = id)
    (hnodes : dialog.nodes = positioned nodes) : Resolution id nodes dialog where
  id_eq := hid
  bare_eq := by rw [hnodes, map_bare_positioned]
  leads node hnode r hr := by
    have hresolved := dialog.resolved node hnode r hr
    rw [← List.getElem?_map, hnodes, titles_positioned, List.getElem?_map] at hresolved
    exact hresolved
  titles_eq := by rw [titles, hnodes, titles_positioned]
  indexOf _ _ := indexOf?_eq_some_iff
  contains_iff _ := contains_eq_true_iff
  node_iff _ _ := node?_eq_some_iff
  nodeAt_iff _ _ := nodeAt_eq_ok_iff
  again := resolve_nodes dialog

/-! ### What becomes of nodes -/

theorem exists_firstRepeat_iff {names : List String} : (∃ name, FirstRepeat names name) ↔ ¬names.Nodup := by
  rw [← firstRepeat?_eq_none_iff, ← Ne, Option.ne_none_iff_exists']
  simp only [firstRepeat?_iff]

theorem exists_firstUnknown_iff :
    (∃ title source, FirstUnknown nodes title source) ↔
      ∃ node ∈ nodes, ∃ r ∈ node.references, r.1 ∉ nodes.map Node.title := by
  constructor
  · rintro ⟨title, source, htitle, before, node, after, hnodes, -, -, above, line, below, hlines, -,
      front, r, back, href, rfl, -⟩
    have hnode : node ∈ nodes := hnodes ▸ List.mem_append_right _ List.mem_cons_self
    have hline : line ∈ node.lines := hlines ▸ List.mem_append_right _ List.mem_cons_self
    have hr : r ∈ line.references := href ▸ List.mem_append_right _ List.mem_cons_self
    exact ⟨node, hnode, r, List.mem_flatMap.mpr ⟨line, hline, hr⟩, htitle⟩
  · rintro ⟨node, hnode, r, hr, hunknown⟩
    cases hfirst : firstUnknown? (nodes.map Node.title) nodes with
    | none => exact absurd (firstUnknown?_eq_none_iff.mp hfirst node hnode r hr) hunknown
    | some fault =>
      obtain ⟨title, source, rfl⟩ := exists_of_firstUnknown? hfirst
      exact ⟨title, source, firstUnknown?_iff.mp hfirst⟩

theorem resolve_eq_repeated_iff {title : String} :
    resolve id nodes = .error (.repeatedTitle title) ↔ FirstRepeat (nodes.map Node.title) title := by
  constructor
  · intro h
    rcases resolve_cases id nodes with ⟨found, hfound, hresolve⟩ | ⟨_, _, _, _, hresolve⟩ | ⟨_, _, _, hresolve, _⟩
    · cases hresolve.symm.trans h
      exact hfound
    · cases hresolve.symm.trans h
    · cases hresolve.symm.trans h
  · exact fun h => resolve_of_repeat (firstRepeat?_iff.mpr h)

theorem resolve_eq_unknown_iff {title source : String} :
    resolve id nodes = .error (.unknownTitle title source) ↔
      (nodes.map Node.title).Nodup ∧ FirstUnknown nodes title source := by
  constructor
  · intro h
    rcases resolve_cases id nodes with ⟨_, _, hresolve⟩ | ⟨_, _, hnodup, hfound, hresolve⟩ | ⟨_, _, _, hresolve, _⟩
    · cases hresolve.symm.trans h
    · cases hresolve.symm.trans h
      exact ⟨hnodup, hfound⟩
    · cases hresolve.symm.trans h
  · exact fun h => resolve_of_unknown h.1 (firstUnknown?_iff.mpr h.2)

theorem resolve_eq_ok_iff :
    resolve id nodes = .ok dialog ↔
      (nodes.map Node.title).Nodup ∧ (∀ node ∈ nodes, Known (nodes.map Node.title) node.references) ∧
        dialog.id = id ∧ dialog.nodes = positioned nodes := by
  constructor
  · intro h
    rcases resolve_cases id nodes with
      ⟨_, _, hresolve⟩ | ⟨_, _, _, _, hresolve⟩ | ⟨_, hnodup, hknown, hresolve, hmade⟩
    · cases hresolve.symm.trans h
    · cases hresolve.symm.trans h
    · cases hresolve.symm.trans h
      exact ⟨hnodup, hknown, hmade⟩
  · rintro ⟨hnodup, hknown, hid, hnodes⟩
    obtain ⟨made, hmade, hid', hnodes'⟩ := resolve_of_known id hnodup hknown
    rw [hmade, ext_of_nodes (hid'.trans hid.symm) (hnodes'.trans hnodes.symm)]

/-- **Resolution is title resolution.** A title that comes twice is reported, whatever the nodes refer to: the
one that comes again first. If there is none, the first reference to a title that no node has is reported,
with the title of the node that it stands in. If there is none either, the nodes make a dialog: the same nodes
in the same order, each reference with the position of its title. There, titles and positions determine each
other, and its nodes make the same dialog again. -/
theorem resolve_iff (id : String) (nodes : List (Node ι)) :
    (∀ title, resolve id nodes = .error (.repeatedTitle title) ↔ FirstRepeat (nodes.map Node.title) title) ∧
    ((∃ title, resolve id nodes = .error (.repeatedTitle title)) ↔ ¬(nodes.map Node.title).Nodup) ∧
    (∀ title source, resolve id nodes = .error (.unknownTitle title source) ↔
      (nodes.map Node.title).Nodup ∧ FirstUnknown nodes title source) ∧
    ((∃ title source, resolve id nodes = .error (.unknownTitle title source)) ↔
      (nodes.map Node.title).Nodup ∧ ∃ node ∈ nodes, ∃ r ∈ node.references, r.1 ∉ nodes.map Node.title) ∧
    ((∃ dialog, resolve id nodes = .ok dialog) ↔
      (nodes.map Node.title).Nodup ∧ ∀ node ∈ nodes, ∀ r ∈ node.references, r.1 ∈ nodes.map Node.title) ∧
    ∀ dialog, resolve id nodes = .ok dialog → Resolution id nodes dialog := by
  refine ⟨fun _ => resolve_eq_repeated_iff, ?_, fun _ _ => resolve_eq_unknown_iff, ?_, ?_, ?_⟩
  · simp only [resolve_eq_repeated_iff, exists_firstRepeat_iff]
  · simp only [resolve_eq_unknown_iff, exists_and_left, exists_firstUnknown_iff]
  · constructor
    · rintro ⟨dialog, h⟩
      obtain ⟨hnodup, hknown, -⟩ := resolve_eq_ok_iff.mp h
      exact ⟨hnodup, hknown⟩
    · rintro ⟨hnodup, hknown⟩
      obtain ⟨dialog, h, -⟩ := resolve_of_known id hnodup hknown
      exact ⟨dialog, h⟩
  · intro dialog h
    obtain ⟨-, -, hid, hnodes⟩ := resolve_eq_ok_iff.mp h
    exact resolution_of_positioned hid hnodes

end Dialog

end Parley

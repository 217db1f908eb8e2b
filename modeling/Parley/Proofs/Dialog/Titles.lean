import Parley.Dialog.Basic

/-! Titles and positions of a dialog.

A title stands at one position (`indexOf?_eq_some_iff`), and a line that leads to a node keeps the position
of that node (`indexOf?_of_reference`). -/
namespace Parley.Dialog

/-- The line at a place of a dialog. -/
def lineAt? (dialog : Dialog) (node line : Nat) : Option (Line Nat) :=
  (dialog.nodes[node]?).bind (·.lines[line]?)

/-- How many lines the node at a position has. -/
def lineCount (dialog : Dialog) (node : Nat) : Nat := (dialog.nodes[node]?).elim 0 (·.lines.length)

variable {dialog : Dialog}

theorem lineCount_eq {i : Nat} {node : Node Nat} (h : dialog.nodes[i]? = some node) :
    dialog.lineCount i = node.lines.length := by
  rw [lineCount, h]
  rfl

theorem lineAt?_eq {i : Nat} {node : Node Nat} (h : dialog.nodes[i]? = some node) (line : Nat) :
    dialog.lineAt? i line = node.lines[line]? := by
  rw [lineAt?, h]
  rfl

/-- Where there are lines, there is a node. -/
theorem exists_node {i line : Nat} (h : line < dialog.lineCount i) :
    ∃ node, dialog.nodes[i]? = some node ∧ line < node.lines.length := by
  cases hnode : dialog.nodes[i]? with
  | none =>
    rw [lineCount, hnode] at h
    exact absurd h (Nat.not_lt_zero _)
  | some node => exact ⟨node, rfl, by rwa [lineCount_eq hnode] at h⟩

theorem exists_lineAt? {i line : Nat} (h : line < dialog.lineCount i) :
    ∃ found, dialog.lineAt? i line = some found := by
  obtain ⟨node, hnode, hline⟩ := exists_node h
  exact ⟨node.lines[line], by rw [lineAt?_eq hnode, List.getElem?_eq_getElem hline]⟩

/-- Every node has a line. -/
theorem lineCount_pos {i : Nat} (h : i < dialog.nodes.length) : 0 < dialog.lineCount i := by
  rw [lineCount_eq (List.getElem?_eq_getElem h)]
  exact List.length_pos_iff.mpr (dialog.nodes[i]).lines_ne

/-! ### Titles -/

theorem titleAt_eq {i : Nat} {node : Node Nat} (h : dialog.nodes[i]? = some node) :
    dialog.titleAt i = node.title := by
  rw [titleAt, h]
  rfl

/-- A title stands at a position exactly when the node there has it. -/
theorem indexOf?_eq_some_iff {title : String} {i : Nat} :
    dialog.indexOf? title = some i ↔ (dialog.nodes[i]?).map Node.title = some title := by
  unfold indexOf?
  rw [List.findIdx?_eq_some_iff_getElem]
  constructor
  · rintro ⟨hi, htitle, _⟩
    rw [List.getElem?_eq_getElem hi, Option.map_some]
    exact congrArg some (of_decide_eq_true htitle)
  · intro h
    obtain ⟨node, hnode, htitle⟩ := Option.map_eq_some_iff.mp h
    obtain ⟨hi, hget⟩ := List.getElem?_eq_some_iff.mp hnode
    refine ⟨hi, by simpa [hget] using htitle, ?_⟩
    intro j hj hfound
    have hjlength : j < dialog.nodes.length := Nat.lt_trans hj hi
    have hjtitle : dialog.nodes[j].title = title := of_decide_eq_true hfound
    -- two positions with one title would repeat it
    have hsame : (dialog.nodes.map Node.title)[j]? = (dialog.nodes.map Node.title)[i]? := by
      rw [List.getElem?_map, List.getElem?_map, List.getElem?_eq_getElem hjlength,
        List.getElem?_eq_getElem hi, hget, Option.map_some, Option.map_some, hjtitle, htitle]
    have hlength : i < (dialog.nodes.map Node.title).length := by simpa using hi
    exact absurd ((List.getElem?_inj (Nat.lt_trans hj hlength) dialog.distinct).mp hsame)
      (Nat.ne_of_lt hj)

theorem titleAt_of_indexOf? {title : String} {i : Nat} (h : dialog.indexOf? title = some i) :
    dialog.titleAt i = title := by
  obtain ⟨node, hnode, htitle⟩ := Option.map_eq_some_iff.mp (indexOf?_eq_some_iff.mp h)
  rw [titleAt_eq hnode, htitle]

theorem lt_of_indexOf? {title : String} {i : Nat} (h : dialog.indexOf? title = some i) :
    i < dialog.nodes.length := by
  obtain ⟨node, hnode, _⟩ := Option.map_eq_some_iff.mp (indexOf?_eq_some_iff.mp h)
  exact (List.getElem?_eq_some_iff.mp hnode).1

/-- The title of a node stands at its position. -/
theorem indexOf?_titleAt {i : Nat} (h : i < dialog.nodes.length) : dialog.indexOf? (dialog.titleAt i) = some i := by
  have hnode := List.getElem?_eq_getElem h
  rw [indexOf?_eq_some_iff, titleAt_eq hnode, hnode, Option.map_some]

/-- A node is found under its title and no other. -/
theorem node?_eq_some_iff {title : String} {node : Node Nat} :
    dialog.node? title = some node ↔ node ∈ dialog.nodes ∧ node.title = title := by
  rw [node?, Option.bind_eq_some_iff]
  constructor
  · rintro ⟨i, hindex, hnode⟩
    refine ⟨List.mem_of_getElem? hnode, ?_⟩
    rw [← titleAt_eq hnode, titleAt_of_indexOf? hindex]
  · rintro ⟨hmem, htitle⟩
    obtain ⟨i, hnode⟩ := List.mem_iff_getElem?.mp hmem
    refine ⟨i, indexOf?_eq_some_iff.mpr ?_, hnode⟩
    rw [hnode, Option.map_some, htitle]

theorem contains_eq_true_iff {title : String} : dialog.contains title = true ↔ title ∈ dialog.titles := by
  rw [contains, Option.isSome_iff_exists, titles, List.mem_iff_getElem?]
  simp only [indexOf?_eq_some_iff, List.getElem?_map]

/-- What is no title has no position. -/
theorem indexOf?_eq_none_iff {title : String} : dialog.indexOf? title = none ↔ title ∉ dialog.titles := by
  rw [← contains_eq_true_iff, contains, Bool.not_eq_true, Option.isSome_eq_false_iff, Option.isNone_iff_eq_none]

/-! ### References -/

/-- The index of a reference is the position of its title. -/
theorem indexOf?_of_reference {i line : Nat} {found : Line Nat} {r : String × Nat}
    (h : dialog.lineAt? i line = some found) (hr : r ∈ found.references) :
    dialog.indexOf? r.1 = some r.2 := by
  obtain ⟨node, hnode, hline⟩ := Option.bind_eq_some_iff.mp h
  refine indexOf?_eq_some_iff.mpr (dialog.resolved node (List.mem_of_getElem? hnode) r ?_)
  exact List.mem_flatMap.mpr ⟨found, List.mem_of_getElem? hline, hr⟩

theorem indexOf?_of_jump {i line index : Nat} {target : String}
    (h : dialog.lineAt? i line = some (.jump target index)) : dialog.indexOf? target = some index :=
  indexOf?_of_reference h List.mem_cons_self

theorem indexOf?_of_choice {i line : Nat} {menu : Menu Nat} {choice : Choice Nat}
    (h : dialog.lineAt? i line = some (.offer menu)) (hc : choice ∈ menu.choices) :
    dialog.indexOf? choice.target = some choice.index :=
  indexOf?_of_reference h (List.mem_map.mpr ⟨choice, hc, rfl⟩)

end Parley.Dialog

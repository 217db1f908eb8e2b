import Mathlib.Data.List.Nodup
import Parley.Proofs.Dialog.Reach
import Parley.Proofs.Play.Noting
import Parley.Proofs.Play.Registered
import Parley.Proofs.Text.Order

/-! The order of nodes.

A runner keeps positions everywhere: where it is, where jumps and choices lead, and which choices have been made.
Nodes in another order make a dialog in which each stands elsewhere (`rearranged_of_perm`). What is played there is
the mirror image of what is played in the first, so nothing that is seen, told or reached depends on the order
(`resolve_perm`). -/
namespace Parley

variable {ι : Type}

/-! ### Positions -/

/-- Where the title at a position stands among others. A position without a title stays. -/
def position (titles others : List String) (i : Nat) : Nat := (titles[i]?).elim i others.idxOf

section

variable {titles others : List String}

theorem getElem?_position (perm : titles.Perm others) (i : Nat) : others[position titles others i]? = titles[i]? := by
  unfold position
  cases htitle : titles[i]? with
  | none =>
    rw [List.getElem?_eq_none_iff, perm.length_eq] at htitle
    exact List.getElem?_eq_none htitle
  | some title => exact List.getElem?_idxOf (perm.mem_iff.mp (List.mem_of_getElem? htitle))

theorem position_injective (perm : titles.Perm others) (distinct : titles.Nodup) :
    Function.Injective (position titles others) := by
  intro i j hij
  have hsame : titles[i]? = titles[j]? := by
    rw [← getElem?_position perm i, ← getElem?_position perm j, hij]
  by_cases hi : i < titles.length
  · exact (List.getElem?_inj hi distinct).mp hsame
  · have hnone : titles[i]? = none := List.getElem?_eq_none (Nat.not_lt.mp hi)
    unfold position at hij
    rwa [← hsame, hnone] at hij

/-- The position of a title leads to the position that it has among the others. -/
theorem position_idxOf (perm : titles.Perm others) (title : String) :
    position titles others (titles.idxOf title) = others.idxOf title := by
  unfold position
  by_cases hmem : title ∈ titles
  · rw [List.getElem?_idxOf hmem]
    rfl
  · rw [List.idxOf_eq_length hmem, List.getElem?_eq_none (Nat.le_refl _),
      List.idxOf_eq_length (mt perm.mem_iff.mpr hmem)]
    exact perm.length_eq

end

namespace Dialog

variable {id : String} {nodes others : List (Node ι)} {dialog other : Dialog}

/-- A node stands where its title stands. -/
theorem getElem?_of_perm (perm : nodes.Perm others) (distinct : (nodes.map Node.title).Nodup) (i : Nat) :
    others[position (nodes.map Node.title) (others.map Node.title) i]? = nodes[i]? := by
  have htitle := getElem?_position (perm.map Node.title) i
  rw [List.getElem?_map, List.getElem?_map] at htitle
  cases hnode : nodes[i]? with
  | none => rwa [hnode, Option.map_none, Option.map_eq_none_iff] at htitle
  | some node =>
    rw [hnode, Option.map_some, Option.map_eq_some_iff] at htitle
    obtain ⟨found, hfound, hsame⟩ := htitle
    have hmem : found ∈ nodes := perm.mem_iff.mpr (List.mem_of_getElem? hfound)
    rw [hfound, List.inj_on_of_nodup_map distinct hmem (List.mem_of_getElem? hnode) hsame]

/-- Nodes in another order make the dialog with each of its nodes elsewhere. -/
theorem rearranged_of_perm (h : resolve id nodes = .ok dialog) (h' : resolve id others = .ok other)
    (perm : nodes.Perm others) :
    dialog.Rearranged (position (nodes.map Node.title) (others.map Node.title)) other := by
  obtain ⟨distinct, -, hid, hnodes⟩ := resolve_eq_ok_iff.mp h
  obtain ⟨-, -, hid', hothers⟩ := resolve_eq_ok_iff.mp h'
  have hperm := perm.map Node.title
  have htitles : dialog.nodes.map Node.title = nodes.map Node.title := by rw [hnodes, titles_positioned]
  have hotherTitles : other.nodes.map Node.title = others.map Node.title := by rw [hothers, titles_positioned]
  refine ⟨hid'.trans hid.symm, position_injective hperm distinct, fun i => ?_, fun title => ?_⟩
  · rw [hnodes, hothers, positioned, positioned, List.getElem?_map, List.getElem?_map,
      getElem?_of_perm perm distinct]
    cases nodes[i]? with
    | none => rfl
    | some node =>
      simp only [Option.map_some, reindex_reindex, position_idxOf hperm]
  · cases hindex : dialog.indexOf? title with
    | none =>
      rw [indexOf?_eq_none_iff, titles, htitles] at hindex
      refine indexOf?_eq_none_iff.mpr ?_
      rw [titles, hotherTitles]
      exact mt hperm.mem_iff.mpr hindex
    | some i =>
      rw [indexOf?_eq_some_iff, ← List.getElem?_map, htitles] at hindex
      refine indexOf?_eq_some_iff.mpr ?_
      rw [← List.getElem?_map, hotherTitles, getElem?_position hperm]
      exact hindex

/-! ### What does not depend on the order -/

section

variable {σ : Nat → Nat}

theorem Rearranged.lineAt? (h : dialog.Rearranged σ other) (i line : Nat) :
    other.lineAt? (σ i) line = (dialog.lineAt? i line).map (Line.reindex fun _ j => σ j) := by
  unfold Dialog.lineAt?
  rw [h.node]
  cases dialog.nodes[i]? with
  | none => rfl
  | some node => exact List.getElem?_map

/-- What leads to nothing else there leads to nothing else here. -/
theorem Rearranged.closed (h : dialog.Rearranged σ other) {region : String → Prop} (closed : other.Closed region) :
    dialog.Closed region := by
  intro i line found r hregion hline hr
  have hline' : other.lineAt? (σ i) line = some (found.reindex fun _ j => σ j) := by
    rw [h.lineAt?, hline]
    rfl
  have hr' : (r.1, σ r.2) ∈ (found.reindex fun _ j => σ j).references := by
    rw [Line.references_reindex]
    exact List.mem_map_of_mem hr
  rw [← h.titleAt] at hregion
  exact closed (r := (r.1, σ r.2)) hregion hline' hr'

theorem Rearranged.reachable_subset (h : dialog.Rearranged σ other) (title : String) :
    dialog.reachable title ⊆ other.reachable title := by
  intro name hname
  refine Closed.of_reachable (h.closed (closed_reachable title)) ?_ hname
  cases hstart : dialog.indexOf? title with
  | none =>
    rw [reachable, hstart] at hname
    cases hname
  | some start =>
    have hstart' : other.indexOf? title = some (σ start) := by
      rw [h.indexOf, hstart]
      rfl
    exact self_mem_reachable hstart'

theorem Rearranged.hasCommand (h : dialog.Rearranged σ other) {name : String} (hname : dialog.HasCommand name) :
    other.HasCommand name := by
  obtain ⟨node, hnode, arguments, hline⟩ := hname
  obtain ⟨i, hi⟩ := List.getElem?_of_mem hnode
  have hi' : other.nodes[σ i]? = some (node.reindex fun _ j => σ j) := by
    rw [h.node, hi]
    rfl
  exact ⟨_, List.mem_of_getElem? hi', arguments, List.mem_map.mpr ⟨_, hline, rfl⟩⟩

end

/-- The commands of both dialogs are the same, so a check of them reports the same. -/
theorem Rearranged.commandNames_eq {σ τ : Nat → Nat} (h : dialog.Rearranged σ other)
    (back : other.Rearranged τ dialog) : other.commandNames = dialog.commandNames := by
  have hnames : ∀ name, name ∈ other.commandNames ↔ name ∈ dialog.commandNames := by
    intro name
    rw [mem_commandNames, mem_commandNames]
    exact ⟨back.hasCommand, h.hasCommand⟩
  simp only [commandNames, Names.mem_sorted] at hnames
  exact Names.sorted_congr hnames

/-- Dialogs that nobody can tell apart: what is played in them looks the same, observers are told the same, and the
same titles are reached and the same commands named. -/
structure Alike (dialog other : Dialog) : Prop where
  play : ∀ {ω η ε : Type} (limit : Int) (world : World ω) (commands : Registry ω η ε) (check : Bool) (title : String)
    (w : ω) (turns : List (Turn ω η ε)),
      Setting.play ⟨other, limit, world, commands⟩ check title w turns =
        Setting.play ⟨dialog, limit, world, commands⟩ check title w turns
  history : ∀ {ω η ε : Type} (limit : Int) (world : World ω) (commands : Registry ω η ε) (check : Bool)
    (title : String) (w : ω) (turns : List (Turn ω η ε)),
      Setting.history ⟨other, limit, world, commands⟩ check title w turns =
        Setting.history ⟨dialog, limit, world, commands⟩ check title w turns
  reachable : ∀ title name, name ∈ other.reachable title ↔ name ∈ dialog.reachable title
  commandNames : other.commandNames = dialog.commandNames

section

variable {ω η ε : Type} {σ : Nat → Nat} (h : dialog.Rearranged σ other) (limit : Int) (world : World ω)
  (commands : Registry ω η ε)

include h

/-- What plays in one world plays in its mirror image in the same world. -/
theorem Rearranged.setting : Setting.Mirrors σ Eq ⟨dialog, limit, world, commands⟩ ⟨other, limit, world, commands⟩ where
  dialog := h
  limit := rfl
  world := world.mirrors_self
  commands := commands.mirrors_self

theorem Rearranged.turns (turns : List (Turn ω η ε)) :
    List.Forall₂ (Turn.Mirrors σ Eq dialog other) turns turns :=
  List.forall₂_same.mpr fun turn _ => ⟨h.setting turn.limit turn.world turn.commands, congrArg turn.prepare, rfl⟩

variable (names : other.commandNames = dialog.commandNames) (check : Bool) (title : String) (w : ω)
  (turns : List (Turn ω η ε))

include names

theorem Rearranged.play :
    Setting.play ⟨other, limit, world, commands⟩ check title w turns =
      Setting.play ⟨dialog, limit, world, commands⟩ check title w turns := by
  obtain ⟨hplay, hleft⟩ := (h.setting limit world commands).play (h.turns turns) (rfl : w = w) names check title
  refine Prod.ext ?_ hleft.symm
  rcases hplay with ⟨seen, seen', hseen, hseen', hall⟩ | ⟨fault, hfault, hfault'⟩
  · have heq : List.Forall₂ Eq seen seen' := hall.imp fun _ _ => Seen.Mirrors.eq
    rw [List.forall₂_eq_eq_eq] at heq
    rw [hseen, hseen', heq]
  · rw [hfault, hfault']

theorem Rearranged.history :
    Setting.history ⟨other, limit, world, commands⟩ check title w turns =
      Setting.history ⟨dialog, limit, world, commands⟩ check title w turns := by
  have hnoting : (Setting.noting ⟨dialog, limit, world, commands⟩).Mirrors σ Eq
      (Setting.noting ⟨other, limit, world, commands⟩) := h.setting limit world.noting commands.noting
  obtain ⟨hmade, hleft⟩ := hnoting.create (rfl : (w, []) = (w, [])) names check title
  unfold Setting.history
  generalize Setting.create (Setting.noting ⟨dialog, limit, world, commands⟩) check title (w, []) = outcome
    at hmade hleft ⊢
  generalize Setting.create (Setting.noting ⟨other, limit, world, commands⟩) check title (w, []) = outcome'
    at hmade hleft ⊢
  obtain ⟨made, left⟩ := outcome
  obtain ⟨made', left'⟩ := outcome'
  cases hmade
  cases hleft
  cases made with
  | error fault => rfl
  | ok created =>
    obtain ⟨-, hworld⟩ := mirrors_course (h.turns (turns.map Turn.noting)) (rfl : left = left) created
    exact congrArg Prod.snd hworld.symm

end

/-- **Nothing depends on the order of nodes.** Nodes that make a dialog make one in every order. For every start,
limit, check, registry and world, and for whatever turns a host takes, what is seen of a runner there is what is seen
of it in the first dialog: the results and the faults, also of making it, what it shows of itself after each turn, and
the world that each turn leaves. Observers are told the same, the same titles can be reached from each title, and the
same commands are named. -/
theorem resolve_perm {id : String} {nodes others : List (Node ι)} {dialog : Dialog} (h : resolve id nodes = .ok dialog)
    (perm : nodes.Perm others) : ∃ other, resolve id others = .ok other ∧ dialog.Alike other := by
  obtain ⟨distinct, known, -⟩ := resolve_eq_ok_iff.mp h
  have hperm := perm.map Node.title
  obtain ⟨other, h', -⟩ := resolve_of_known id (hperm.nodup_iff.mp distinct) fun node hnode r hr =>
    hperm.mem_iff.mp (known node (perm.mem_iff.mpr hnode) r hr)
  have there := rearranged_of_perm h h' perm
  have back := rearranged_of_perm h' h perm.symm
  have hnames := there.commandNames_eq back
  refine ⟨other, h', ?_, ?_, fun title name => ?_, hnames⟩
  · intro ω η ε limit world commands check title w turns
    exact there.play limit world commands hnames check title w turns
  · intro ω η ε limit world commands check title w turns
    exact there.history limit world commands hnames check title w turns
  · exact ⟨fun hname => back.reachable_subset title hname, fun hname => there.reachable_subset title hname⟩

/-- The road may stand before the gate. -/
theorem resolve_perm_gate :
    resolve Gate.dialog.id Gate.dialog.nodes = .ok Gate.dialog ∧
      Gate.dialog.nodes.Perm Gate.dialog.nodes.reverse ∧
      ∃ other, resolve Gate.dialog.id Gate.dialog.nodes.reverse = .ok other ∧ Gate.dialog.Alike other := by
  have hresolve : resolve Gate.dialog.id Gate.dialog.nodes = .ok Gate.dialog := resolve_nodes Gate.dialog
  have hperm : Gate.dialog.nodes.Perm Gate.dialog.nodes.reverse := (List.reverse_perm _).symm
  exact ⟨hresolve, hperm, resolve_perm hresolve hperm⟩

end Dialog

end Parley

import Parley.Dialog.Basic

/-! What can be reached in a dialog through jumps and choices. -/
namespace Parley

/-- What can be reached from `pending` along `targets`, among the positions not yet seen. -/
def explore (targets : Nat → List Nat) (unseen pending : List Nat) : List Nat :=
  match pending with
  | [] => []
  | i :: pending =>
    if i ∈ unseen then i :: explore targets (unseen.erase i) (targets i ++ pending)
    else explore targets unseen pending
termination_by (unseen.length, pending.length)
decreasing_by
  · rename_i hmem
    apply Prod.Lex.left
    have := List.length_pos_of_mem hmem
    rw [List.length_erase_of_mem hmem]
    omega
  · exact Prod.Lex.right _ (Nat.lt_succ_self _)

namespace Dialog

/-- The positions that the node at a position leads to. -/
def targets (dialog : Dialog) (position : Nat) : List Nat :=
  match dialog.nodes[position]? with
  | some node => node.references.map Prod.snd
  | none => []

/-- The positions that can be reached from a position. -/
def reach (dialog : Dialog) (position : Nat) : List Nat :=
  explore dialog.targets (List.range dialog.nodes.length) [position]

/-- The titles that can be reached from a title, ascending, each once; the title is one of them if it is a
title at all. -/
def reachable (dialog : Dialog) (title : String) : List String :=
  match dialog.indexOf? title with
  | none => []
  | some position =>
    Names.sorted ((dialog.reach position).filterMap fun i => (dialog.nodes[i]?).map Node.title)

end Dialog

end Parley

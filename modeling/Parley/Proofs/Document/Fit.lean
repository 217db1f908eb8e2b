import Parley.Document.Reader
import Parley.Document.Writer
import Parley.Proofs.Json.Fields
import Parley.Proofs.Tables
import Parley.Proofs.Text.Whole

/-! Which nodes fit into a document.

The shape of a compiled dialog wants names that are not empty, and line numbers from zero on. What fits is
written in that shape (`nodeShape_ofNode`), and what is read from a document of that shape fits
(`DocumentRead.fits`). -/
namespace Parley

variable {ι κ : Type}

def Guard.Fit (guard : Guard) : Prop := guard.variableName ≠ ""

section Fit

variable (allowed : ι → Prop)

def Choice.Fit (choice : Choice ι) : Prop :=
  choice.target ≠ "" ∧ allowed choice.index ∧ ∀ guard ∈ choice.guard, guard.Fit

/-- Whether every name in a line is one, and every index is allowed. -/
def Line.Fit : Line ι → Prop
  | .assign variableName _ => variableName ≠ ""
  | .command name _ => name ≠ ""
  | .say _ _ _ => True
  | .jump target i => target ≠ "" ∧ allowed i
  | .offer menu => ∀ choice ∈ menu.choices, choice.Fit allowed

structure Node.Fit (node : Node ι) : Prop where
  title_ne : node.title ≠ ""
  lineNumber_nonneg : 0 ≤ node.lineNumber
  lines : ∀ line ∈ node.lines, line.Fit allowed

/-- Whether nodes may be all the nodes of a document. -/
structure Fits (nodes : List (Node ι)) : Prop where
  nodes_ne : nodes ≠ []
  node : ∀ node ∈ nodes, node.Fit allowed

end Fit

/-- Whether no key of some headers has a lone half. -/
def WholeKeys (headers : Table String) : Prop := ∀ key ∈ headers.names, Text.IsWhole key

/-! ### Other indices -/

section Reindex

variable {allowed : ι → Prop} {others : κ → Prop} {f : String → ι → κ}
  (hf : ∀ title i, allowed i → others (f title i))
include hf

theorem Line.Fit.reindex {line : Line ι} (h : line.Fit allowed) : (line.reindex f).Fit others := by
  cases line with
  | jump target i => exact ⟨h.1, hf target i h.2⟩
  | offer menu =>
    refine List.forall_mem_map.mpr fun choice hchoice => ?_
    obtain ⟨htarget, hindex, hguard⟩ := h choice hchoice
    exact ⟨htarget, hf choice.target choice.index hindex, hguard⟩
  | _ => exact h

theorem Node.Fit.reindex {node : Node ι} (h : node.Fit allowed) : (node.reindex f).Fit others :=
  ⟨h.title_ne, h.lineNumber_nonneg, List.forall_mem_map.mpr fun line hline => (h.lines line hline).reindex hf⟩

end Reindex

namespace Document

open Shape

/-! ### Headers -/

/-- Headers as they come back: without lone halves in their keys. -/
def cleaned (headers : Table String) : Table String :=
  .ofList (headers.entries.map fun entry => (Text.withoutHalves replacement entry.1, entry.2))

/-- Headers as they stand in a document. -/
def verbatim (headers : Table String) : Json := .obj (headers.entries.map fun entry => (entry.1, .str entry.2))

theorem ofHeaders_eq (headers : Table String) : ofHeaders headers = verbatim (cleaned headers) := by
  rw [verbatim, cleaned, ← Table.entries_ofList_map, List.map_map]
  rfl

theorem mark_not_mem_replacement : Text.mark ∉ replacement := by decide

theorem wholeKeys_cleaned (headers : Table String) : WholeKeys (cleaned headers) := by
  intro key hkey
  rw [cleaned, Table.mem_names_ofList, List.map_map] at hkey
  obtain ⟨entry, -, rfl⟩ := List.mem_map.mp hkey
  exact Text.isWhole_withoutHalves mark_not_mem_replacement entry.1

/-- Headers come back as they are exactly if none of their keys has a lone half. -/
theorem cleaned_eq_self_iff {headers : Table String} : cleaned headers = headers ↔ WholeKeys headers := by
  constructor
  · intro heq
    exact heq ▸ wholeKeys_cleaned headers
  · intro whole
    have hentries : headers.entries.map (fun entry => (Text.withoutHalves replacement entry.1, entry.2)) =
        headers.entries := by
      refine (List.map_congr_left fun entry hentry => ?_).trans (List.map_id _)
      have hkey : Text.IsWhole entry.1 := whole entry.1 (List.mem_map_of_mem hentry)
      rw [(Text.withoutHalves_eq_self_iff mark_not_mem_replacement).mpr hkey]
      rfl
    rw [cleaned, hentries]
    exact headers.putAll_entries

/-- What came back once comes back as it is. -/
theorem cleaned_cleaned (headers : Table String) : cleaned (cleaned headers) = cleaned headers :=
  cleaned_eq_self_iff.mpr (wholeKeys_cleaned headers)

/-! ### The shape of what is written -/

theorem name_str {s : String} (h : s ≠ "") : Shape.name (.str s) = true := by
  simpa [Shape.name] using h

theorem guardShape_ofGuard {guard : Guard} (h : guard.Fit) : guardShape (ofGuard guard) = true := by
  have hkind : oneOf ["==", "!="] (.str guard.comparison.sign) = true := by
    cases guard.comparison <;> decide
  simp [guardShape, ofGuard, record, name_str h, hkind, Shape.bool]

variable {allowed : ι → Prop} {index : ι → Json} (hindex : ∀ i, allowed i → targetShape (index i) = true)
include hindex

theorem choiceShape_ofChoice {choice : Choice ι} (h : choice.Fit allowed) :
    choiceShape (ofChoice index choice) = true := by
  have hguard : either [null, guardShape] (choice.guard.elim .null ofGuard) = true := by
    cases hg : choice.guard with
    | none => rfl
    | some guard => simp [either, guardShape_ofGuard (h.2.2 guard hg)]
  simp [choiceShape, ofChoice, record, string, name_str h.1, hindex _ h.2.1, hguard]

theorem lineShape_ofLine {line : Line ι} (h : line.Fit allowed) : lineShape (ofLine index line) = true := by
  cases line with
  | assign variableName value =>
    simp [lineShape, ofLine, either, record, oneOf, name_str h, Shape.bool]
  | command name arguments =>
    simp [lineShape, ofLine, either, record, oneOf, name_str h, array, string]
  | say speaker text tags =>
    simp [lineShape, ofLine, either, record, oneOf, array, string, tagShape, ofTag]
  | jump target i =>
    simp [lineShape, ofLine, either, record, oneOf, name_str h.1, hindex i h.2]
  | offer menu =>
    have hchoices : ∀ choice ∈ menu.choices, choiceShape (ofChoice index choice) = true :=
      fun choice hmem => choiceShape_ofChoice hindex (h choice hmem)
    simpa [lineShape, ofLine, either, record, oneOf, row, string, menu.choices_ne] using hchoices

/-- What fits is written in the shape of a node. -/
theorem nodeShape_ofNode {node : Node ι} (h : node.Fit allowed) : nodeShape (ofNode index node) = true := by
  have hlines : ∀ line ∈ node.lines, lineShape (ofLine index line) = true :=
    fun line hmem => lineShape_ofLine hindex (h.lines line hmem)
  have hheaders : map string (ofHeaders node.headers) = true := by
    rw [ofHeaders_eq]
    simp [verbatim, map, string]
  have hnumber : natural (.int node.lineNumber) = true := decide_eq_true h.lineNumber_nonneg
  have hrow : row lineShape (.arr (node.lines.map (ofLine index))) = true := by
    simpa [row, node.lines_ne] using hlines
  simp [nodeShape, ofNode, record, name_str h.title_ne, hheaders, hnumber, hrow]

/-- Nodes that fit are written in the shape of a dialog. -/
theorem dialogShape_of_fits {nodes : List (Node ι)} (h : Fits allowed nodes) (id : String) :
    dialogShape (.obj [("id", .str id), ("nodes", .arr (nodes.map (ofNode index)))]) = true := by
  have hnodes : ∀ node ∈ nodes, nodeShape (ofNode index node) = true :=
    fun node hmem => nodeShape_ofNode hindex (h.node node hmem)
  have hrow : row nodeShape (.arr (nodes.map (ofNode index))) = true := by
    simpa [row, h.nodes_ne] using hnodes
  simp [dialogShape, record, string, hrow]

end Document

end Parley

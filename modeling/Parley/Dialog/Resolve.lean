import Parley.Dialog.Basic

/-! Resolution: from titles to positions.

Nodes make a dialog when no title comes twice and every reference names a title. A repeated title is
reported before any unknown one; of either, the first. Indices that the nodes come with do not
matter. -/
namespace Parley.Dialog

/-- Why nodes make no dialog. -/
inductive Fault where
  | repeatedTitle (title : String)
  | unknownTitle (title source : String)
  deriving DecidableEq, Repr

def Fault.message : Fault → String
  | repeatedTitle title => s!"Duplicate node title: {title}"
  | unknownTitle title source => s!"Unknown node '{title}' referenced from node '{source}'"

/-- The first name that is among those seen or comes again. -/
def firstRepeat? (seen : List String) : List String → Option String
  | [] => none
  | name :: rest => if name ∈ seen then some name else firstRepeat? (name :: seen) rest

theorem nodup_of_firstRepeat? {seen names : List String} (h : firstRepeat? seen names = none) :
    names.Nodup ∧ ∀ name ∈ names, name ∉ seen := by
  induction names generalizing seen with
  | nil => simp
  | cons name rest ih =>
    unfold firstRepeat? at h
    split at h
    · cases h
    · rename_i hnot
      obtain ⟨hnodup, hdisj⟩ := ih h
      refine ⟨List.nodup_cons.mpr ⟨fun hmem => hdisj name hmem List.mem_cons_self, hnodup⟩, ?_⟩
      intro other hother
      rcases List.mem_cons.mp hother with rfl | hother
      · exact hnot
      · exact fun hseen => hdisj other hother (List.mem_cons_of_mem _ hseen)

variable {ι : Type}

/-- The first reference of a node to a title that is not among `titles`. -/
def unknownIn? (titles : List String) (node : Node ι) : Option Fault :=
  (node.references.find? (·.1 ∉ titles)).map fun r => .unknownTitle r.1 node.title

/-- The first reference of all to a title that is not among `titles`. -/
def firstUnknown? (titles : List String) (nodes : List (Node ι)) : Option Fault :=
  nodes.findSome? (unknownIn? titles)

theorem mem_of_firstUnknown? {titles : List String} {nodes : List (Node ι)}
    (h : firstUnknown? titles nodes = none) :
    ∀ node ∈ nodes, ∀ r ∈ node.references, r.1 ∈ titles := by
  intro node hnode r hr
  have hnone := List.findSome?_eq_none_iff.mp h node hnode
  rw [unknownIn?, Option.map_eq_none_iff, List.find?_eq_none] at hnone
  simpa using hnone r hr

/-- The nodes with the position of each title they refer to. -/
def positioned (nodes : List (Node ι)) : List (Node Nat) :=
  nodes.map (Node.reindex fun title _ => (nodes.map Node.title).idxOf title)

theorem titles_positioned (nodes : List (Node ι)) :
    (positioned nodes).map Node.title = nodes.map Node.title := by
  simp [positioned, Node.reindex]

theorem resolved_positioned {nodes : List (Node ι)}
    (h : ∀ node ∈ nodes, ∀ r ∈ node.references, r.1 ∈ nodes.map Node.title) :
    ∀ node ∈ positioned nodes, ∀ r ∈ node.references,
      ((positioned nodes)[r.2]?).map Node.title = some r.1 := by
  intro node hnode r hr
  obtain ⟨source, hsource, rfl⟩ := List.mem_map.mp hnode
  rw [Node.references_reindex] at hr
  obtain ⟨s, hs, rfl⟩ := List.mem_map.mp hr
  have hmem := h source hsource s hs
  rw [← List.getElem?_map, titles_positioned]
  rw [List.getElem?_eq_getElem (List.idxOf_lt_length_of_mem hmem), List.getElem_idxOf]

/-- The dialog that nodes make. -/
def resolve (id : String) (nodes : List (Node ι)) : Except Fault Dialog :=
  match hrepeat : firstRepeat? [] (nodes.map Node.title) with
  | some title => .error (.repeatedTitle title)
  | none =>
    match hunknown : firstUnknown? (nodes.map Node.title) nodes with
    | some fault => .error fault
    | none => .ok {
        id
        nodes := positioned nodes
        distinct := by
          rw [titles_positioned]
          exact (nodup_of_firstRepeat? hrepeat).1
        resolved := resolved_positioned (mem_of_firstUnknown? hunknown) }

end Parley.Dialog

import Parley.Proofs.Script.Misplaced

/-! Where faults are.

A line is at fault itself, or the body that it ends has a fault in one of its lines (`line_of_step_error`). So a fault
has the line and the column of one of the lines that have been gone through (`line_of_scan_error`), or it is in the
last line if more should follow: it is never behind the end of the text (`line_le_of_read_error`). -/
namespace Parley.Script

open Text

theorem number_of_mem_sourceLines {number : Nat} {rows : List (List Char)} {line : SourceLine}
    (h : line ∈ sourceLines number rows) : number ≤ line.number ∧ line.number < number + rows.length := by
  obtain ⟨i, row, hrow, hline⟩ := exists_row_of_mem_sourceLines h
  obtain ⟨-, rfl⟩ := ofRaw?_eq_some_iff.mp hline
  have hi := (List.getElem?_eq_some_iff.mp hrow).1
  exact ⟨Nat.le_add_right number i, Nat.add_lt_add_left hi number⟩

/-- The fault of a body is in one of its lines. -/
theorem line_of_readItems_error {lines : List SourceLine} {fault : Fault} (h : readItems lines = .error fault) :
    ∃ line ∈ lines, fault.line = line.number ∧ fault.column = line.column := by
  induction lines using readItems.induct with
  | case1 => cases h
  | case2 line rest harrow ih =>
    rw [readItems, harrow] at h
    rcases bind_eq_error_iff.mp h with hread | ⟨read, hread, h⟩
    · obtain ⟨reason, -, rfl⟩ := mapError_eq_error_iff.mp hread
      exact ⟨line, List.mem_cons_self, rfl, rfl⟩
    rcases bind_eq_error_iff.mp h with hrest | ⟨items, hitems, h⟩
    · obtain ⟨other, hother, hline⟩ := ih hrest
      exact ⟨other, List.mem_cons_of_mem _ hother, hline⟩
    · cases h
  | case3 line rest option harrow ih =>
    rw [readItems, harrow] at h
    rcases bind_eq_error_iff.mp h with hentry | ⟨entry, hentry, h⟩
    · obtain ⟨reason, -, rfl⟩ := mapError_eq_error_iff.mp hentry
      exact ⟨line, List.mem_cons_self, rfl, rfl⟩
    cases rest with
    | nil =>
      cases h
      exact ⟨line, List.mem_cons_self, rfl, rfl⟩
    | cons follower rest =>
      cases hjump : jumpOf? follower.text with
      | none =>
        simp only [hjump] at h
        cases h
        exact ⟨follower, List.mem_cons_of_mem _ List.mem_cons_self, rfl, rfl⟩
      | some target =>
        simp only [hjump] at h
        rcases bind_eq_error_iff.mp h with hrest | ⟨items, hitems, h⟩
        · obtain ⟨other, hother, hline⟩ := ih hrest
          exact ⟨other, List.mem_cons_of_mem _ (List.mem_cons_of_mem _ hother), hline⟩
        · cases h

theorem line_of_readHeader_error {title : Option (String × Nat)} {headers : Table String} {line : SourceLine}
    {fault : Fault} (h : readHeader title headers line = .error fault) :
    fault.line = line.number ∧ fault.column = line.column := by
  unfold readHeader at h
  split at h
  · cases h
    exact ⟨rfl, rfl⟩
  · dsimp only at h
    split at h
    · cases h
      exact ⟨rfl, rfl⟩
    · split at h
      · split at h
        · cases h
        · cases h
          exact ⟨rfl, rfl⟩
      · cases h

/-- A line at fault has found it in itself, or in the body that it ends. -/
theorem line_of_step_error {stage : Stage} {line : SourceLine} {fault : Fault} (h : stage.step line = .error fault) :
    ∃ found ∈ stage.pending ++ [line], fault.line = found.number ∧ fault.column = found.column := by
  have hself : line ∈ stage.pending ++ [line] := List.mem_append_right _ List.mem_cons_self
  cases stage with
  | heading title headers =>
    simp only [Stage.step] at h
    split at h
    · split at h
      · cases h
        exact ⟨line, hself, rfl, rfl⟩
      · cases h
    · exact ⟨line, hself, line_of_readHeader_error (map_eq_error_iff.mp h)⟩
  | body title titleLine headers lines =>
    simp only [Stage.step] at h
    split at h
    · rcases bind_eq_error_iff.mp (map_eq_error_iff.mp h) with hitems | ⟨items, hitems, hempty⟩
      · obtain ⟨found, hfound, hline⟩ := line_of_readItems_error hitems
        exact ⟨found, List.mem_append_left _ hfound, hline⟩
      · split at hempty
        · cases hempty
          exact ⟨line, hself, rfl, rfl⟩
        · cases hempty
    · split at h
      · cases h
        exact ⟨line, hself, rfl, rfl⟩
      · cases h

/-- The lines of a body that is gone on with are those that there were, and the line. -/
theorem pending_of_step {stage next : Stage} {line : SourceLine} {made : Option (Node (Option Int))}
    (h : Stage.Step line stage made next) : ∀ kept ∈ next.pending, kept ∈ stage.pending ++ [line] := by
  cases h with
  | titled => exact List.forall_mem_nil _
  | header => exact List.forall_mem_nil _
  | opening => exact List.forall_mem_nil _
  | kept => exact fun kept hkept => hkept
  | closing => exact List.forall_mem_nil _

theorem pending_of_scan {stage last : Stage} {lines : List SourceLine} {nodes : List (Node (Option Int))}
    (h : scan stage lines = .ok (nodes, last)) : ∀ kept ∈ last.pending, kept ∈ stage.pending ++ lines := by
  refine (scan_preserves (P := fun mid => ∀ kept ∈ mid.pending, kept ∈ stage.pending ++ lines)
    (Q := fun _ => True) ?_ h ?_).1
  · intro mid next made line hline hmid hstep
    refine ⟨fun kept hkept => ?_, fun _ _ => trivial⟩
    rcases List.mem_append.mp (pending_of_step hstep kept hkept) with hkept | hkept
    · exact hmid kept hkept
    · cases List.mem_singleton.mp hkept
      exact List.mem_append_right _ hline
  · exact fun kept hkept => List.mem_append_left _ hkept

/-- The fault of a script is in one of the lines gone through. -/
theorem line_of_scan_error {lines : List SourceLine} {fault : Fault} (h : scan .start lines = .error fault) :
    ∃ found ∈ lines, fault.line = found.number ∧ fault.column = found.column := by
  obtain ⟨before, line, after, nodes, mid, rfl, hbefore, hstep⟩ := step_of_scan_error h
  obtain ⟨found, hfound, hline⟩ := line_of_step_error hstep
  refine ⟨found, ?_, hline⟩
  rcases List.mem_append.mp hfound with hfound | hfound
  · exact List.mem_append_left _ (pending_of_scan hbefore found hfound)
  · cases List.mem_singleton.mp hfound
    exact List.mem_append_right _ List.mem_cons_self

/-- The fault of a text is in one of its lines, or in the first of none. -/
theorem line_le_of_read_error {text : String} {fault : Fault} (h : read text = .error fault) :
    fault.line ≤ max (lines text.toList).length 1 := by
  rcases bind_eq_error_iff.mp h with hscan | ⟨⟨nodes, stage⟩, hscan, h⟩
  · obtain ⟨found, hfound, hline⟩ := line_of_scan_error hscan
    have hnumber := number_of_mem_sourceLines hfound
    omega
  · dsimp only at h
    split at h
    · cases h
      exact Nat.le_max_left _ _
    · split at h
      · cases h
        exact Nat.le_refl _
      · cases h

end Parley.Script

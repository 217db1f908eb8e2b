import Parley.Proofs.Script.Moved
import Parley.Proofs.Text.Lines

/-! Scripts one after the other.

A script that is read leaves nothing behind: after its last node all is as before any header (`scan_of_read`). So what
follows it is read as if it stood alone, only further down (`read_append`). -/
namespace Parley

open Script Text

namespace Script

/-- A fault that is found some lines further down. -/
def Fault.lowered (count : Nat) (fault : Fault) : Fault := { fault with line := fault.line + count }

/-- Every line some lines further down. -/
def Move.down (count : Nat) : Move := ⟨(· + count), id⟩

/-! ### Further down -/

theorem sourceLines_down (count number : Nat) (rows : List (List Char)) :
    sourceLines (number + count) rows = (sourceLines number rows).map (SourceLine.moved (.down count)) := by
  induction rows generalizing number with
  | nil => rfl
  | cons row rest ih =>
    rw [sourceLines, sourceLines, List.map_append, ← ih, Nat.add_right_comm]
    congr 1
    unfold SourceLine.ofRaw?
    dsimp only
    split <;> rfl

/-- The number of a line is none below zero. -/
theorem lineNumber_of_scan {stage last : Stage} {lines : List SourceLine} {nodes : List (Node (Option Int))}
    (h : scan stage lines = .ok (nodes, last)) : ∀ node ∈ nodes, 0 ≤ node.lineNumber := by
  refine (scan_preserves (P := fun _ => True) ?_ h trivial).2
  intro stage next made line _ _ hstep
  refine ⟨trivial, fun node hnode => ?_⟩
  cases hstep with
  | titled => cases hnode
  | header => cases hnode
  | opening => cases hnode
  | kept => cases hnode
  | closing _ hclose =>
    cases hnode
    obtain ⟨items, -, hne, rfl⟩ := items_of_closeBody hclose
    exact Int.natCast_nonneg _

theorem moved_down {count : Nat} {node : Node (Option Int)} (h : 0 ≤ node.lineNumber) :
    node.moved (.down count) = node.lowered count := by
  have hnumber : ((node.lineNumber.toNat + count : Nat) : Int) = node.lineNumber + count := by omega
  unfold Node.moved Node.lowered
  rw [← hnumber]
  rfl

/-! ### Nodes that are missing

That a script has no nodes is found out at its end, and by nothing that its lines say. -/

variable {s : List Char}

theorem truth_ne_noNodes : truth s ≠ .error .noNodes := by grind [truth]

theorem readCommand_ne_noNodes : readCommand s ≠ .error .noNodes := by grind [readCommand]

theorem readStatement_ne_noNodes : readStatement s ≠ .error .noNodes := by
  grind [readStatement, truth_ne_noNodes, readCommand_ne_noNodes, map_eq_error_iff]

theorem readLine_ne_noNodes : readLine s ≠ .error .noNodes := by
  grind [readLine, readSpeech, readStatement_ne_noNodes]

theorem readCondition_ne_noNodes : readCondition s ≠ .error .noNodes := by
  grind [readCondition, truth_ne_noNodes, map_eq_error_iff]

theorem cutGuard_ne_noNodes : cutGuard s ≠ .error .noNodes := by
  grind [cutGuard, readCondition_ne_noNodes, map_eq_error_iff]

theorem readEntry_ne_noNodes : readEntry s ≠ .error .noNodes := by
  intro h
  rcases bind_eq_error_iff.mp h with hcut | ⟨⟨said, guard⟩, -, h⟩
  · exact cutGuard_ne_noNodes hcut
  · grind

theorem ne_noNodes_of_readItems {lines : List SourceLine} {fault : Fault} (h : readItems lines = .error fault) :
    fault.reason ≠ .noNodes := by
  induction lines using readItems.induct with
  | case1 => cases h
  | case2 line rest harrow ih =>
    rw [readItems, harrow] at h
    rcases bind_eq_error_iff.mp h with hread | ⟨read, -, h⟩
    · obtain ⟨reason, hreason, rfl⟩ := mapError_eq_error_iff.mp hread
      exact fun heq : reason = .noNodes => readLine_ne_noNodes (heq ▸ hreason)
    rcases bind_eq_error_iff.mp h with hrest | ⟨items, -, h⟩
    · exact ih hrest
    · cases h
  | case3 line rest option harrow ih =>
    rw [readItems, harrow] at h
    rcases bind_eq_error_iff.mp h with hentry | ⟨entry, -, h⟩
    · obtain ⟨reason, hreason, rfl⟩ := mapError_eq_error_iff.mp hentry
      exact fun heq : reason = .noNodes => readEntry_ne_noNodes (heq ▸ hreason)
    cases rest with
    | nil =>
      cases h
      exact Reason.noConfusion
    | cons follower rest =>
      cases hjump : jumpOf? follower.text with
      | none =>
        simp only [hjump] at h
        cases h
        exact Reason.noConfusion
      | some target =>
        simp only [hjump] at h
        rcases bind_eq_error_iff.mp h with hrest | ⟨items, -, h⟩
        · exact ih hrest
        · cases h

theorem ne_noNodes_of_closeBody {title : String} {titleLine : Nat} {headers : Table String} {lines : List SourceLine}
    {closing : SourceLine} {fault : Fault} (h : closeBody title titleLine headers lines closing = .error fault) :
    fault.reason ≠ .noNodes := by
  rcases bind_eq_error_iff.mp h with hitems | ⟨items, -, hempty⟩
  · exact ne_noNodes_of_readItems hitems
  · grind [SourceLine.fault]

theorem ne_noNodes_of_step {stage : Stage} {line : SourceLine} {fault : Fault} (h : stage.step line = .error fault) :
    fault.reason ≠ .noNodes := by
  cases stage with
  | heading title headers => cases title <;> grind [Stage.step, readHeader, map_eq_error_iff, SourceLine.fault]
  | body title titleLine headers lines =>
    grind [Stage.step, ne_noNodes_of_closeBody, map_eq_error_iff, SourceLine.fault]

theorem ne_noNodes_of_scan {stage : Stage} {lines : List SourceLine} {fault : Fault}
    (h : scan stage lines = .error fault) : fault.reason ≠ .noNodes := by
  obtain ⟨before, line, after, nodes, mid, -, -, hstep⟩ := step_of_scan_error h
  exact ne_noNodes_of_step hstep

theorem ne_noNodes_of_unfinished? {stage : Stage} {reason : Reason} (h : stage.unfinished? = some reason) :
    reason ≠ .noNodes := by
  cases stage with
  | body => grind [Stage.unfinished?]
  | heading title headers => cases title <;> grind [Stage.unfinished?]

/-! ### One script after the other -/

/-- After nodes that have been read, the others are read as they are. -/
theorem scan_append_sourceLines {a b : List (List Char)} {nodes : List (Node (Option Int))}
    (h : scan .start (sourceLines 1 a) = .ok (nodes, .start)) :
    scan .start (sourceLines 1 (a ++ b)) =
      (relocate (.down a.length) (fun read => (read.1.map (Node.moved (.down a.length)), read.2.moved (.down a.length)))
        (scan .start (sourceLines 1 b))).map fun later => (nodes ++ later.1, later.2) := by
  have hmoved := scan_moved (.down a.length) .start (sourceLines 1 b)
  rw [sourceLines_append, scan_append, h, sourceLines_down, ← hmoved]
  rfl

/-- **A script and a text after it are read one by one.** A text that ends with its lines and is read as nodes can be
followed by any other: what is wrong with the other is found where it is, and else its nodes come after those of the
first. A text without nodes adds none. -/
theorem read_append {a b : String} {nodes : List (Node (Option Int))} (hends : EndsLine a.toList b.toList)
    (h : read a = .ok nodes) :
    read (a ++ b) =
      match read b with
      | .ok others => .ok (nodes ++ others.map (Node.lowered (lines a.toList).length))
      | .error fault =>
        if fault.reason = .noNodes then .ok nodes else .error (fault.lowered (lines a.toList).length) := by
  obtain ⟨hscan, hne⟩ := scan_of_read h
  have hlines : lines (a ++ b).toList = lines a.toList ++ lines b.toList := by
    rw [String.toList_append, lines_append hends]
  rw [read_eq_finish, read_eq_finish, hlines, scan_append_sourceLines hscan]
  cases hlater : scan .start (sourceLines 1 (lines b.toList)) with
  | error fault =>
    show Except.error (fault.moved _) = if fault.reason = .noNodes then _ else _
    rw [if_neg (ne_noNodes_of_scan hlater)]
    rfl
  | ok later =>
    obtain ⟨others, stage⟩ := later
    have hothers : others.map (Node.moved (.down (lines a.toList).length)) =
        others.map (Node.lowered (lines a.toList).length) :=
      List.map_congr_left fun node hnode => moved_down (lineNumber_of_scan hlater node hnode)
    show finish _ (nodes ++ others.map (Node.moved _), stage.moved _) = match finish _ (others, stage) with
      | .ok _ => _
      | .error _ => _
    rw [finish, finish, unfinished?_moved, hothers]
    cases hunfinished : stage.unfinished? with
    | some reason =>
      have hreason : reason ≠ .noNodes := ne_noNodes_of_unfinished? hunfinished
      simp [hreason, Fault.lowered, Nat.add_comm]
    | none => cases others <;> simp [hne]

/-- After a script of four lines, the fault in the second line of a text is one in line six. -/
theorem read_append_shore :
    EndsLine "title: Shore\n---\n<<jump Sea>>\n===\n".toList "title: Sea\n  Waves\n".toList ∧
    read "title: Shore\n---\n<<jump Sea>>\n===\n" =
      .ok [⟨"Shore", [.jump "Sea" none], .empty, 1, List.cons_ne_nil _ _⟩] ∧
    read "title: Sea\n  Waves\n" = .error ⟨2, 3, .notHeader "Waves".toList⟩ ∧
    read ("title: Shore\n---\n<<jump Sea>>\n===\n" ++ "title: Sea\n  Waves\n") =
      .error ⟨6, 3, .notHeader "Waves".toList⟩ := by
  have hends : EndsLine "title: Shore\n---\n<<jump Sea>>\n===\n".toList "title: Sea\n  Waves\n".toList :=
    ⟨"title: Shore\n---\n<<jump Sea>>\n===".toList, '\n', by decide, by decide, by decide⟩
  have hshore : read "title: Shore\n---\n<<jump Sea>>\n===\n" =
      .ok [⟨"Shore", [.jump "Sea" none], .empty, 1, List.cons_ne_nil _ _⟩] := rfl
  have hsea : read "title: Sea\n  Waves\n" = .error ⟨2, 3, .notHeader "Waves".toList⟩ := rfl
  refine ⟨hends, hshore, hsea, ?_⟩
  rw [read_append hends hshore, hsea]
  rfl

end Script

end Parley

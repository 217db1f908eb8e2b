import Parley.Proofs.Script.Blocks

/-! Where the faults of a text point.

A line that matters is one of the lines of the text, with its number, and its column is that of its first character
that is no blank (`pointed_of_mem_sourceLines`). A fault points at such a line, or it is one of the three that a text
has at its end and points at the beginning of the last line. So a text is read as nodes, with a title each that one
of its lines gives, or it has a fault that points into it (`read_or_points`). -/
namespace Parley.Script

open Text

/-! ### Places -/

/-- A fault points at a line of a text that is neither blank nor a comment, at its first character that is no blank. -/
def Fault.AtLine (text : String) (fault : Fault) : Prop :=
  ∃ i indent c rest, (lines text.toList)[i]? = some (indent ++ c :: rest) ∧
    (∀ d ∈ indent, isBlank d = true) ∧ isBlank c = false ∧ ¬['/', '/'] <+: c :: rest ∧
    fault.line = i + 1 ∧ fault.column = indent.length + 1

/-- A fault is that a text ends too early, and points at the beginning of its last line, or of the first of none. -/
structure Fault.AtEnd (text : String) (fault : Fault) : Prop where
  reason : (∃ title, fault.reason = .unclosedNode title) ∨ fault.reason = .headersWithoutBody ∨ fault.reason = .noNodes
  line : fault.line = max 1 (lines text.toList).length
  column : fault.column = 1

/-! ### Lines that matter -/

/-- What begins a text without a blank begins the text without the blanks at its end. -/
theorem prefix_trimEnd {front s : List Char} (hblank : ∀ c ∈ front, isBlank c = false) (h : front <+: s) :
    front <+: trimEnd s := by
  obtain ⟨gap, hgap, hgapBlank⟩ := exists_gap s
  rcases List.prefix_or_prefix_of_prefix h ⟨gap, hgap.symm⟩ with hfront | ⟨more, rfl⟩
  · exact hfront
  · -- what is more than the trimmed text would be blank
    have hmore : more <+: gap := (List.prefix_append_right_inj _).mp (h.trans ⟨[], (List.append_nil s).trans hgap⟩)
    cases more with
    | nil => rw [List.append_nil]
    | cons c more =>
      have hc := hblank c (List.mem_append_right _ List.mem_cons_self)
      rw [hgapBlank c (hmore.mem List.mem_cons_self)] at hc
      nomatch hc

theorem ne_nil_of_trim_ne_nil {s : List Char} (h : trim s ≠ []) : trimStart s ≠ [] := by
  intro hnil
  rw [trim, hnil] at h
  exact h rfl

/-- The column of a line that matters is that of its first character that is no blank. -/
theorem exists_first_of_ofRaw? {number : Nat} {row : List Char} {line : SourceLine}
    (h : SourceLine.ofRaw? number row = some line) :
    ∃ indent c rest, row = indent ++ c :: rest ∧ (∀ d ∈ indent, isBlank d = true) ∧ isBlank c = false ∧
      ¬['/', '/'] <+: c :: rest ∧ line.number = number ∧ line.column = indent.length + 1 := by
  obtain ⟨hsilent, rfl⟩ := ofRaw?_eq_some_iff.mp h
  obtain ⟨hne, hcomment⟩ := not_or.mp (mt isSilent_iff.mpr (Bool.eq_false_iff.mp hsilent))
  obtain ⟨c, rest, hrest⟩ := List.exists_cons_of_ne_nil (ne_nil_of_trim_ne_nil hne)
  refine ⟨row.takeWhile isBlank, c, rest, ?_, List.all_eq_true.mp List.all_takeWhile, ?_, ?_, rfl, rfl⟩
  · rw [← hrest]
    exact List.takeWhile_append_dropWhile.symm
  · exact head_trimStart row c (by rw [hrest]; rfl)
  · rw [← hrest]
    have hslash : ∀ c ∈ ['/', '/'], isBlank c = false :=
      List.forall_mem_cons.mpr ⟨by decide, List.forall_mem_singleton.mpr (by decide)⟩
    exact mt (prefix_trimEnd hslash) hcomment

/-- A fault at a line that matters points at it. -/
theorem Fault.atLine_of_mem {text : String} {fault : Fault} {line : SourceLine}
    (h : line ∈ sourceLines 1 (lines text.toList)) (hline : fault.line = line.number)
    (hcolumn : fault.column = line.column) : fault.AtLine text := by
  obtain ⟨i, row, hrow, hraw⟩ := exists_row_of_mem_sourceLines h
  obtain ⟨indent, c, rest, rfl, hindent, hc, hcomment, hnumber, hfirst⟩ := exists_first_of_ofRaw? hraw
  refine ⟨i, indent, c, rest, hrow, hindent, hc, hcomment, ?_, hcolumn.trans hfirst⟩
  rw [hline, hnumber, Nat.add_comm]

theorem Fault.AtLine.line_pos {text : String} {fault : Fault} (h : fault.AtLine text) : 1 ≤ fault.line := by
  obtain ⟨i, -, -, -, -, -, -, -, hline, -⟩ := h
  rw [hline]
  exact Nat.succ_pos i

/-! ### Ends -/

/-- Nothing is unfinished before any line. -/
theorem lines_ne_nil_of_unfinished {text : String} {nodes : List (Node (Option Int))} {stage : Stage} {reason : Reason}
    (hscan : scan .start (sourceLines 1 (lines text.toList)) = .ok (nodes, stage))
    (h : stage.unfinished? = some reason) : lines text.toList ≠ [] := by
  intro hnil
  rw [hnil] at hscan
  cases hscan
  cases h

theorem reason_of_unfinished? {stage : Stage} {reason : Reason} (h : stage.unfinished? = some reason) :
    (∃ title, reason = .unclosedNode title) ∨ reason = .headersWithoutBody := by
  cases stage with
  | body title titleLine headers lines =>
    cases h
    exact .inl ⟨title, rfl⟩
  | heading title headers =>
    cases title with
    | some title =>
      cases h
      exact .inr rfl
    | none =>
      rw [Stage.unfinished?] at h
      split at h
      · cases h
      · cases h
        exact .inr rfl

/-- What is wrong at the end of a text that has been gone through is one of three things. -/
theorem Fault.atEnd_of_finish {text : String} {nodes : List (Node (Option Int))} {stage : Stage} {fault : Fault}
    (hscan : scan .start (sourceLines 1 (lines text.toList)) = .ok (nodes, stage))
    (h : finish (lines text.toList).length (nodes, stage) = .error fault) : fault.AtEnd text := by
  unfold finish at h
  split at h
  · rename_i reason hreason
    cases h
    have hlines := List.length_pos_iff.mpr (lines_ne_nil_of_unfinished hscan hreason)
    exact ⟨(reason_of_unfinished? hreason).imp_right .inl, (Nat.max_eq_right hlines).symm, rfl⟩
  · split at h
    · cases h
      exact ⟨.inr (.inr rfl), Nat.max_comm _ _, rfl⟩
    · cases h

/-! ### Texts -/

/-- A fault points at the line that has it, or at the end of the text. -/
theorem Fault.points_of_read {text : String} {fault : Fault} (h : read text = .error fault) :
    fault.AtEnd text ∨ fault.AtLine text := by
  rw [read_eq_finish] at h
  rcases bind_eq_error_iff.mp h with hscan | ⟨⟨nodes, stage⟩, hscan, hend⟩
  · obtain ⟨found, hfound, hline, hcolumn⟩ := line_of_scan_error hscan
    exact .inr (Fault.atLine_of_mem hfound hline hcolumn)
  · exact .inl (Fault.atEnd_of_finish hscan hend)

theorem exists_makes {blocks : List Block} {nodes : List (Node (Option Int))}
    (h : List.Forall₂ Block.Makes blocks nodes) : ∀ node ∈ nodes, ∃ block ∈ blocks, block.Makes node := by
  induction h with
  | nil => exact List.forall_mem_nil _
  | @cons block node blocks nodes hmakes _ ih =>
    refine List.forall_mem_cons.mpr ⟨⟨block, List.mem_cons_self, hmakes⟩, fun other hother => ?_⟩
    obtain ⟨block', hblock', hmakes'⟩ := ih other hother
    exact ⟨block', List.mem_cons_of_mem _ hblock', hmakes'⟩

/-- The title of a node is given by one of the lines that matter, the one that the node is numbered by. -/
theorem titled_of_read {text : String} {nodes : List (Node (Option Int))} (h : read text = .ok nodes) :
    ∀ node ∈ nodes, ∃ line ∈ sourceLines 1 (lines text.toList),
      Gives line ("title", node.title) ∧ node.lineNumber = line.number := by
  intro node hnode
  obtain ⟨blocks, hblocks, hmakes⟩ := @blocks_of_scan _ _ [] _ (scan_of_read h).1 ⟨.nil, by decide⟩
    fun line hline => trim_of_mem_sourceLines hline
  rw [List.nil_append] at hblocks
  obtain ⟨block, hblock, hmade⟩ := exists_makes hmakes node hnode
  obtain ⟨before, line, after, hheading, hgives, hnumber, -⟩ := hmade.heads.gives
  refine ⟨line, ?_, hgives, hnumber.symm⟩
  rw [← hblocks, List.mem_flatMap]
  refine ⟨block, hblock, ?_⟩
  rw [Block.lines, hheading]
  exact List.mem_append_left _ (List.mem_append_right _ List.mem_cons_self)

/-- **A text is a script, or its fault points into it.** There is no other outcome: nodes, of which there is one at
least and each has its title from a line, or a fault, which points at the line that has it or at the end of the
text. -/
theorem read_or_points (text : String) :
    (∃ nodes, read text = .ok nodes ∧ nodes ≠ [] ∧
      ∀ node ∈ nodes, ∃ line ∈ sourceLines 1 (lines text.toList),
        Gives line ("title", node.title) ∧ node.lineNumber = line.number) ∨
    ∃ fault, read text = .error fault ∧ (fault.AtEnd text ∨ fault.AtLine text) ∧
      1 ≤ fault.line ∧ fault.line ≤ max 1 (lines text.toList).length := by
  cases h : read text with
  | ok nodes => exact .inl ⟨nodes, rfl, (scan_of_read h).2, titled_of_read h⟩
  | error fault =>
    have hpoints := Fault.points_of_read h
    refine .inr ⟨fault, rfl, hpoints, ?_, ?_⟩
    · rcases hpoints with hend | hline
      · rw [hend.line]
        exact Nat.le_max_left _ _
      · exact hline.line_pos
    · rw [Nat.max_comm]
      exact line_le_of_read_error h

/-- The fault of an indented line is at its first character that is no blank. -/
example : read "title: A\n---\n    <<set $x to 3>>\n===\n" = .error ⟨3, 5, .notTruthValue ['3']⟩ := by cbv

end Parley.Script

import Parley.Proofs.Script.Guarded
import Parley.Proofs.Script.RoundTrip

/-! Guards outside options.

The nodes of a script are made of the lines between `---` and `===`, and of nothing else (`bodies_of_read`). Each
of these lines that is no option is read as a line by itself, also the jump after an option
(`readLine_of_read`). So a script with a guarded line that is no option is refused, unless the line slips
through (`misplaced_guard`). -/
namespace Parley.Script

open Text

/-- The lines of bodies, of lines that begin inside of one or outside. -/
def bodyLines : Bool → List SourceLine → List SourceLine
  | _, [] => []
  | false, line :: rest => bodyLines (decide (line.text = "---".toList)) rest
  | true, line :: rest =>
    if line.text = "===".toList then bodyLines false rest else line :: bodyLines true rest

/-- The lines of the bodies of a script. -/
def bodyLinesOf (text : String) : List SourceLine := bodyLines false (sourceLines 1 (lines text.toList))

/-- The lines of a body make the lines of a node. -/
def Makes (body : List SourceLine) (node : Node (Option Int)) : Prop :=
  ∃ items, readItems body = .ok items ∧ node.lines = gather items

/-- Whether a reading is in a body. -/
def Stage.inBody : Stage → Bool
  | .heading .. => false
  | .body .. => true

/-- The lines of the body that a reading is in. -/
def Stage.pending : Stage → List SourceLine
  | .heading .. => []
  | .body _ _ _ lines => lines

/-! ### Bodies -/

/-- A header is no edge of a body. -/
theorem ne_edge_of_header? {s key value : List Char} (h : header? s = some (key, value)) : ¬s = "---".toList := by
  rintro rfl
  cases h

/-- A line goes on with its body, begins it or ends it. -/
theorem bodies_of_step {stage next : Stage} {line : SourceLine} {made : Option (Node (Option Int))}
    (h : stage.step line = .ok (made, next)) (rest : List SourceLine) :
    ∃ parts : List (List SourceLine × Node (Option Int)), (∀ part ∈ parts, Makes part.1 part.2) ∧
      parts.map Prod.snd = made.toList ∧
      parts.flatMap Prod.fst ++ (next.pending ++ bodyLines next.inBody rest) =
        stage.pending ++ bodyLines stage.inBody (line :: rest) := by
  cases Stage.step_cases h with
  | titled hheader hnamed htitle =>
    refine ⟨[], List.forall_mem_nil _, rfl, ?_⟩
    simp only [Stage.pending, Stage.inBody, bodyLines, ne_edge_of_header? hheader, decide_false]
    rfl
  | header hheader hnamed hnew =>
    refine ⟨[], List.forall_mem_nil _, rfl, ?_⟩
    simp only [Stage.pending, Stage.inBody, bodyLines, ne_edge_of_header? hheader, decide_false]
    rfl
  | opening hopening =>
    refine ⟨[], List.forall_mem_nil _, rfl, ?_⟩
    simp only [Stage.pending, Stage.inBody, bodyLines, hopening]
    rfl
  | kept hclosing hopening =>
    refine ⟨[], List.forall_mem_nil _, rfl, ?_⟩
    simp only [Stage.pending, Stage.inBody, bodyLines, if_neg hclosing]
    simp
  | closing hclosing hclose =>
    obtain ⟨items, hitems, hne, rfl⟩ := items_of_closeBody hclose
    refine ⟨[(_, _)], List.forall_mem_singleton.mpr ⟨items, hitems, rfl⟩, rfl, ?_⟩
    simp only [Stage.pending, Stage.inBody, bodyLines, if_pos hclosing]
    simp [Stage.start]

theorem bodies_of_scan {stage last : Stage} {lines : List SourceLine} {nodes : List (Node (Option Int))}
    (h : scan stage lines = .ok (nodes, last)) (hlast : last.inBody = false) :
    ∃ parts : List (List SourceLine × Node (Option Int)), (∀ part ∈ parts, Makes part.1 part.2) ∧
      parts.map Prod.snd = nodes ∧
      parts.flatMap Prod.fst = stage.pending ++ bodyLines stage.inBody lines := by
  induction lines generalizing stage nodes with
  | nil =>
    cases h
    cases last with
    | heading title headers => exact ⟨[], List.forall_mem_nil _, rfl, rfl⟩
    | body title titleLine headers lines => cases hlast
  | cons line rest ih =>
    obtain ⟨⟨made, next⟩, hstep, h⟩ := bind_eq_ok_iff.mp h
    obtain ⟨⟨others, final⟩, hscan, h⟩ := bind_eq_ok_iff.mp h
    cases h
    obtain ⟨first, hfirst, hmade, hline⟩ := bodies_of_step hstep rest
    obtain ⟨later, hlater, hothers, hrest⟩ := ih hscan
    refine ⟨first ++ later, List.forall_mem_append.mpr ⟨hfirst, hlater⟩, ?_, ?_⟩
    · rw [List.map_append, hmade, hothers]
    · rw [List.flatMap_append, hrest, hline]

/-- The nodes of a script are made of the lines of its bodies, in order. -/
theorem bodies_of_read {text : String} {nodes : List (Node (Option Int))} (h : read text = .ok nodes) :
    ∃ parts : List (List SourceLine × Node (Option Int)), (∀ part ∈ parts, Makes part.1 part.2) ∧
      parts.map Prod.snd = nodes ∧ parts.flatMap Prod.fst = bodyLinesOf text :=
  bodies_of_scan (scan_of_read h).1 rfl

/-! ### Lines that are no options -/

/-- A line that an option jumps with is a jump by itself. -/
theorem readLine_of_jumpOf? {s target : List Char} (h : jumpOf? s = some target) :
    readLine s = .ok (.jump (String.ofList target) none) := by
  obtain ⟨inner, hstatement, htarget⟩ := Option.bind_eq_some_iff.mp h
  obtain ⟨middle, hmiddle, -⟩ := Option.map_eq_some_iff.mp hstatement
  obtain ⟨closed, hclosed, -⟩ := Option.bind_eq_some_iff.mp hmiddle
  have hword : firstWord inner = "jump".toList := by
    obtain ⟨rest, hrest, -⟩ := Option.bind_eq_some_iff.mp htarget
    obtain ⟨found, hfound, hblank⟩ := Option.bind_eq_some_iff.mp hrest
    rw [after?_eq_some_iff.mp hfound]
    refine firstWord_run (by decide) (not_blank_of_isWordText (by decide)) fun c hc => ?_
    split at hblank
    · rename_i hany
      rwa [Option.mem_def.mp hc] at hany
    · cases hblank
  unfold readLine readStatement
  rw [hclosed, hstatement]
  simp only [hword, htarget]
  rfl

/-- Every line of a body that is no option is read as a line, and every item that is no option is such a line. -/
theorem readLine_of_readItems {lines : List SourceLine} {items : List Item} (h : readItems lines = .ok items) :
    (∀ line ∈ lines, arrow? line.text = none → ∃ found, readLine line.text = .ok found) ∧
    ∀ found, Item.line found ∈ items → ∃ line ∈ lines, readLine line.text = .ok found := by
  replace h := reads_of_readItems h
  induction h with
  | nil => exact ⟨List.forall_mem_nil _, fun found hfound => absurd hfound List.not_mem_nil⟩
  | @line line _ found _ _ hread _ ih =>
    obtain ⟨hlines, hitems⟩ := ih
    refine ⟨List.forall_mem_cons.mpr ⟨fun _ => ⟨found, hread⟩, hlines⟩, fun item hitem => ?_⟩
    rcases List.mem_cons.mp hitem with heq | hitem
    · cases heq
      exact ⟨line, List.mem_cons_self, hread⟩
    · obtain ⟨source, hsource, hsourceRead⟩ := hitems item hitem
      exact ⟨source, List.mem_cons_of_mem _ hsource, hsourceRead⟩
  | option harrow _ hjump _ ih =>
    obtain ⟨hlines, hitems⟩ := ih
    refine ⟨?_, fun item hitem => ?_⟩
    · refine List.forall_mem_cons.mpr ⟨fun hnone => ?_, List.forall_mem_cons.mpr ⟨fun _ => ?_, hlines⟩⟩
      · cases harrow.symm.trans hnone
      · exact ⟨_, readLine_of_jumpOf? hjump⟩
    · have hrest := (List.mem_cons.mp hitem).resolve_left Item.noConfusion
      obtain ⟨source, hsource, hsourceRead⟩ := hitems item hrest
      exact ⟨source, List.mem_cons_of_mem _ (List.mem_cons_of_mem _ hsource), hsourceRead⟩

/-- What is gathered and is no menu is an item by itself. -/
theorem mem_of_mem_gather {items : List Item} {line : Line (Option Int)} (h : line ∈ gather items)
    (hmenu : ∀ menu, line ≠ .offer menu) : Item.line line ∈ items := by
  induction items with
  | nil => cases h
  | cons item rest ih =>
    have hbefore : line ∈ item.before (gather rest) := h
    unfold Item.before at hbefore
    split at hbefore
    · rcases List.mem_cons.mp hbefore with rfl | hrest
      · exact List.mem_cons_self
      · exact List.mem_cons_of_mem _ (ih hrest)
    · rename_i hgather
      have hrest := (List.mem_cons.mp hbefore).resolve_left (hmenu _)
      exact List.mem_cons_of_mem _ (ih (hgather ▸ List.mem_cons_of_mem _ hrest))
    · have hrest := (List.mem_cons.mp hbefore).resolve_left (hmenu _)
      exact List.mem_cons_of_mem _ (ih hrest)

/-- What is an item by itself and no menu is gathered. -/
theorem mem_gather {items : List Item} {line : Line (Option Int)} (h : Item.line line ∈ items)
    (hmenu : ∀ menu, line ≠ .offer menu) : line ∈ gather items := by
  induction items with
  | nil => cases h
  | cons item rest ih =>
    show line ∈ item.before (gather rest)
    rcases List.mem_cons.mp h with rfl | hrest
    · exact List.mem_cons_self
    · have hlater := ih hrest
      unfold Item.before
      split
      · exact List.mem_cons_of_mem _ hlater
      · rename_i hgather
        rw [hgather] at hlater
        exact List.mem_cons_of_mem _ ((List.mem_cons.mp hlater).resolve_left (hmenu _))
      · exact List.mem_cons_of_mem _ hlater

/-- A line that is no option and no jump is an item by itself. -/
theorem mem_of_readItems {lines : List SourceLine} {items : List Item} (h : readItems lines = .ok items)
    {line : SourceLine} (hline : line ∈ lines) (harrow : arrow? line.text = none) {found : Line (Option Int)}
    (hread : readLine line.text = .ok found) (hjump : ∀ target index, found ≠ .jump target index) :
    Item.line found ∈ items := by
  replace h := reads_of_readItems h
  induction h with
  | nil => cases hline
  | @line source _ other _ _ hother _ ih =>
    rcases List.mem_cons.mp hline with rfl | hline
    · rw [hother] at hread
      cases hread
      exact List.mem_cons_self
    · exact List.mem_cons_of_mem _ (ih hline)
  | option hoption _ htarget _ ih =>
    rcases List.mem_cons.mp hline with rfl | hline
    · cases hoption.symm.trans harrow
    rcases List.mem_cons.mp hline with rfl | hline
    · rw [readLine_of_jumpOf? htarget] at hread
      exact absurd (Except.ok.inj hread).symm (hjump _ _)
    · exact List.mem_cons_of_mem _ (ih hline)

/-- Every line of the bodies of a script that is no option is read as a line. -/
theorem readLine_of_read {text : String} {nodes : List (Node (Option Int))} (h : read text = .ok nodes)
    {line : SourceLine} (hline : line ∈ bodyLinesOf text) (harrow : arrow? line.text = none) :
    ∃ found, readLine line.text = .ok found := by
  obtain ⟨parts, hparts, -, hbodies⟩ := bodies_of_read h
  rw [← hbodies] at hline
  obtain ⟨part, hpart, hmem⟩ := List.mem_flatMap.mp hline
  obtain ⟨items, hitems, -⟩ := hparts part hpart
  exact (readLine_of_readItems hitems).1 line hmem harrow

/-- Every line of a node that is no menu is read from a line of the bodies of the script. -/
theorem exists_line_of_read {text : String} {nodes : List (Node (Option Int))} (h : read text = .ok nodes)
    {node : Node (Option Int)} (hnode : node ∈ nodes) {found : Line (Option Int)} (hfound : found ∈ node.lines)
    (hmenu : ∀ menu, found ≠ .offer menu) : ∃ line ∈ bodyLinesOf text, readLine line.text = .ok found := by
  obtain ⟨parts, hparts, hnodes, hbodies⟩ := bodies_of_read h
  rw [← hnodes] at hnode
  obtain ⟨part, hpart, rfl⟩ := List.mem_map.mp hnode
  obtain ⟨items, hitems, hlines⟩ := hparts part hpart
  rw [hlines] at hfound
  obtain ⟨line, hline, hread⟩ := (readLine_of_readItems hitems).2 found (mem_of_mem_gather hfound hmenu)
  rw [← hbodies]
  exact ⟨line, List.mem_flatMap.mpr ⟨part, hpart, hline⟩, hread⟩

/-- A line of a body that is no option, and is read as no jump and no menu, is a line of a node. -/
theorem exists_node_of_readLine {text : String} {nodes : List (Node (Option Int))} (h : read text = .ok nodes)
    {line : SourceLine} (hline : line ∈ bodyLinesOf text) (harrow : arrow? line.text = none)
    {found : Line (Option Int)} (hread : readLine line.text = .ok found)
    (hjump : ∀ target index, found ≠ .jump target index) (hmenu : ∀ menu, found ≠ .offer menu) :
    ∃ node ∈ nodes, found ∈ node.lines := by
  obtain ⟨parts, hparts, hnodes, hbodies⟩ := bodies_of_read h
  rw [← hbodies] at hline
  obtain ⟨part, hpart, hmem⟩ := List.mem_flatMap.mp hline
  obtain ⟨items, hitems, hlines⟩ := hparts part hpart
  refine ⟨part.2, hnodes ▸ List.mem_map_of_mem hpart, ?_⟩
  rw [hlines]
  exact mem_gather (mem_of_readItems hitems hmem harrow hread hjump) hmenu

/-! ### Speeches with a guard at their end -/

theorem mem_of_mem_bodyLines {inside : Bool} {lines : List SourceLine} {line : SourceLine}
    (h : line ∈ bodyLines inside lines) : line ∈ lines := by
  induction lines generalizing inside with
  | nil => cases inside <;> cases h
  | cons first rest ih =>
    cases inside with
    | false => exact List.mem_cons_of_mem _ (ih h)
    | true =>
      rw [bodyLines] at h
      split at h
      · exact List.mem_cons_of_mem _ (ih h)
      · exact List.mem_cons.mpr ((List.mem_cons.mp h).imp_right ih)

theorem ofRaw?_eq_some_iff {number : Nat} {row : List Char} {line : SourceLine} :
    SourceLine.ofRaw? number row = some line ↔
      isSilent (trim row) = false ∧ line = ⟨number, (row.takeWhile isBlank).length + 1, trim row⟩ := by
  rw [SourceLine.ofRaw?]
  split
  · rename_i h
    refine ⟨fun hsome => ?_, fun hline => absurd h (Bool.eq_false_iff.mp hline.1)⟩
    cases hsome
  · rename_i h
    refine ⟨fun hsome => ⟨Bool.eq_false_iff.mpr h, (Option.some.inj hsome).symm⟩, fun hline => ?_⟩
    exact congrArg some hline.2.symm

/-- A line that matters is one of the lines, with its number. -/
theorem exists_row_of_mem_sourceLines {number : Nat} {rows : List (List Char)} {line : SourceLine}
    (h : line ∈ sourceLines number rows) :
    ∃ i row, rows[i]? = some row ∧ SourceLine.ofRaw? (number + i) row = some line := by
  induction rows generalizing number with
  | nil => cases h
  | cons row rest ih =>
    rcases List.mem_append.mp h with h | h
    · exact ⟨0, row, rfl, Option.mem_toList.mp h⟩
    · obtain ⟨i, other, hother, hline⟩ := ih h
      refine ⟨i + 1, other, hother, ?_⟩
      rwa [Nat.add_right_comm, Nat.add_assoc] at hline

/-- The lines of a source are trimmed. -/
theorem trim_of_mem_sourceLines {number : Nat} {rows : List (List Char)} {line : SourceLine}
    (h : line ∈ sourceLines number rows) : trim line.text = line.text := by
  obtain ⟨i, row, -, hline⟩ := exists_row_of_mem_sourceLines h
  obtain ⟨-, rfl⟩ := ofRaw?_eq_some_iff.mp hline
  exact trim_trim row

/-- Without tags, nothing is taken off. -/
theorem splitTags_eq_self {s : List Char} (h : (splitTags s).2 = []) : (splitTags s).1 = s := by
  cases hlast : lastTag? s with
  | none => rw [splitTags_of_none hlast]
  | some found =>
    rw [splitTags_of_some hlast] at h
    exact absurd h (List.append_ne_nil_of_right_ne_nil _ (List.cons_ne_nil _ _))

/-- A statement is an assignment if its first word is `set`, and a jump or a command otherwise. -/
theorem readStatement_cases {s : List Char} {found : Line (Option Int)} (h : readStatement s = .ok found) :
    ∃ inner, statement? s = some inner ∧
      ((firstWord inner = "set".toList ∧ ∃ variableName value, found = .assign variableName value) ∨
        (∃ target index, found = .jump target index) ∨ ∃ name arguments, found = .command name arguments) := by
  unfold readStatement at h
  split at h
  · cases h
  rename_i inner hstatement
  refine ⟨inner, hstatement, ?_⟩
  dsimp only at h
  split at h
  · rename_i hword
    split at h
    · cases h
    · obtain ⟨value, -, rfl⟩ := map_eq_ok_iff.mp h
      exact .inl ⟨hword, _, value, rfl⟩
  split at h
  · split at h
    · cases h
    · cases h
      exact .inr (.inl ⟨_, _, rfl⟩)
  split at h
  · cases h
  unfold readCommand at h
  split at h
  · cases h
  · cases h
  · split at h
    · cases h
      exact .inr (.inr ⟨_, _, rfl⟩)
    · cases h

/-- A statement is no speech. -/
theorem readStatement_ne_say {s : List Char} {speaker text : String} {tags : List Tag} :
    readStatement s ≠ .ok (.say speaker text tags) := by
  intro h
  obtain ⟨inner, -, ⟨-, _, _, heq⟩ | ⟨_, _, heq⟩ | ⟨_, _, heq⟩⟩ := readStatement_cases h <;> cases heq

/-- A speech without tags does not end in a guard. -/
theorem tags_ne_nil_of_guarded {s : List Char} (htrim : trim s = s) {speaker text : String} {tags : List Tag}
    (h : readLine s = .ok (.say speaker text tags)) (hguarded : EndsGuarded text.toList) : tags ≠ [] := by
  rcases readLine_cases h with hstatement | ⟨hguard, hspeech⟩
  · exact absurd hstatement readStatement_ne_say
  · obtain ⟨-, heq⟩ := readSpeech_eq_ok_iff.mp hspeech
    cases heq
    intro htags
    rw [splitTags_eq_self htags, String.toList_ofList] at hguarded
    have hends := isSome_splitGuard?_iff.mpr (hguarded.of_suffix (splitSpeaker_suffix (trim_eq_self_iff.mp htrim).2))
    rw [hguard] at hends
    cases hends

/-! ### A script of one line -/

/-- A script with one node, and one row in it. -/
def solitary (row : List Char) : String :=
  String.ofList ([headerRow ("title", "A"), "---".toList, row, "===".toList].flatMap (· ++ ['\n']))

theorem lines_solitary {row : List Char} (h : BodyRow row) :
    lines (solitary row).toList = [headerRow ("title", "A"), "---".toList, row, "===".toList] := by
  rw [solitary, String.toList_ofList, lines_rows]
  simp only [List.forall_mem_cons, List.not_mem_nil, false_implies, implies_true, and_true]
  exact ⟨by decide, by decide, h.unbroken, by decide⟩

/-- The row is the line of its body. -/
theorem bodyLinesOf_solitary {row : List Char} (h : BodyRow row) :
    bodyLinesOf (solitary row) = [rowLine 3 row] := by
  have htext : (rowLine 3 row).text = row := h.trimmed
  have hclosing : ¬(rowLine 3 row).text = "===".toList := by
    rw [htext]
    exact h.not_closing
  rw [bodyLinesOf, lines_solitary h, sourceLines_row (by decide), sourceLines_row (by decide),
    sourceLines_row h.not_silent, sourceLines_row (by decide)]
  show bodyLines true (rowLine 3 row :: [rowLine 4 "===".toList]) = _
  rw [bodyLines, if_neg hclosing]
  rfl

/-- A script with one line that is no option is read exactly if the line is. -/
theorem read_solitary_iff {row : List Char} (h : BodyRow row) (harrow : arrow? row = none) :
    (∃ nodes, read (solitary row) = .ok nodes) ↔ ∃ found, readLine row = .ok found := by
  have htext : (rowLine 3 row).text = row := h.trimmed
  constructor
  · intro ⟨nodes, hread⟩
    have hline : rowLine 3 row ∈ bodyLinesOf (solitary row) := by
      rw [bodyLinesOf_solitary h]
      exact List.mem_cons_self
    have hfound := readLine_of_read hread hline (htext.symm ▸ harrow)
    rwa [htext] at hfound
  · intro ⟨found, hfound⟩
    have hitems : readItems (sourceLines 3 [row]) = .ok [.line found] := by
      rw [sourceLines_row h.not_silent, readItems_line (htext.symm ▸ harrow) (htext.symm ▸ hfound)]
      rfl
    have hopening : (Stage.heading (some ("A", 1)) .empty).step (rowLine 2 "---".toList) =
        .ok (none, .body "A" 1 .empty []) := rfl
    have hclosing : (Stage.body "A" 1 .empty ([] ++ sourceLines 3 [row])).step (rowLine 4 "===".toList) =
        .ok (some ⟨"A", gather [.line found], .empty, 1, gather_ne_nil (List.cons_ne_nil _ _)⟩, .start) := by
      show (closeBody _ _ _ _ _).map (fun node => (some node, Stage.start)) = _
      rw [List.nil_append, closeBody, hitems]
      rfl
    have hend : sourceLines 4 ["===".toList] = [rowLine 4 "===".toList] := sourceLines_row (by decide) 4 []
    have hrows : ∀ other ∈ [row], BodyRow other := List.forall_mem_singleton.mpr h
    have hscan : scan .start (sourceLines 1 [headerRow ("title", "A"), "---".toList, row, "===".toList]) =
        .ok ([⟨"A", gather [.line found], .empty, 1, gather_ne_nil (List.cons_ne_nil _ _)⟩], .start) := by
      rw [scan_title _ (by decide), scan_row (by decide) hopening]
      show scan _ (sourceLines 3 ([row] ++ ["===".toList])) = _
      rw [scan_body hrows, List.length_singleton, hend, scan_cons hclosing]
      rfl
    rw [read, lines_solitary h, hscan]
    exact ⟨_, rfl⟩

/-! ### Guards out of place -/

/-- **A guard is accepted on options only, but for what slips through.** A script is refused if a line of its
bodies is no option, ends in a guard once its tags are taken off, and does not slip through; and a line that
slips through does so in every case, by itself as the only line of a script. A speech of a script that is not
refused ends in a guard only if it has tags. -/
theorem misplaced_guard (text : String) :
    (∀ line ∈ bodyLinesOf text, arrow? line.text = none → Guarded line.text → ¬Slips line.text →
      ∃ fault, read text = .error fault) ∧
    (∀ row, BodyRow row → arrow? row = none → Guarded row →
      ((∃ nodes, read (solitary row) = .ok nodes) ↔ Slips row)) ∧
    ∀ nodes, read text = .ok nodes → ∀ node ∈ nodes, ∀ speaker said tags,
      Line.say speaker said tags ∈ node.lines → EndsGuarded said.toList → tags ≠ [] := by
  refine ⟨fun line hline harrow hguarded hslips => ?_, fun row hrow harrow hguarded => ?_, ?_⟩
  · cases hread : read text with
    | error fault => exact ⟨fault, rfl⟩
    | ok nodes =>
      have hfound := readLine_of_read hread hline harrow
      exact absurd ((readLine_guarded_iff hguarded).mp hfound) hslips
  · exact (read_solitary_iff hrow harrow).trans (readLine_guarded_iff hguarded)
  · intro nodes hread node hnode speaker said tags hsay hguarded
    obtain ⟨line, hline, hfound⟩ := exists_line_of_read hread hnode hsay fun menu => nofun
    exact tags_ne_nil_of_guarded (trim_of_mem_sourceLines (mem_of_mem_bodyLines hline)) hfound hguarded

/-- A speech that ends in a guard is refused. -/
theorem refused_hello :
    ∃ fault, read "title: A\n---\nHello <<if $x == true>>\n===\n" = .error fault := by
  have hrow : BodyRow "Hello <<if $x == true>>".toList :=
    ⟨by decide, by decide, by decide, by decide, by decide, by decide⟩
  have hguarded : Guarded "Hello <<if $x == true>>".toList := by
    rw [Guarded, splitTags_untagged (by decide)]
    exact isSome_splitGuard?_iff.mp (by decide)
  have hslips : ¬Slips "Hello <<if $x == true>>".toList := by
    intro h
    rcases h with ⟨-, hclosed⟩ | ⟨_, _, _, hstatement, -⟩
    · exact hclosed (by decide)
    · cases hstatement
  have htext : "title: A\n---\nHello <<if $x == true>>\n===\n" = solitary "Hello <<if $x == true>>".toList := by
    decide
  rw [htext]
  refine (misplaced_guard _).1 (rowLine 3 "Hello <<if $x == true>>".toList) ?_ rfl hguarded hslips
  rw [bodyLinesOf_solitary hrow]
  exact List.mem_cons_self

/-- What slips through alone is a guarded line of a script that is read. -/
theorem not_refused_of_slips {row : List Char} (h : BodyRow row) (harrow : arrow? row = none)
    (hguarded : Guarded row) (hslips : Slips row) :
    (∃ line ∈ bodyLinesOf (solitary row), arrow? line.text = none ∧ Guarded line.text) ∧
      ∃ nodes, read (solitary row) = .ok nodes := by
  have htext : (rowLine 3 row).text = row := h.trimmed
  refine ⟨⟨rowLine 3 row, ?_, htext.symm ▸ harrow, htext.symm ▸ hguarded⟩, ?_⟩
  · rw [bodyLinesOf_solitary h]
    exact List.mem_cons_self
  · exact (read_solitary_iff h harrow).mpr ((readLine_guarded_iff hguarded).mpr hslips)

/-- A guard before a tag, and one among the words of a command, are not refused. -/
theorem not_refused_before_tag :
    ((∃ line ∈ bodyLinesOf "title: A\n---\nHello <<if $x == true>> #mood:happy\n===\n",
        arrow? line.text = none ∧ Guarded line.text) ∧
      ∃ nodes, read "title: A\n---\nHello <<if $x == true>> #mood:happy\n===\n" = .ok nodes) ∧
    (∃ line ∈ bodyLinesOf "title: A\n---\n<<shake >> <<if $x == true>>\n===\n",
        arrow? line.text = none ∧ Guarded line.text) ∧
      ∃ nodes, read "title: A\n---\n<<shake >> <<if $x == true>>\n===\n" = .ok nodes := by
  constructor
  · have htext : "title: A\n---\nHello <<if $x == true>> #mood:happy\n===\n" =
        solitary "Hello <<if $x == true>> #mood:happy".toList := by decide
    have htag : lastTag? "Hello <<if $x == true>> #mood:happy".toList =
        some ("Hello <<if $x == true>>".toList, ⟨"mood", "happy"⟩) := by decide
    rw [htext]
    apply not_refused_of_slips ⟨by decide, by decide, by decide, by decide, by decide, by decide⟩ rfl
    · rw [Guarded, splitTags_of_some htag, splitTags_untagged (by decide)]
      exact isSome_splitGuard?_iff.mp (by decide)
    · exact .inl ⟨by decide, by decide⟩
  · have htext : "title: A\n---\n<<shake >> <<if $x == true>>\n===\n" =
        solitary "<<shake >> <<if $x == true>>".toList := by decide
    rw [htext]
    apply not_refused_of_slips ⟨by decide, by decide, by decide, by decide, by decide, by decide⟩ rfl
    · rw [Guarded, splitTags_untagged (by decide)]
      exact isSome_splitGuard?_iff.mp (by decide)
    · exact .inr ⟨_, _, _, rfl, ⟨by decide, by decide, by decide⟩, rfl, by decide⟩

end Parley.Script

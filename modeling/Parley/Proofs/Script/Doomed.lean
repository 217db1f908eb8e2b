import Parley.Proofs.Script.Faults

/-! Scripts beyond repair.

The first lines of a script may already say that it is refused, whatever comes after them (`Doomed`). That is so
exactly if going through them finds a fault, or ends in a body whose lines cannot become a body any more
(`doomed_iff`): from every other stage a few rows finish the script (`Stage.finishedBy_or_stuck`).

The lines of a body are read at its end. So the fault found is in the first lines that leave no way out, unless
their body is left open: then it is the edge that is missed, after them (`line_le_iff_of_doomed`). -/
namespace Parley.Script

open Text

/-- Whatever comes after the first `n` lines of a text, it is refused. -/
def Doomed (text : String) (n : Nat) : Prop :=
  ∀ other : String, (lines other.toList).take n = (lines text.toList).take n → ∃ fault, read other = .error fault

/-- Whether the next edge of a body is the end of one. -/
def closes : List SourceLine → Bool
  | [] => false
  | line :: rest =>
    if line.text = "===".toList then true else if line.text = "---".toList then false else closes rest

/-- There are lines after the first `n`, those are gone through without a fault up to the middle of a body, and
the body has no end. -/
def LeftOpen (text : String) (n : Nat) : Prop :=
  n < (lines text.toList).length ∧
    (∃ nodes stage, scan .start (sourceLines 1 ((lines text.toList).take n)) = .ok (nodes, stage) ∧
      stage.inBody = true) ∧
    closes (sourceLines (n + 1) ((lines text.toList).drop n)) = false

/-- A body has a fault, whatever lines it goes on with. -/
def Stuck (body : List SourceLine) (fault : Fault) : Prop := ∀ more, readItems (body ++ more) = .error fault

/-- A reading is in a body that is stuck. -/
def Stage.Stuck (stage : Stage) (fault : Fault) : Prop := stage.inBody = true ∧ Script.Stuck stage.pending fault

variable {text : String} {n : Nat} {rows : List (List Char)} {nodes : List (Node (Option Int))} {stage : Stage}
  {fault : Fault}

/-! ### First lines -/

theorem sourceLines_take_drop (hn : n ≤ rows.length) :
    sourceLines 1 rows = sourceLines 1 (rows.take n) ++ sourceLines (n + 1) (rows.drop n) := by
  have hlines := sourceLines_append 1 (rows.take n) (rows.drop n)
  rwa [List.take_append_drop, List.length_take, Nat.min_eq_left hn, Nat.add_comm 1 n] at hlines

/-- A fault in the first lines of a script is found first. -/
theorem scan_of_take_error (hn : n ≤ rows.length) (h : scan .start (sourceLines 1 (rows.take n)) = .error fault) :
    scan .start (sourceLines 1 rows) = .error fault := by
  rw [sourceLines_take_drop hn, scan_append, h]
  rfl

/-- A script goes on after its first lines. -/
theorem scan_of_take (hn : n ≤ rows.length)
    (h : scan .start (sourceLines 1 (rows.take n)) = .ok (nodes, stage)) :
    scan .start (sourceLines 1 rows) =
      (scan stage (sourceLines (n + 1) (rows.drop n))).map fun later => (nodes ++ later.1, later.2) := by
  rw [sourceLines_take_drop hn, scan_append, h]
  rfl

theorem read_of_scan_error (h : scan .start (sourceLines 1 (lines text.toList)) = .error fault) :
    read text = .error fault := by
  rw [read]
  simp only [h]
  rfl

theorem read_of_scan_body {title : String} {titleLine : Nat} {headers : Table String} {body : List SourceLine}
    (h : scan .start (sourceLines 1 (lines text.toList)) = .ok (nodes, .body title titleLine headers body)) :
    read text = .error ⟨(lines text.toList).length, 1, .unclosedNode title⟩ := by
  rw [read]
  simp only [h]
  rfl

theorem read_of_scan_start
    (h : scan .start (sourceLines 1 (lines text.toList)) = .ok (nodes, .start)) (hne : nodes ≠ []) :
    read text = .ok nodes := by
  rw [read]
  simp only [h]
  show (if nodes.isEmpty then _ else _ : Except Fault (List (Node (Option Int)))) = _
  rw [if_neg (mt List.isEmpty_iff.mp hne)]

/-! ### Finishing a script -/

/-- Among headers, none has the key of the title. -/
def Stage.TitleFree : Stage → Prop
  | .heading _ headers => headers.contains "title" = false
  | .body .. => True

theorem Stage.TitleFree.step {next : Stage} {line : SourceLine} {made : Option (Node (Option Int))}
    (hfree : stage.TitleFree) (h : Step line stage made next) : next.TitleFree := by
  cases h with
  | titled => exact hfree
  | @header title headers key value hheader hnamed hnew =>
    have hold : "title" ∉ headers.names := mt (Table.contains_iff headers "title").mpr (Bool.eq_false_iff.mp hfree)
    apply Bool.eq_false_iff.mpr
    rw [Ne, Table.contains_iff, Table.names_put]
    split
    · exact hold
    · intro hmem
      rcases List.mem_append.mp hmem with hmem | hmem
      · exact hold hmem
      · exact hnamed (List.mem_singleton.mp hmem).symm
  | opening => trivial
  | kept => trivial
  | closing => rfl

theorem titleFree_of_scan {lines : List SourceLine} (h : scan .start lines = .ok (nodes, stage)) : stage.TitleFree :=
  (scan_preserves (P := Stage.TitleFree) (Q := fun _ => True)
    (fun _ _ hfree hstep => ⟨hfree.step hstep, fun _ _ => trivial⟩) h rfl).1

/-- A body that a jump after it makes good. -/
def Finishable (body : List SourceLine) : Prop :=
  ∀ line : SourceLine, line.text = jumpRow "A" → ∃ items, items ≠ [] ∧ readItems (body ++ [line]) = .ok items

theorem jumpOf?_row {line : SourceLine} (h : line.text = jumpRow "A") : jumpOf? line.text = some "A".toList := by
  rw [h]
  exact jumpOf?_jumpRow (by decide)

theorem finishable_nil : Finishable [] := by
  intro line hline
  have harrow : arrow? line.text = none := by
    rw [hline]
    exact arrow?_bracketed _
  have hitems : readItems [line] = _ := readItems_line harrow (readLine_of_jumpOf? (jumpOf?_row hline))
  exact ⟨_, List.cons_ne_nil _ _, hitems⟩

/-- What becomes of a body is decided by the lines after its first item. -/
theorem finishable_or_stuck_append (front : List SourceLine) {body : List SourceLine} {item : Item}
    (hfront : ∀ rest, readItems (front ++ rest) = (readItems rest).map (item :: ·))
    (h : Finishable body ∨ ∃ fault, Stuck body fault) :
    Finishable (front ++ body) ∨ ∃ fault, Stuck (front ++ body) fault := by
  rcases h with hfinish | ⟨fault, hstuck⟩
  · left
    intro line hline
    obtain ⟨items, -, hitems⟩ := hfinish line hline
    refine ⟨item :: items, List.cons_ne_nil _ _, ?_⟩
    rw [List.append_assoc, hfront, hitems]
    rfl
  · right
    refine ⟨fault, fun more => ?_⟩
    rw [List.append_assoc, hfront, hstuck]
    rfl

/-- A jump makes a body good, or it has a fault that nothing after it changes. -/
theorem finishable_or_stuck (body : List SourceLine) : Finishable body ∨ ∃ fault, Stuck body fault := by
  induction body using readItems.induct with
  | case1 => exact .inl finishable_nil
  | case2 line rest harrow ih =>
    cases hread : readLine line.text with
    | error reason =>
      right
      refine ⟨line.fault reason, fun more => ?_⟩
      rw [List.cons_append, readItems, harrow]
      simp only [hread]
      rfl
    | ok read => exact finishable_or_stuck_append [line] (fun _ => readItems_line harrow hread) ih
  | case3 line rest option harrow ih =>
    cases hentry : readEntry option with
    | error reason =>
      right
      refine ⟨line.fault reason, fun more => ?_⟩
      rw [List.cons_append, readItems, harrow]
      simp only [hentry]
      rfl
    | ok entry =>
      cases rest with
      | nil =>
        -- the jump that makes the body good is the one of its last option
        left
        intro follower hfollower
        exact ⟨_, List.cons_ne_nil _ _, readItems_option harrow hentry (jumpOf?_row hfollower)⟩
      | cons follower rest =>
        cases hjump : jumpOf? follower.text with
        | none =>
          right
          refine ⟨follower.fault (.optionWithoutJump entry.text), fun more => ?_⟩
          rw [List.cons_append, List.cons_append, readItems, harrow]
          simp only [hentry, hjump]
          rfl
        | some target =>
          exact finishable_or_stuck_append [line, follower] (fun _ => readItems_option harrow hentry hjump) ih

/-- Rows that complete a node and the script with it. -/
def Stage.FinishedBy (stage : Stage) (rows : List (List Char)) : Prop :=
  (∀ row ∈ rows, Unbroken row) ∧
    ∀ number, ∃ nodes, nodes ≠ [] ∧ scan stage (sourceLines number rows) = .ok (nodes, .start)

theorem Stage.FinishedBy.cons {row : List Char} (hunbroken : Unbroken row) (hsilent : isSilent (trim row) = false)
    (hrows : ∀ row ∈ rows, Unbroken row)
    (h : ∀ number, ∃ next : Stage, stage.step (rowLine number row) = .ok (none, next) ∧ next.FinishedBy rows) :
    stage.FinishedBy (row :: rows) := by
  refine ⟨List.forall_mem_cons.mpr ⟨hunbroken, hrows⟩, fun number => ?_⟩
  obtain ⟨next, hstep, -, hnext⟩ := h number
  rw [scan_row hsilent hstep]
  exact hnext (number + 1)

theorem finishedBy_body {title : String} {titleLine : Nat} {headers : Table String} {body : List SourceLine}
    (h : Finishable body) : (Stage.body title titleLine headers body).FinishedBy [jumpRow "A", "===".toList] := by
  have hjump : BodyRow (jumpRow "A") := bodyRow_jumpRow (by decide)
  refine ⟨List.forall_mem_cons.mpr ⟨hjump.unbroken, List.forall_mem_singleton.mpr (by decide)⟩, fun number => ?_⟩
  obtain ⟨items, hne, hitems⟩ := h (rowLine number (jumpRow "A")) hjump.trimmed
  have hclosing : (Stage.body title titleLine headers (body ++ [rowLine number (jumpRow "A")])).step
      (rowLine (number + 1) "===".toList) =
        .ok (some ⟨title, gather items, headers, titleLine, gather_ne_nil hne⟩, .start) := by
    show (closeBody _ _ _ _ _).map (fun node => (some node, Stage.start)) = _
    rw [closeBody, hitems]
    show (dite (items = []) _ _ : Except Fault (Node (Option Int))).map _ = _
    rw [dif_neg hne]
    rfl
  have hend : sourceLines (number + 1) ["===".toList] = [rowLine (number + 1) "===".toList] :=
    sourceLines_row (by decide) _ []
  refine ⟨[⟨title, gather items, headers, titleLine, gather_ne_nil hne⟩], List.cons_ne_nil _ _, ?_⟩
  show scan _ (sourceLines number ([jumpRow "A"] ++ ["===".toList])) = _
  rw [scan_body (List.forall_mem_singleton.mpr hjump), List.length_singleton, sourceLines_row hjump.not_silent, hend]
  show scan (.body title titleLine headers (body ++ [rowLine number (jumpRow "A")])) _ = _
  rw [scan_cons hclosing]
  rfl

theorem finishedBy_titled (title : String × Nat) (headers : Table String) :
    (Stage.heading (some title) headers).FinishedBy ["---".toList, jumpRow "A", "===".toList] := by
  have hbody : (Stage.body title.1 title.2 headers []).FinishedBy [jumpRow "A", "===".toList] :=
    finishedBy_body finishable_nil
  exact .cons (by decide) (by decide) hbody.1 fun number => ⟨_, rfl, hbody⟩

theorem finishedBy_untitled {headers : Table String} (h : headers.contains "title" = false) :
    (Stage.heading none headers).FinishedBy ["title: A".toList, "---".toList, jumpRow "A", "===".toList] := by
  refine .cons (by decide) (by decide) (finishedBy_titled ("A", 0) headers).1 fun number => ?_
  refine ⟨.heading (some ("A", number)) headers, ?_, finishedBy_titled _ _⟩
  have hheader : header? (rowLine number "title: A".toList).text = some ("title".toList, "A".toList) := rfl
  show (readHeader none headers (rowLine number "title: A".toList)).map (fun stage => (none, stage)) = _
  rw [readHeader, hheader]
  simp only [String.ofList_toList, h]
  rfl

/-- From every stage that can be reached, a few rows finish the script, or the body that it is in is stuck. -/
theorem Stage.finishedBy_or_stuck (h : stage.TitleFree) :
    (∃ rows, stage.FinishedBy rows) ∨ ∃ fault, stage.Stuck fault := by
  cases stage with
  | heading title headers =>
    left
    cases title with
    | none => exact ⟨_, finishedBy_untitled h⟩
    | some title => exact ⟨_, finishedBy_titled title headers⟩
  | body title titleLine headers body =>
    exact (finishable_or_stuck body).imp (fun hfinish => ⟨_, finishedBy_body hfinish⟩)
      fun ⟨fault, hstuck⟩ => ⟨fault, rfl, hstuck⟩

/-! ### Stuck bodies -/

section

variable {title : String} {titleLine : Nat} {headers : Table String} {body lines : List SourceLine}

/-- A line of a body that is no edge is kept for its end. -/
theorem scan_kept {line : SourceLine} (hclosing : ¬line.text = "===".toList) (hopening : ¬line.text = "---".toList) :
    scan (.body title titleLine headers body) (line :: lines) =
      scan (.body title titleLine headers (body ++ [line])) lines := by
  have hstep : (Stage.body title titleLine headers body).step line =
      .ok (none, .body title titleLine headers (body ++ [line])) := by
    rw [Stage.step, if_neg hclosing, if_neg hopening]
  rw [scan_cons hstep]
  cases scan (.body title titleLine headers (body ++ [line])) lines with
  | error fault => rfl
  | ok read => rfl

/-- The fault of a stuck body is found at its end. -/
theorem scan_of_closes (hstuck : Stuck body fault) (hcloses : closes lines = true) :
    scan (.body title titleLine headers body) lines = .error fault := by
  induction lines generalizing body with
  | nil => cases hcloses
  | cons line rest ih =>
    unfold closes at hcloses
    split at hcloses
    · rename_i hclosing
      have hitems : readItems body = .error fault := by
        rw [← List.append_nil body]
        exact hstuck []
      rw [scan, Stage.step, if_pos hclosing, closeBody, hitems]
      rfl
    · rename_i hclosing
      split at hcloses
      · cases hcloses
      · rename_i hopening
        rw [scan_kept hclosing hopening]
        refine ih (fun more => ?_) hcloses
        rw [List.append_assoc]
        exact hstuck _

/-- A body that is not closed misses its end at the edge of another, or goes on to the end. -/
theorem scan_of_not_closes (h : closes lines = false) :
    (∃ edge ∈ lines, scan (.body title titleLine headers body) lines = .error (edge.fault (.unclosedNode title))) ∨
      ∃ all, scan (.body title titleLine headers body) lines = .ok ([], .body title titleLine headers all) := by
  induction lines generalizing body with
  | nil => exact .inr ⟨body, rfl⟩
  | cons line rest ih =>
    unfold closes at h
    split at h
    · cases h
    · rename_i hclosing
      split at h
      · rename_i hopening
        left
        refine ⟨line, List.mem_cons_self, ?_⟩
        rw [scan, Stage.step, if_neg hclosing, if_pos hopening]
        rfl
      · rename_i hopening
        rw [scan_kept hclosing hopening]
        rcases ih h with ⟨edge, hedge, hscan⟩ | hall
        · exact .inl ⟨edge, List.mem_cons_of_mem _ hedge, hscan⟩
        · exact .inr hall

end

/-- What a script is refused for that gets stuck in a body: for the fault of the body if the body is closed, and
otherwise for that it is not, in a later line if there is one. -/
theorem read_of_stuck (hn : n ≤ (lines text.toList).length)
    (hscan : scan .start (sourceLines 1 ((lines text.toList).take n)) = .ok (nodes, stage))
    (hstuck : stage.Stuck fault) :
    if closes (sourceLines (n + 1) ((lines text.toList).drop n)) = true then read text = .error fault
    else ∃ later, read text = .error later ∧ (∃ title, later.reason = .unclosedNode title) ∧
      (n < later.line ↔ n < (lines text.toList).length) := by
  have hall := scan_of_take hn hscan
  obtain ⟨hbody, hstuck⟩ := hstuck
  cases stage with
  | heading title headers => cases hbody
  | body title titleLine headers body =>
    have hbodyStuck : Script.Stuck body fault := hstuck
    split
    · rename_i hcloses
      apply read_of_scan_error
      rw [hall, scan_of_closes hbodyStuck hcloses]
      rfl
    · rename_i hcloses
      rcases scan_of_not_closes (Bool.eq_false_iff.mpr hcloses) with ⟨edge, hedge, hrest⟩ | ⟨all, hrest⟩
      · refine ⟨edge.fault (.unclosedNode title), read_of_scan_error ?_, ⟨title, rfl⟩, ?_⟩
        · rw [hall, hrest]
          rfl
        · have hnumber := number_of_mem_sourceLines hedge
          rw [List.length_drop] at hnumber
          show n < edge.number ↔ _
          omega
      · have hend : scan .start (sourceLines 1 (lines text.toList)) =
            .ok (nodes ++ [], .body title titleLine headers all) := by
          rw [hall, hrest]
          rfl
        exact ⟨_, read_of_scan_body hend, ⟨title, rfl⟩, Iff.rfl⟩

/-! ### The first violation -/

/-- Lines are the first of a script if rows finish it after them. -/
theorem exists_read_of_finishedBy {first : List (List Char)} (hfirst : ∀ row ∈ first, Unbroken row)
    (hscan : scan .start (sourceLines 1 first) = .ok (nodes, stage)) (hfinish : stage.FinishedBy rows) :
    ∃ other : String, lines other.toList = first ++ rows ∧ ∃ made, read other = .ok made := by
  obtain ⟨hunbroken, hfinish⟩ := hfinish
  have hlines : lines (String.ofList ((first ++ rows).flatMap (· ++ ['\n']))).toList = first ++ rows := by
    rw [String.toList_ofList, lines_rows (List.forall_mem_append.mpr ⟨hfirst, hunbroken⟩)]
  obtain ⟨finished, hne, hrest⟩ := hfinish (1 + first.length)
  refine ⟨_, hlines, nodes ++ finished, read_of_scan_start ?_ (List.append_ne_nil_of_right_ne_nil _ hne)⟩
  rw [hlines, sourceLines_append, scan_append, hscan]
  show (scan stage _).map _ = _
  rw [hrest]
  rfl

/-- **A script is beyond repair exactly if its first lines have a fault or end in a stuck body.** -/
theorem doomed_iff (hn : n ≤ (lines text.toList).length) :
    Doomed text n ↔ ∀ nodes stage,
      scan .start (sourceLines 1 ((lines text.toList).take n)) = .ok (nodes, stage) → ∃ fault, stage.Stuck fault := by
  have hlength : ((lines text.toList).take n).length = n := List.length_take_of_le hn
  constructor
  · intro doomed nodes stage hscan
    refine (Stage.finishedBy_or_stuck (titleFree_of_scan hscan)).resolve_left ?_
    rintro ⟨rows, hfinish⟩
    have hunbroken : ∀ row ∈ (lines text.toList).take n, Unbroken row :=
      fun row hrow => not_isBreak_of_mem_lines (List.mem_of_mem_take hrow)
    obtain ⟨other, hother, made, hread⟩ := exists_read_of_finishedBy hunbroken hscan hfinish
    have hsame : (lines other.toList).take n = (lines text.toList).take n := by
      rw [hother, List.take_append_of_le_length (Nat.le_of_eq hlength.symm), List.take_take, Nat.min_self]
    obtain ⟨fault, hfault⟩ := doomed other hsame
    cases hread.symm.trans hfault
  · intro hstuck other hother
    have hlong : n ≤ (lines other.toList).length := by
      rw [← hother, List.length_take] at hlength
      omega
    rw [← hother] at hstuck
    cases hscan : scan .start (sourceLines 1 ((lines other.toList).take n)) with
    | error fault => exact ⟨fault, read_of_scan_error (scan_of_take_error hlong hscan)⟩
    | ok found =>
      obtain ⟨fault, hfault⟩ := hstuck _ _ hscan
      have hread := read_of_stuck hlong hscan hfault
      split at hread
      · exact ⟨fault, hread⟩
      · obtain ⟨later, hlater, -⟩ := hread
        exact ⟨later, hlater⟩

theorem reported_of_line_le (hline : fault.line ≤ n) (hclosed : ¬LeftOpen text n) :
    (fault.line ≤ n ↔ ¬LeftOpen text n) ∧
      (n < fault.line → ∃ title, fault.reason = .unclosedNode title) :=
  ⟨iff_of_true hline hclosed, fun hlater => absurd hline (Nat.not_le.mpr hlater)⟩

/-- The fault of a stuck body is in one of the lines gone through. -/
theorem Stage.Stuck.line_le (h : stage.Stuck fault)
    (hscan : scan .start (sourceLines 1 rows) = .ok (nodes, stage)) : fault.line ≤ rows.length := by
  have hitems : readItems (stage.pending ++ []) = .error fault := h.2 []
  rw [List.append_nil] at hitems
  obtain ⟨line, hpending, hline⟩ := line_of_readItems_error hitems
  have hnumber := number_of_mem_sourceLines (pending_of_scan hscan line hpending)
  omega

/-- **The first violation is reported, but in a body that is left open.** If the first `n` lines of a text leave no way
to go on to a script, the text is refused for a fault in these lines, exactly if it does not leave open a body that
they end in. The fault that is reported instead is that the body is not closed. -/
theorem line_le_iff_of_doomed (text : String) (n : Nat) (doomed : Doomed text n) :
    ∃ fault, read text = .error fault ∧ (fault.line ≤ n ↔ ¬LeftOpen text n) ∧
      (n < fault.line → ∃ title, fault.reason = .unclosedNode title) := by
  rcases Nat.lt_or_ge (lines text.toList).length n with hshort | hn
  · obtain ⟨fault, hread⟩ := doomed text rfl
    have hline := line_le_of_read_error hread
    refine ⟨fault, hread, reported_of_line_le (by omega) fun hopen => ?_⟩
    exact absurd hopen.1 (Nat.lt_asymm hshort)
  have hlength : ((lines text.toList).take n).length = n := List.length_take_of_le hn
  cases hscan : scan .start (sourceLines 1 ((lines text.toList).take n)) with
  | error fault =>
    obtain ⟨found, hfound, hline⟩ := line_of_scan_error hscan
    have hnumber := number_of_mem_sourceLines hfound
    refine ⟨fault, read_of_scan_error (scan_of_take_error hn hscan), reported_of_line_le (by omega) ?_⟩
    rintro ⟨-, ⟨nodes, stage, hfirst, -⟩, -⟩
    cases hscan.symm.trans hfirst
  | ok found =>
    obtain ⟨nodes, stage⟩ := found
    obtain ⟨fault, hstuck⟩ := (doomed_iff hn).mp doomed nodes stage hscan
    have hread := read_of_stuck hn hscan hstuck
    split at hread
    · rename_i hcloses
      have hline := hstuck.line_le hscan
      refine ⟨fault, hread, reported_of_line_le (by omega) fun hopen => ?_⟩
      cases hcloses.symm.trans hopen.2.2
    · rename_i hcloses
      obtain ⟨later, hlater, hreason, hline⟩ := hread
      have hopen : n < (lines text.toList).length ↔ LeftOpen text n :=
        ⟨fun hmore => ⟨hmore, ⟨nodes, stage, hscan, hstuck.1⟩, Bool.eq_false_iff.mpr hcloses⟩, fun hopen => hopen.1⟩
      exact ⟨later, hlater, Nat.not_lt.symm.trans (not_congr (hline.trans hopen)), fun _ => hreason⟩

/-- A jump without a title leaves no way out of its body. -/
theorem stuck_of_jump (title : String) (titleLine : Nat) (headers : Table String) (number : Nat) :
    (Stage.body title titleLine headers [rowLine number "<<jump>>".toList]).Stuck
      ((rowLine number "<<jump>>".toList).fault .malformedJump) :=
  ⟨rfl, fun _ => rfl⟩

theorem scan_to_jump : scan .start (sourceLines 1 ["title: A".toList, "---".toList, "<<jump>>".toList]) =
    .ok ([], .body "A" 1 .empty [rowLine 3 "<<jump>>".toList]) := rfl

theorem doomed_of_jump
    (h : (lines text.toList).take 3 = ["title: A".toList, "---".toList, "<<jump>>".toList]) : Doomed text 3 := by
  have hlength : min 3 (lines text.toList).length = 3 := by
    rw [← List.length_take, h]
    rfl
  have hlong : 3 ≤ (lines text.toList).length := by omega
  refine (doomed_iff hlong).mpr fun nodes stage hscan => ?_
  rw [h, scan_to_jump] at hscan
  cases hscan
  exact ⟨_, stuck_of_jump "A" 1 .empty 3⟩

/-- A jump without a title is reported if its body is closed. -/
theorem line_le_of_closed_jump : Doomed "title: A\n---\n<<jump>>\n===\n" 3 ∧
    ∃ fault, read "title: A\n---\n<<jump>>\n===\n" = .error fault ∧ fault.line ≤ 3 := by
  have hlines : lines "title: A\n---\n<<jump>>\n===\n".toList =
      ["title: A".toList, "---".toList, "<<jump>>".toList, "===".toList] := by decide
  have doomed : Doomed "title: A\n---\n<<jump>>\n===\n" 3 := by
    apply doomed_of_jump
    rw [hlines]
    rfl
  have hclosed : ¬LeftOpen "title: A\n---\n<<jump>>\n===\n" 3 := by
    rintro ⟨-, -, hcloses⟩
    rw [hlines] at hcloses
    exact absurd hcloses (by decide)
  obtain ⟨fault, hread, hline, -⟩ := line_le_iff_of_doomed _ 3 doomed
  exact ⟨doomed, fault, hread, hline.mpr hclosed⟩

/-- It is not reported if another body begins first. -/
theorem later_line_of_open_jump : Doomed "title: A\n---\n<<jump>>\n---\n" 3 ∧
    read "title: A\n---\n<<jump>>\n---\n" = .error ⟨4, 1, .unclosedNode "A"⟩ ∧
    ¬∃ fault, read "title: A\n---\n<<jump>>\n---\n" = .error fault ∧ fault.line ≤ 3 := by
  have hlines : lines "title: A\n---\n<<jump>>\n---\n".toList =
      ["title: A".toList, "---".toList, "<<jump>>".toList, "---".toList] := by decide
  have hread : read "title: A\n---\n<<jump>>\n---\n" = .error ⟨4, 1, .unclosedNode "A"⟩ := by
    apply read_of_scan_error
    rw [hlines]
    rfl
  refine ⟨doomed_of_jump ?_, hread, fun ⟨fault, hfault, hline⟩ => ?_⟩
  · rw [hlines]
    rfl
  · cases hread.symm.trans hfault
    exact absurd hline (by decide)

end Parley.Script

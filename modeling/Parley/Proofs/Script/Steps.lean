import Parley.Proofs.Results
import Parley.Script.Reader

/-! Reading a script, step by step.

What a line can do to a stage is said once (`Stage.Step`), and what every step keeps up, going through lines keeps
up (`scan_preserves`). Lines that are not gone through are at fault in one of them (`step_of_scan_error`). What a line
is (`readLine_cases`) and what the lines of a body are (`Reads`) is said once too. -/
namespace Parley.Script

/-! ### One line -/

/-- What a line does that is not at fault: the stage before it, the node that it completes, and the stage after it. -/
inductive Stage.Step (line : SourceLine) : Stage → Option (Node (Option Int)) → Stage → Prop where
  /-- It gives the title. -/
  | titled {headers : Table String} {key value : List Char} (header : header? line.text = some (key, value))
      (named : String.ofList key = "title") (title : isTitle value = true) :
      Step line (.heading none headers) none (.heading (some (String.ofList value, line.number)) headers)
  /-- It gives another header. -/
  | header {title : Option (String × Nat)} {headers : Table String} {key value : List Char}
      (header : header? line.text = some (key, value)) (named : String.ofList key ≠ "title")
      (new : headers.contains (String.ofList key) = false) :
      Step line (.heading title headers) none
        (.heading title (headers.put (String.ofList key) (String.ofList value)))
  /-- It begins the body. -/
  | opening {title : String} {titleLine : Nat} {headers : Table String} (edge : line.text = "---".toList) :
      Step line (.heading (some (title, titleLine)) headers) none (.body title titleLine headers [])
  /-- It is a line of the body. -/
  | kept {title : String} {titleLine : Nat} {headers : Table String} {lines : List SourceLine}
      (not_closing : line.text ≠ "===".toList) (not_opening : line.text ≠ "---".toList) :
      Step line (.body title titleLine headers lines) none (.body title titleLine headers (lines ++ [line]))
  /-- It ends the body. -/
  | closing {title : String} {titleLine : Nat} {headers : Table String} {lines : List SourceLine}
      {node : Node (Option Int)} (edge : line.text = "===".toList)
      (closed : closeBody title titleLine headers lines line = .ok node) :
      Step line (.body title titleLine headers lines) (some node) .start

/-- A line does nothing else. -/
theorem Stage.step_cases {stage next : Stage} {line : SourceLine} {made : Option (Node (Option Int))}
    (h : stage.step line = .ok (made, next)) : Step line stage made next := by
  cases stage with
  | heading title headers =>
    simp only [Stage.step] at h
    split at h
    · rename_i hopening
      split at h
      · cases h
      · cases h
        exact .opening hopening
    · obtain ⟨found, hread, heq⟩ := map_eq_ok_iff.mp h
      cases heq
      unfold readHeader at hread
      split at hread
      · cases hread
      · rename_i key value hheader
        dsimp only at hread
        split at hread
        · cases hread
        · rename_i hnew
          rw [Bool.not_eq_true, Bool.or_eq_false_iff] at hnew
          split at hread
          · rename_i hnamed
            split at hread
            · rename_i htitle
              cases hread
              -- a second title would be a repeated header
              cases title with
              | none => exact .titled hheader hnamed htitle
              | some given => exact absurd hnew.2 (by simp [hnamed])
            · cases hread
          · rename_i hnamed
            cases hread
            exact .header hheader hnamed hnew.1
  | body title titleLine headers lines =>
    simp only [Stage.step] at h
    split at h
    · rename_i hclosing
      obtain ⟨node, hclose, heq⟩ := map_eq_ok_iff.mp h
      cases heq
      exact .closing hclosing hclose
    · rename_i hclosing
      split at h
      · cases h
      · rename_i hopening
        cases h
        exact .kept hclosing hopening

/-! ### Lines -/

/-- A speech is read exactly if something is said in it. -/
theorem readSpeech_eq_ok_iff {s : List Char} {line : Line (Option Int)} :
    readSpeech s = .ok line ↔
      (splitSpeaker (splitTags s).1).2 ≠ [] ∧
        line = .say (String.ofList (splitSpeaker (splitTags s).1).1) (String.ofList (splitSpeaker (splitTags s).1).2)
          (splitTags s).2 := by
  rw [readSpeech]
  dsimp only
  cases hsaid : (splitSpeaker (splitTags s).1).2 with
  | nil => simp
  | cons c rest => simp [eq_comm]

/-- A line is a statement, or a speech without a guard at its end. -/
theorem readLine_cases {s : List Char} {line : Line (Option Int)} (h : readLine s = .ok line) :
    readStatement s = .ok line ∨ (splitGuard? s = none ∧ readSpeech s = .ok line) := by
  unfold readLine at h
  split at h
  · exact .inl h
  split at h
  · cases h
  · rename_i hguard
    exact .inr ⟨Option.not_isSome_iff_eq_none.mp hguard, h⟩

/-! ### Bodies -/

/-- What lines of a body are: an item each, or an option with its jump. -/
inductive Reads : List SourceLine → List Item → Prop where
  | nil : Reads [] []
  | line {source : SourceLine} {lines : List SourceLine} {line : Line (Option Int)} {items : List Item}
      (no_option : arrow? source.text = none) (read : readLine source.text = .ok line) (rest : Reads lines items) :
      Reads (source :: lines) (.line line :: items)
  | option {source follower : SourceLine} {lines : List SourceLine} {said target : List Char} {entry : Entry}
      {items : List Item} (arrow : arrow? source.text = some said) (read : readEntry said = .ok entry)
      (jump : jumpOf? follower.text = some target) (rest : Reads lines items) :
      Reads (source :: follower :: lines) (.option (String.ofList entry.speaker) (entry.choice target) :: items)

/-- Lines are read as nothing else. -/
theorem reads_of_readItems {lines : List SourceLine} {items : List Item} (h : readItems lines = .ok items) :
    Reads lines items := by
  induction lines using readItems.induct generalizing items with
  | case1 =>
    cases h
    exact .nil
  | case2 line rest harrow ih =>
    rw [readItems, harrow] at h
    obtain ⟨read, hread, h⟩ := bind_eq_ok_iff.mp h
    obtain ⟨others, hothers, h⟩ := bind_eq_ok_iff.mp h
    cases h
    exact .line harrow (mapError_eq_ok_iff.mp hread) (ih hothers)
  | case3 line rest option harrow ih =>
    rw [readItems, harrow] at h
    obtain ⟨entry, hentry, h⟩ := bind_eq_ok_iff.mp h
    cases rest with
    | nil => cases h
    | cons follower rest =>
      cases hjump : jumpOf? follower.text with
      | none =>
        simp only [hjump] at h
        cases h
      | some target =>
        simp only [hjump] at h
        obtain ⟨others, hothers, h⟩ := bind_eq_ok_iff.mp h
        cases h
        exact .option harrow (mapError_eq_ok_iff.mp hentry) hjump (ih hothers)

/-- A node is made of the items of its body. -/
theorem items_of_closeBody {title : String} {titleLine : Nat} {headers : Table String} {lines : List SourceLine}
    {closing : SourceLine} {node : Node (Option Int)}
    (h : closeBody title titleLine headers lines closing = .ok node) :
    ∃ items, readItems lines = .ok items ∧
      ∃ hne : items ≠ [], node = ⟨title, gather items, headers, titleLine, gather_ne_nil hne⟩ := by
  obtain ⟨items, hitems, h⟩ := bind_eq_ok_iff.mp h
  split at h
  · cases h
  · rename_i hne
    cases h
    exact ⟨items, hitems, hne, rfl⟩

/-! ### Going on -/

theorem scan_cons {stage next : Stage} {line : SourceLine} {node : Option (Node (Option Int))}
    (hstep : stage.step line = .ok (node, next)) (rest : List SourceLine) :
    scan stage (line :: rest) = (scan next rest).map fun read => (node.toList ++ read.1, read.2) := by
  rw [scan, hstep]
  show (scan next rest).bind (fun read => pure (node.toList ++ read.1, read.2)) = _
  cases scan next rest with
  | error fault => rfl
  | ok read => rfl

/-- Lines are gone through one part after the other. -/
theorem scan_append (stage : Stage) (a b : List SourceLine) :
    scan stage (a ++ b) =
      scan stage a >>= fun first => (scan first.2 b).map fun later => (first.1 ++ later.1, later.2) := by
  induction a generalizing stage with
  | nil =>
    show scan stage b = (scan stage b).map fun later => ([] ++ later.1, later.2)
    cases scan stage b with
    | error fault => rfl
    | ok read => rfl
  | cons line rest ih =>
    rw [List.cons_append]
    cases hstep : stage.step line with
    | error fault =>
      rw [scan, scan, hstep]
      rfl
    | ok made =>
      rw [scan_cons hstep, scan_cons hstep, ih]
      cases scan made.2 rest with
      | error fault => rfl
      | ok first =>
        show ((scan first.2 b).map _).map _ = (scan first.2 b).map _
        cases scan first.2 b with
        | error fault => rfl
        | ok later =>
          simp only [Except.map, List.append_assoc]

/-- What every step keeps up of the stages, and what it makes of the nodes, holds when lines have been gone through. -/
theorem scan_preserves {P : Stage → Prop} {Q : Node (Option Int) → Prop} {lines : List SourceLine}
    (hstep : ∀ {stage next made}, ∀ line ∈ lines, P stage → Stage.Step line stage made next →
      P next ∧ ∀ node ∈ made, Q node)
    {stage last : Stage} {nodes : List (Node (Option Int))} (h : scan stage lines = .ok (nodes, last))
    (hstage : P stage) : P last ∧ ∀ node ∈ nodes, Q node := by
  induction lines generalizing stage nodes with
  | nil =>
    cases h
    exact ⟨hstage, List.forall_mem_nil _⟩
  | cons line rest ih =>
    obtain ⟨⟨made, next⟩, hfirst, h⟩ := bind_eq_ok_iff.mp h
    obtain ⟨⟨others, final⟩, hrest, h⟩ := bind_eq_ok_iff.mp h
    cases h
    obtain ⟨hnext, hmade⟩ := hstep line List.mem_cons_self hstage (Stage.step_cases hfirst)
    obtain ⟨hlast, hothers⟩ := ih (fun other hother => hstep other (List.mem_cons_of_mem _ hother)) hrest hnext
    refine ⟨hlast, List.forall_mem_append.mpr ⟨fun node hnode => ?_, hothers⟩⟩
    exact hmade node (Option.mem_toList.mp hnode)

/-- A fault is found at one line, after those before it. -/
theorem step_of_scan_error {stage : Stage} {lines : List SourceLine} {fault : Fault}
    (h : scan stage lines = .error fault) :
    ∃ before line after nodes mid, lines = before ++ line :: after ∧ scan stage before = .ok (nodes, mid) ∧
      mid.step line = .error fault := by
  induction lines generalizing stage with
  | nil => cases h
  | cons line rest ih =>
    rcases bind_eq_error_iff.mp h with hstep | ⟨⟨made, next⟩, hstep, h⟩
    · exact ⟨[], line, rest, [], stage, rfl, rfl, hstep⟩
    rcases bind_eq_error_iff.mp h with hscan | ⟨⟨others, final⟩, hscan, h⟩
    · obtain ⟨before, other, after, nodes, mid, rfl, hbefore, hother⟩ := ih hscan
      refine ⟨line :: before, other, after, made.toList ++ nodes, mid, rfl, ?_, hother⟩
      rw [scan_cons hstep, hbefore]
      rfl
    · cases h

/-! ### Scripts -/

/-- What is made of a script of `count` lines that have been gone through. -/
def finish (count : Nat) (found : List (Node (Option Int)) × Stage) : Except Fault (List (Node (Option Int))) :=
  match found.2.unfinished? with
  | some reason => .error ⟨count, 1, reason⟩
  | none => if found.1.isEmpty then .error ⟨max count 1, 1, .noNodes⟩ else .ok found.1

theorem read_eq_finish (text : String) :
    read text = scan .start (sourceLines 1 (Text.lines text.toList)) >>= finish (Text.lines text.toList).length := rfl

/-- Where nothing is unfinished, all is as before any header. -/
theorem Stage.eq_start_of_unfinished? {stage : Stage} (h : stage.unfinished? = none) : stage = .start := by
  cases stage with
  | body title titleLine headers lines => cases h
  | heading title headers =>
    cases title with
    | some title => cases h
    | none =>
      by_cases hsize : headers.size = 0
      · obtain ⟨entries, distinct⟩ := headers
        obtain rfl : entries = [] := List.length_eq_zero_iff.mp hsize
        rfl
      · rw [unfinished?, if_neg hsize] at h
        cases h

/-- A script is a list of nodes that is gone through to the end of the last. -/
theorem scan_of_read {text : String} {nodes : List (Node (Option Int))} (h : read text = .ok nodes) :
    scan .start (sourceLines 1 (Text.lines text.toList)) = .ok (nodes, .start) ∧ nodes ≠ [] := by
  rw [read_eq_finish] at h
  obtain ⟨⟨found, stage⟩, hscan, h⟩ := bind_eq_ok_iff.mp h
  unfold finish at h
  split at h
  · cases h
  · rename_i hfinished
    obtain rfl := Stage.eq_start_of_unfinished? hfinished
    split at h
    · cases h
    · rename_i hnodes
      cases h
      exact ⟨hscan, mt List.isEmpty_iff.mpr hnodes⟩

end Parley.Script

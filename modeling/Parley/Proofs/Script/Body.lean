import Parley.Proofs.Script.Rows

/-! Bodies are read back as they were printed.

The rows of lines are read as the items of the lines (`readItems_rows`), and the items are gathered into the
lines again if no two menus follow one another (`gather_items`). -/
namespace Parley

open Script Text

variable {ι : Type}

/-- A line as it is read, without indices. -/
def Line.asRead (line : Line ι) : Line (Option Int) := line.reindex fun _ _ => none

/-- An entry as it is read. -/
def Choice.asRead (choice : Choice ι) : Choice (Option Int) := choice.reindex fun _ _ => none

/-- The items of entries: the speaker stands before the first. -/
def choiceItems (speaker : String) : List (Choice ι) → List Item
  | [] => []
  | choice :: rest => .option speaker choice.asRead :: choiceItems "" rest

/-- The items that a line is read as. -/
def Line.items : Line ι → List Item
  | .offer menu => choiceItems menu.speaker menu.choices
  | line => [.line line.asRead]

namespace Script

/-! ### Items -/

theorem readItems_line {line : SourceLine} {rest : List SourceLine} {read : Line (Option Int)}
    (harrow : arrow? line.text = none) (hread : readLine line.text = .ok read) :
    readItems (line :: rest) = (readItems rest).map (.line read :: ·) := by
  rw [readItems, harrow]
  simp only [hread]
  cases readItems rest with
  | error fault => rfl
  | ok items => rfl

theorem readItems_option {line follower : SourceLine} {rest : List SourceLine} {option target : List Char}
    {entry : Entry} (harrow : arrow? line.text = some option) (hentry : readEntry option = .ok entry)
    (hjump : jumpOf? follower.text = some target) :
    readItems (line :: follower :: rest) =
      (readItems rest).map (.option (String.ofList entry.speaker) (entry.choice target) :: ·) := by
  rw [readItems, harrow]
  simp only [hentry, hjump]
  cases readItems rest with
  | error fault => rfl
  | ok items => rfl

theorem readItems_choices {speaker : String} {choices : List (Choice ι)} (hspeaker : CanSpeak speaker)
    (h : ChoicesPrintable speaker choices) {lines : List SourceLine}
    (hrows : lines.map SourceLine.text = choiceRows speaker choices) (rest : List SourceLine) :
    readItems (lines ++ rest) = (readItems rest).map (choiceItems speaker choices ++ ·) := by
  induction choices generalizing speaker lines with
  | nil =>
    rw [List.map_eq_nil_iff.mp hrows]
    cases hrest : readItems rest with
    | error fault => exact hrest
    | ok items => exact hrest
  | cons choice choices ih =>
    obtain ⟨hchoice, haddressed, hothers⟩ := h
    obtain ⟨line, lines, rfl, hline, hlines⟩ := List.map_eq_cons_iff.mp hrows
    obtain ⟨follower, lines, rfl, hfollower, hlines⟩ := List.map_eq_cons_iff.mp hlines
    have harrow : arrow? line.text = some (' ' :: offered speaker choice.text choice.guard) := by
      rw [hline, arrow?_row]
    have hjump : jumpOf? follower.text = some choice.target.toList := by
      rw [hfollower, jumpOf?_jumpRow hchoice.target]
    have hentry := readEntry_offered hspeaker hchoice haddressed
    have hread : readItems (line :: follower :: (lines ++ rest)) = _ :=
      readItems_option harrow hentry hjump
    have hchoice_read : Entry.choice ⟨speaker.toList, choice.text.toList, choice.guard⟩ choice.target.toList =
        choice.asRead := by
      simp [Entry.choice, Choice.asRead, Choice.reindex]
    rw [hchoice_read, String.ofList_toList, ih canSpeak_nobody hothers hlines] at hread
    rw [List.cons_append, List.cons_append, hread]
    cases readItems rest with
    | error fault => rfl
    | ok items => rfl

/-- The rows of a line are read as its items. -/
theorem readItems_append {line : Line ι} (h : line.Printable) {lines : List SourceLine}
    (hrows : lines.map SourceLine.text = line.rows) (rest : List SourceLine) :
    readItems (lines ++ rest) = (readItems rest).map (line.items ++ ·) := by
  cases line with
  | offer menu => exact readItems_choices h.1 h.2 hrows rest
  | assign variableName value =>
    obtain ⟨line, rfl, hline⟩ := List.map_eq_singleton_iff.mp hrows
    refine readItems_line ?_ ?_
    · rw [hline]
      exact arrow?_bracketed _
    · rw [hline]
      exact readLine_assignRow h value
  | command name arguments =>
    obtain ⟨line, rfl, hline⟩ := List.map_eq_singleton_iff.mp hrows
    refine readItems_line ?_ ?_
    · rw [hline]
      exact arrow?_bracketed _
    · rw [hline]
      exact readLine_commandRow h.1 h.2.1
  | say speaker text tags =>
    obtain ⟨hspeaker, htext, htags, halone⟩ := h
    have hplain := plain_sayRow ⟨hspeaker, htext⟩ (fun hempty => (halone hempty).2) tags
    obtain ⟨line, rfl, hline⟩ := List.map_eq_singleton_iff.mp hrows
    refine readItems_line ?_ ?_
    · rw [hline]
      exact after?_eq_none hplain.not_option
    · rw [hline]
      exact readLine_sayRow ⟨hspeaker, htext⟩ htags fun hempty => (halone hempty).1
  | jump target index =>
    obtain ⟨line, rfl, hline⟩ := List.map_eq_singleton_iff.mp hrows
    refine readItems_line ?_ ?_
    · rw [hline]
      exact arrow?_bracketed _
    · rw [hline]
      exact readLine_jumpRow h

/-- The rows of lines are read as their items. -/
theorem readItems_rows {nodeLines : List (Line ι)} (h : ∀ line ∈ nodeLines, line.Printable)
    {lines : List SourceLine} (hrows : lines.map SourceLine.text = nodeLines.flatMap Line.rows) :
    readItems lines = .ok (nodeLines.flatMap Line.items) := by
  induction nodeLines generalizing lines with
  | nil =>
    rw [List.map_eq_nil_iff.mp hrows]
    rfl
  | cons line rest ih =>
    obtain ⟨hline, hrest⟩ := List.forall_mem_cons.mp h
    rw [List.flatMap_cons] at hrows
    obtain ⟨first, others, rfl, hfirst, hothers⟩ := List.map_eq_append_iff.mp hrows
    rw [readItems_append hline hfirst, ih hrest hothers]
    rfl

/-! ### Gathering -/

theorem before_option (speaker : String) (choice : Choice (Option Int)) {lines : List (Line (Option Int))}
    (hlines : ∀ menu, lines.head? ≠ some (.offer menu)) :
    Item.before (.option speaker choice) lines = .offer ⟨speaker, [choice], List.cons_ne_nil _ _⟩ :: lines := by
  cases lines with
  | nil => rfl
  | cons line rest =>
    cases line with
    | offer menu => exact absurd rfl (hlines menu)
    | assign => rfl
    | command => rfl
    | say => rfl
    | jump => rfl

/-- Entries are gathered into one menu, unless another menu follows. -/
theorem foldr_choiceItems {speaker : String} {choices : List (Choice ι)} (hne : choices ≠ [])
    {lines : List (Line (Option Int))} (hlines : ∀ menu, lines.head? ≠ some (.offer menu)) :
    (choiceItems speaker choices).foldr Item.before lines =
      .offer ⟨speaker, choices.map Choice.asRead, by simpa using hne⟩ :: lines := by
  induction choices generalizing speaker with
  | nil => exact absurd rfl hne
  | cons choice rest ih =>
    cases rest with
    | nil =>
      exact before_option speaker choice.asRead hlines
    | cons next rest =>
      have hrest := @ih "" (List.cons_ne_nil _ _)
      show Item.before (.option speaker choice.asRead) ((choiceItems "" (next :: rest)).foldr Item.before lines) = _
      rw [hrest, Item.before]
      have hspeaker : (if speaker.isEmpty then "" else speaker) = speaker := by
        split
        · rename_i hempty
          exact (String.isEmpty_iff.mp hempty).symm
        · rfl
      simp only [hspeaker]
      rfl

/-- **Items are gathered into the lines that they are the items of.** -/
theorem gather_items {nodeLines : List (Line ι)}
    (h : ¬∃ before menu menu' after, nodeLines = before ++ .offer menu :: .offer menu' :: after) :
    gather (nodeLines.flatMap Line.items) = nodeLines.map Line.asRead := by
  induction nodeLines with
  | nil => rfl
  | cons line rest ih =>
    have hrest : ¬∃ before menu menu' after, rest = before ++ .offer menu :: .offer menu' :: after := by
      rintro ⟨before, menu, menu', after, rfl⟩
      exact h ⟨line :: before, menu, menu', after, rfl⟩
    have hgather := ih hrest
    rw [List.flatMap_cons, gather, List.foldr_append]
    show line.items.foldr Item.before (gather (rest.flatMap Line.items)) = _
    rw [hgather]
    cases line with
    | offer menu =>
      refine foldr_choiceItems menu.choices_ne ?_
      -- the line after a menu is no menu
      intro menu' hhead
      cases rest with
      | nil => nomatch hhead
      | cons next rest =>
        cases next with
        | offer other => exact h ⟨[], menu, other, rest, rfl⟩
        | assign => nomatch hhead
        | command => nomatch hhead
        | say => nomatch hhead
        | jump => nomatch hhead
    | assign => rfl
    | command => rfl
    | say => rfl
    | jump => rfl

theorem items_ne_nil (line : Line ι) : line.items ≠ [] := by
  cases line with
  | offer menu =>
    cases hchoices : menu.choices with
    | nil => exact absurd hchoices menu.choices_ne
    | cons choice rest =>
      show choiceItems menu.speaker menu.choices ≠ []
      rw [hchoices]
      exact List.cons_ne_nil _ _
  | assign => exact List.cons_ne_nil _ _
  | command => exact List.cons_ne_nil _ _
  | say => exact List.cons_ne_nil _ _
  | jump => exact List.cons_ne_nil _ _

end Script

end Parley

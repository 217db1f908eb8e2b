import Mathlib
import Parley.Archive.Loading
import Parley.Proofs.Script.Moved
import Parley.Proofs.Text.Lines

/-! The layout of scripts.

Of a script counts only what its lines that matter say, one after the other (`telling`): where they stand is moved away
from what is read (`saying_read_congr`). A text can be broken at any break into two, each of which tells its part
(`telling_cut`). So blank lines, comments, the blanks around lines and the kinds of breaks may be changed
(`telling_of_relaid`), and a file, whose breaks are changed when it is opened, holds the dialog that its text is
(`saying_read_of_relaid`). -/
namespace Parley

open Script Text

namespace Script

/-- Blanks that end no line. -/
def Padding (s : List Char) : Prop := ∀ c ∈ s, isBlank c = true ∧ isBreak c = false

/-- One line break or more. -/
def Breaks (s : List Char) : Prop := s ≠ [] ∧ ∀ c ∈ s, isBreak c = true

instance (s : List Char) : Decidable (Breaks s) :=
  decidable_of_iff (s ≠ [] ∧ s.all isBreak = true) (by simp [Breaks])

/-- After a text, a line begins. -/
def BeginsLine (front : List Char) : Prop := ∀ c ∈ front.getLast?, isBreak c = true

/-- Before a text, a line ends. -/
def EndsBefore (rest : List Char) : Prop := ∀ c ∈ rest.head?, isBreak c = true

/-- One change of the layout of a text. -/
inductive LayoutEdit : List Char → List Char → Prop where
  /-- A line that says nothing, blank or a comment, is put in. -/
  | silent {front row ending rest : List Char} (begins : BeginsLine front) (unbroken : Unbroken row)
      (silent : isSilent (trim row) = true) (ends : Breaks ending ∨ ending = [] ∧ rest = []) :
      LayoutEdit (front ++ rest) (front ++ (row ++ (ending ++ rest)))
  /-- A line has other blanks around it. -/
  | padded {front lead trail lead' trail' row rest : List Char} (begins : BeginsLine front) (unbroken : Unbroken row)
      (ends : EndsBefore rest) (lead_padding : Padding lead) (trail_padding : Padding trail)
      (lead_padding' : Padding lead') (trail_padding' : Padding trail') :
      LayoutEdit (front ++ ((lead ++ (row ++ trail)) ++ rest)) (front ++ ((lead' ++ (row ++ trail')) ++ rest))
  /-- A line ends in another break. -/
  | ended {front ending ending' rest : List Char} (breaks : Breaks ending) (breaks' : Breaks ending') :
      LayoutEdit (front ++ (ending ++ rest)) (front ++ (ending' ++ rest))
  /-- The last line ends in a break. -/
  | closed {front ending : List Char} (breaks : Breaks ending) : LayoutEdit front (front ++ ending)

/-- A text is another, with any number of changes made or taken back. -/
def Relaid (s t : List Char) : Prop := Relation.EqvGen LayoutEdit s t

/-- What is read of a script, wherever it stands. -/
def saying (reading : Except Fault (List (Node (Option Int)))) : Except Reason (List (Node (Option Int))) :=
  (reading.mapError Fault.reason).map (List.map Node.unnumbered)

/-- What the lines of a text say that matter. -/
def telling (s : List Char) : List (List Char) := ((lines s).map trim).filter (!isSilent ·)

/-! ### Lines without places -/

theorem map_text_sourceLines (number : Nat) (rows : List (List Char)) :
    (sourceLines number rows).map SourceLine.text = (rows.map trim).filter (!isSilent ·) := by
  induction rows generalizing number with
  | nil => rfl
  | cons row rest ih =>
    rw [sourceLines, List.map_append, ih, List.map_cons, List.filter_cons, SourceLine.ofRaw?]
    cases isSilent (trim row) <;> simp

/-- All lines at one place. -/
def Move.together : Move := ⟨fun _ => 0, fun _ => 0⟩

theorem map_moved_together (lines : List SourceLine) :
    lines.map (SourceLine.moved .together) = (lines.map SourceLine.text).map (SourceLine.mk 0 0) := by
  rw [List.map_map]
  rfl

/-- What is read of a script does not depend on where its lines stand, nor on how many there are. -/
theorem saying_finish (count : Nat) (lines : List SourceLine) :
    saying (scan .start lines >>= finish count) =
      saying (scan .start (lines.map (SourceLine.moved .together)) >>= finish 0) := by
  have hmoved := scan_moved .together .start lines
  have hstart : Stage.moved .together .start = .start := rfl
  rw [hstart] at hmoved
  rw [hmoved]
  cases scan .start lines with
  | error fault => rfl
  | ok found =>
    obtain ⟨nodes, stage⟩ := found
    show saying (finish count (nodes, stage)) =
      saying (finish 0 (nodes.map (Node.moved .together), stage.moved .together))
    rw [finish, finish, unfinished?_moved]
    cases stage.unfinished? with
    | some reason => rfl
    | none =>
      cases nodes with
      | nil => rfl
      | cons node rest =>
        show Except.ok _ = Except.ok _
        rw [List.map_map]
        rfl

/-- Texts whose lines tell the same are read as the same. -/
theorem saying_read_congr {s t : String} (h : telling s.toList = telling t.toList) :
    saying (read s) = saying (read t) := by
  rw [read_eq_finish, read_eq_finish, saying_finish, saying_finish (lines t.toList).length, map_moved_together,
    map_moved_together, map_text_sourceLines, map_text_sourceLines]
  exact congrArg (fun texts : List (List Char) => saying (scan .start (texts.map _) >>= finish 0)) h

/-! ### What is told -/

/-- Empty lines tell nothing, so a text may be broken at every single break. -/
theorem telling_eq (s : List Char) : telling s = ((s.splitOnP isBreak).map trim).filter (!isSilent ·) := by
  have hempty : ∀ rows : List (List Char),
      (rows.map trim).filter (!isSilent ·) = ((rows.filter (!·.isEmpty)).map trim).filter (!isSilent ·) := by
    intro rows
    induction rows with
    | nil => rfl
    | cons row rest ih =>
      cases row with
      | nil => exact ih
      | cons c row => simp only [List.map_cons, List.filter_cons, ih, List.isEmpty_cons, Bool.not_false, if_true]
  rw [telling, hempty, filter_lines, ← hempty]

@[simp] theorem telling_nil : telling [] = [] := rfl

/-- A break cuts a text in two. -/
theorem telling_cut (s rest : List Char) {c : Char} (hc : isBreak c = true) :
    telling (s ++ c :: rest) = telling s ++ telling rest := by
  rw [telling_eq, telling_eq, telling_eq, List.splitOnP_append_cons _ _ hc, List.map_append, List.filter_append]

/-- A text without a break tells the one line that it is, or nothing. -/
theorem telling_unbroken {row : List Char} (h : Unbroken row) :
    telling row = if isSilent (trim row) then [] else [trim row] := by
  rw [telling_eq, List.splitOnP_eq_singleton h]
  cases hsilent : isSilent (trim row) <;> simp [hsilent]

theorem telling_append_breaks (s rest : List Char) {ending : List Char} (h : Breaks ending) :
    telling (s ++ (ending ++ rest)) = telling s ++ telling rest := by
  obtain ⟨hne, hbreaks⟩ := h
  induction ending generalizing s with
  | nil => exact absurd rfl hne
  | cons c ending ih =>
    obtain ⟨hc, hbreaks⟩ := List.forall_mem_cons.mp hbreaks
    rw [List.cons_append, telling_cut _ _ hc]
    cases ending with
    | nil => rfl
    | cons d ending => exact congrArg (telling s ++ ·) (ih [] (List.cons_ne_nil _ _) hbreaks)

theorem telling_append_of_beginsLine {front : List Char} (h : BeginsLine front) (rest : List Char) :
    telling (front ++ rest) = telling front ++ telling rest := by
  rcases List.eq_nil_or_concat front with rfl | ⟨front, c, rfl⟩
  · rfl
  · have hc : isBreak c = true := h c (by simp)
    have hend := telling_cut front [] hc
    rw [List.concat_eq_append, List.append_assoc, List.singleton_append, telling_cut _ _ hc, hend, telling_nil,
      List.append_nil]

theorem telling_append_of_endsBefore {rest : List Char} (h : EndsBefore rest) (row : List Char) :
    telling (row ++ rest) = telling row ++ telling rest := by
  cases rest with
  | nil => simp
  | cons c rest =>
    have hc : isBreak c = true := h c rfl
    have hend := telling_cut [] rest hc
    rw [telling_cut _ _ hc, ← List.nil_append (c :: rest), hend, telling_nil, List.nil_append]

/-- The blanks around a line do not matter. -/
theorem trim_padded {lead trail : List Char} (hlead : Padding lead) (htrail : Padding trail) (row : List Char) :
    trim (lead ++ (row ++ trail)) = trim row := by
  have hlead_blank : ∀ c ∈ lead, isBlank c = true := fun c hc => (hlead c hc).1
  have htrail_blank : ∀ c ∈ trail, isBlank c = true := fun c hc => (htrail c hc).1
  have htrail_nil : trail.dropWhile isBlank = [] := by simpa [trimStart] using trimStart_append [] htrail_blank
  rw [trim, trim, trimStart_append _ hlead_blank, trimStart, trimStart, List.dropWhile_append]
  split
  · rename_i hrow
    rw [List.isEmpty_iff.mp hrow, htrail_nil]
  · rw [trimEnd_append _ htrail_blank]

theorem unbroken_padded {lead trail row : List Char} (hlead : Padding lead) (htrail : Padding trail)
    (h : Unbroken row) : Unbroken (lead ++ (row ++ trail)) :=
  unbroken_append.mpr ⟨fun c hc => (hlead c hc).2, unbroken_append.mpr ⟨h, fun c hc => (htrail c hc).2⟩⟩

/-- A change of layout leaves what is told as it is. -/
theorem telling_of_layoutEdit {s t : List Char} (h : LayoutEdit s t) : telling s = telling t := by
  cases h with
  | @silent front row ending rest begins unbroken silent ends =>
    have hrow : telling row = [] := by rw [telling_unbroken unbroken, if_pos silent]
    rw [telling_append_of_beginsLine begins, telling_append_of_beginsLine begins]
    rcases ends with hbreaks | ⟨rfl, rfl⟩
    · rw [telling_append_breaks row rest hbreaks, hrow, List.nil_append]
    · rw [List.append_nil, List.append_nil, hrow, telling_nil]
  | @padded front lead trail lead' trail' row rest begins unbroken ends hlead htrail hlead' htrail' =>
    rw [telling_append_of_beginsLine begins, telling_append_of_beginsLine begins, telling_append_of_endsBefore ends,
      telling_append_of_endsBefore ends, telling_unbroken (unbroken_padded hlead htrail unbroken),
      telling_unbroken (unbroken_padded hlead' htrail' unbroken), trim_padded hlead htrail, trim_padded hlead' htrail']
  | @ended front ending ending' rest breaks breaks' =>
    rw [telling_append_breaks front rest breaks, telling_append_breaks front rest breaks']
  | closed breaks =>
    have hend := telling_append_breaks s [] breaks
    rw [List.append_nil, telling_nil, List.append_nil] at hend
    exact hend.symm

theorem telling_of_relaid {s t : List Char} (h : Relaid s t) : telling s = telling t := by
  induction h with
  | rel s t h => exact telling_of_layoutEdit h
  | refl s => rfl
  | symm s t _ ih => exact ih.symm
  | trans s t u _ _ first second => exact first.trans second

/-! ### Files -/

theorem read_unifyBreaks (text : String) : read (String.ofList (unifyBreaks text.toList)) = read text := by
  rw [read_eq_finish, read_eq_finish, String.toList_ofList, lines_unifyBreaks]

/-- A script file holds the dialog that its text is. -/
theorem loadScript_of_content {archive : Archive} {path : Path} {content : ByteArray} {text : String}
    (hcontent : archive.content path = .ok content) (htext : ofBytes? content = some text) :
    archive.loadScript path = (Dialog.ofScript path.stem text).mapError .load := by
  have hscript : archive.script path = .ok (String.ofList (unifyBreaks text.toList)) := by
    simp only [Archive.script, hcontent, Except.map, htext]
  have hdialog : Dialog.ofScript path.stem (String.ofList (unifyBreaks text.toList)) =
      Dialog.ofScript path.stem text := by
    rw [Dialog.ofScript, Dialog.ofScript, read_unifyBreaks]
  simp only [Archive.loadScript, hscript, bind, Except.bind, hdialog]

/-- **Layout does not matter.** Texts that differ in their layout are both read as the same nodes, but for the numbers
of their lines, or are both refused for the same reason. A script file, whose breaks are made line feeds, gives just
what its text gives. -/
theorem saying_read_of_relaid :
    (∀ s t : String, Relaid s.toList t.toList → saying (read s) = saying (read t)) ∧
    ∀ (archive : Archive) (path : Path) (content : ByteArray) (text : String),
      archive.content path = .ok content → ofBytes? content = some text →
        archive.loadScript path = (Dialog.ofScript path.stem text).mapError .load :=
  ⟨fun _ _ h => saying_read_congr (telling_of_relaid h),
    fun _ _ _ _ hcontent htext => loadScript_of_content hcontent htext⟩

/-- A script, and the same script in another layout: another break, a comment between an option and its jump, and
blanks in front of the jump. -/
theorem relaid_shore : Relaid "title: A\n---\n-> Go\n<<jump A>>\n===\n".toList
    "title: A\n---\r\n-> Go\n\t// wait\n  <<jump A>>\n===\n".toList := by
  have hpadding : Padding [' ', ' '] := by simp [Padding, isBlank, isBreak, covers, blankRanges]
  have hbreak := @LayoutEdit.ended "title: A\n---".toList ['\n'] ['\r', '\n'] "-> Go\n<<jump A>>\n===\n".toList
    (by decide) (by decide)
  have hcomment := @LayoutEdit.silent "title: A\n---\r\n-> Go\n".toList "\t// wait".toList ['\n']
    "<<jump A>>\n===\n".toList (forall_of_some (by decide)) (by decide) (by decide) (.inl (by decide))
  have hblanks := @LayoutEdit.padded "title: A\n---\r\n-> Go\n\t// wait\n".toList [] [] [' ', ' '] []
    "<<jump A>>".toList "\n===\n".toList (forall_of_some (by decide)) (by decide) (forall_of_some (by decide))
    (List.forall_mem_nil _) (List.forall_mem_nil _) hpadding (List.forall_mem_nil _)
  simp only [String.reduceToList] at hbreak hcomment hblanks ⊢
  exact .trans _ _ _ (.rel _ _ hbreak) (.trans _ _ _ (.rel _ _ hcomment) (.rel _ _ hblanks))

/-- A folder with one script, whose lines end in carriage returns. -/
def returns : Archive := ⟨"/", [(["a.yarn"], .file "title: A\r---\r<<jump A>>\r===\r".toUTF8)]⟩

theorem saying_read_relaid_shore :
    Relaid "title: A\n---\n-> Go\n<<jump A>>\n===\n".toList
      "title: A\n---\r\n-> Go\n\t// wait\n  <<jump A>>\n===\n".toList ∧
    saying (read "title: A\n---\n-> Go\n<<jump A>>\n===\n") =
      saying (read "title: A\n---\r\n-> Go\n\t// wait\n  <<jump A>>\n===\n") ∧
    returns.content ["a.yarn"] = .ok "title: A\r---\r<<jump A>>\r===\r".toUTF8 ∧
    ofBytes? "title: A\r---\r<<jump A>>\r===\r".toUTF8 = some "title: A\r---\r<<jump A>>\r===\r" ∧
    returns.loadScript ["a.yarn"] =
      (Dialog.ofScript (Path.stem ["a.yarn"]) "title: A\r---\r<<jump A>>\r===\r").mapError .load := by
  have hcontent : returns.content ["a.yarn"] = .ok "title: A\r---\r<<jump A>>\r===\r".toUTF8 := by cbv
  have htext : ofBytes? "title: A\r---\r<<jump A>>\r===\r".toUTF8 = some "title: A\r---\r<<jump A>>\r===\r" := by
    cbv
  exact ⟨relaid_shore, saying_read_of_relaid.1 _ _ relaid_shore, hcontent, htext,
    saying_read_of_relaid.2 _ _ _ _ hcontent htext⟩

end Script

end Parley

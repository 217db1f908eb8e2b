import Parley.Proofs.Script.Body
import Parley.Proofs.Script.Steps
import Parley.Proofs.Tables

/-! Printed scripts are read back.

The rows of a node take the reading from before any header to the same place again, and complete the node on
the way (`scan_node`). So a printed script is read as the nodes that it was printed from, each at the number
of the row of its title (`read_print`). -/
namespace Parley

open Script Text

variable {ι : Type}

namespace Script

/-! ### Steps -/

/-- A row that matters, as a line. -/
def rowLine (number : Nat) (row : List Char) : SourceLine :=
  ⟨number, (row.takeWhile isBlank).length + 1, trim row⟩

theorem sourceLines_row {row : List Char} (h : isSilent (trim row) = false) (number : Nat)
    (rest : List (List Char)) :
    sourceLines number (row :: rest) = rowLine number row :: sourceLines (number + 1) rest := by
  rw [sourceLines, SourceLine.ofRaw?]
  simp only [h]
  rfl

/-- A row that completes no node leaves the rest to be read. -/
theorem scan_row {stage next : Stage} {number : Nat} {row : List Char} (hsilent : isSilent (trim row) = false)
    (hstep : stage.step (rowLine number row) = .ok (none, next)) (rest : List (List Char)) :
    scan stage (sourceLines number (row :: rest)) = scan next (sourceLines (number + 1) rest) := by
  rw [sourceLines_row hsilent, scan_cons hstep]
  cases scan next (sourceLines (number + 1) rest) with
  | error fault => rfl
  | ok read => rfl

/-! ### Headers -/

/-- A header row, trimmed: what follows the colon is the value, with the blanks before it. -/
theorem trim_headerRow {key value : String} (hkey : isWordText key.toList = true)
    (hvalue : trim value.toList = value.toList) :
    ∃ tail, trim (headerRow (key, value)) = key.toList ++ ':' :: tail ∧ trim tail = value.toList := by
  have hhead : ∀ c ∈ key.toList.head?, isBlank c = false :=
    fun c hc => not_blank_of_isWordText hkey c (List.mem_of_mem_head? hc)
  by_cases hempty : value.toList = []
  · refine ⟨[], ?_, ?_⟩
    · have hcolon : ∀ c ∈ (key.toList ++ [':']).getLast?, isBlank c = false :=
        forall_last_append (List.cons_ne_nil _ _) (forall_of_some (by decide))
      have hrow : headerRow (key, value) = (key.toList ++ [':']) ++ [' '] := by simp [headerRow, hempty]
      have hstart : ∀ c ∈ ((key.toList ++ [':']) ++ [' ']).head?, isBlank c = false :=
        forall_head_append (List.append_ne_nil_of_right_ne_nil _ (List.cons_ne_nil _ _))
          (forall_head_append (ne_nil_of_isWordText hkey) hhead)
      rw [hrow, trim, trimStart_of_head hstart, trimEnd_space, trimEnd_of_last hcolon]
    · rw [hempty]
      rfl
  · refine ⟨' ' :: value.toList, ?_, ?_⟩
    · have hlast : ∀ c ∈ ([':', ' '] ++ value.toList).getLast?, isBlank c = false :=
        forall_last_append hempty (trim_eq_self_iff.mp hvalue).2
      exact trim_append (ne_nil_of_isWordText hkey) (List.cons_ne_nil _ _) hhead hlast
    · rw [trim, trimStart_space]
      exact hvalue

theorem header?_row {key tail : List Char} (hkey : isWordText key = true) :
    header? (key ++ ':' :: tail) = some (key, trim tail) := by
  have hcolon : ∀ c ∈ (':' :: tail).head?, isWord c = false := forall_of_some (by decide)
  have htrim : trimStart (':' :: tail) = [':'] ++ tail := trimStart_of_head (forall_of_some (by decide))
  have hne : key.isEmpty = false := List.isEmpty_eq_false_iff.mpr (ne_nil_of_isWordText hkey)
  rw [header?, takeWhile_run (forall_of_isWordText hkey) hcolon, dropWhile_run (forall_of_isWordText hkey) hcolon,
    htrim, after?_lead]
  simp [hne]

/-- What begins with a word is neither blank nor a comment nor the edge of a body. -/
theorem plain_header {key : List Char} (hkey : isWordText key = true) (tail : List Char) :
    Plain (key ++ ':' :: tail) := by
  refine plain_of_head (List.append_ne_nil_of_right_ne_nil _ (List.cons_ne_nil _ _)) ?_
  exact forall_head_append (ne_nil_of_isWordText hkey)
    fun c hc => forall_of_isWordText hkey c (List.mem_of_mem_head? hc)

theorem not_silent {s : List Char} (hne : s ≠ []) (h : ¬['/', '/'] <+: s) : isSilent s = false := by
  rw [isSilent, after?_eq_none h, List.isEmpty_eq_false_iff.mpr hne]
  rfl

theorem scan_header {title : Option (String × Nat)} {headers : Table String} {next : Stage} {number : Nat}
    {key value : String} (rest : List (List Char)) (hkey : isWordText key.toList = true)
    (hvalue : trim value.toList = value.toList)
    (hread : ∀ line : SourceLine, line.number = number → header? line.text = some (key.toList, value.toList) →
      readHeader title headers line = .ok next) :
    scan (.heading title headers) (sourceLines number (headerRow (key, value) :: rest)) =
      scan next (sourceLines (number + 1) rest) := by
  obtain ⟨tail, htrim, htail⟩ := trim_headerRow hkey hvalue
  have hplain := plain_header hkey tail
  have hne : key.toList ++ ':' :: tail ≠ [] := List.append_ne_nil_of_right_ne_nil _ (List.cons_ne_nil _ _)
  have hheader : header? (key.toList ++ ':' :: tail) = some (key.toList, value.toList) := by
    rw [header?_row hkey, htail]
  have htext : (rowLine number (headerRow (key, value))).text = key.toList ++ ':' :: tail := htrim
  refine scan_row ?_ ?_ rest
  · rw [htrim]
    exact not_silent hne hplain.not_comment
  · have hopening : ¬(rowLine number (headerRow (key, value))).text = "---".toList := by
      rw [htext]
      exact hplain.not_opening
    have hline : header? (rowLine number (headerRow (key, value))).text = some (key.toList, value.toList) := by
      rw [htext, hheader]
    show (if _ then _ else _ : Except Fault (Option (Node (Option Int)) × Stage)) = _
    rw [if_neg hopening, hread _ rfl hline]
    rfl

theorem scan_title {number : Nat} {title : String} (rest : List (List Char)) (h : isTitle title.toList = true) :
    scan .start (sourceLines number (headerRow ("title", title) :: rest)) =
      scan (.heading (some (title, number)) .empty) (sourceLines (number + 1) rest) := by
  refine scan_header rest (by decide) (trim_of_no_blank (not_blank_of_isTitle h)) ?_
  intro line hnumber hheader
  have hkey : String.ofList "title".toList = "title" := String.ofList_toList
  rw [readHeader, hheader]
  simp only [hkey, h, String.ofList_toList, hnumber]
  rfl

/-- Headers are put into the table that there is. -/
theorem scan_headers {title : Option (String × Nat)} {entries : List (String × String)} {headers : Table String}
    {number : Nat} (rest : List (List Char))
    (h : ∀ entry ∈ entries, isWordText entry.1.toList = true ∧ entry.1 ≠ "title" ∧
      trim entry.2.toList = entry.2.toList)
    (hdistinct : ((headers.entries ++ entries).map Prod.fst).Nodup) :
    scan (.heading title headers) (sourceLines number (entries.map headerRow ++ rest)) =
      scan (.heading title (headers.putAll entries)) (sourceLines (number + entries.length) rest) := by
  induction entries generalizing headers number with
  | nil => rfl
  | cons entry entries ih =>
    obtain ⟨⟨hkey, htitle, hvalue⟩, hothers⟩ := List.forall_mem_cons.mp h
    have hnew : entry.1 ∉ headers.entries.map Prod.fst := by
      rw [List.map_append, List.nodup_append] at hdistinct
      exact fun hmem => hdistinct.2.2 _ hmem _ List.mem_cons_self rfl
    have hput : (headers.put entry.1 entry.2).entries = headers.entries ++ [entry] := putEntry_new hnew
    have hcontains : headers.contains entry.1 = false := by
      rw [← Bool.not_eq_true, Table.contains_iff]
      exact hnew
    have hnext : ((headers.put entry.1 entry.2).entries ++ entries).map Prod.fst |>.Nodup := by
      rw [hput, List.append_assoc]
      exact hdistinct
    have hread := @scan_header title headers (.heading title (headers.put entry.1 entry.2)) number entry.1 entry.2
      (entries.map headerRow ++ rest) hkey hvalue ?_
    · rw [List.map_cons, List.cons_append, hread, ih hothers hnext, List.length_cons, Nat.add_assoc,
        Nat.add_comm 1]
      rfl
    · intro line _ hheader
      rw [readHeader, hheader]
      simp only [String.ofList_toList, hcontains, htitle, decide_false, Bool.and_false, Bool.or_self]
      rfl

/-! ### Bodies -/

theorem BodyRow.not_silent {row : List Char} (h : BodyRow row) : isSilent (trim row) = false := by
  rw [h.trimmed]
  exact Script.not_silent h.ne h.not_comment

theorem sourceLines_texts {rows : List (List Char)} (h : ∀ row ∈ rows, BodyRow row) (number : Nat) :
    (sourceLines number rows).map SourceLine.text = rows := by
  induction rows generalizing number with
  | nil => rfl
  | cons row rest ih =>
    obtain ⟨hrow, hrest⟩ := List.forall_mem_cons.mp h
    rw [sourceLines_row hrow.not_silent, List.map_cons, ih hrest]
    exact congrArg (· :: rest) hrow.trimmed

/-- The rows of a body are kept for its end. -/
theorem scan_body {title : String} {titleLine : Nat} {headers : Table String} {rows : List (List Char)}
    (h : ∀ row ∈ rows, BodyRow row) (lines : List SourceLine) (number : Nat) (rest : List (List Char)) :
    scan (.body title titleLine headers lines) (sourceLines number (rows ++ rest)) =
      scan (.body title titleLine headers (lines ++ sourceLines number rows))
        (sourceLines (number + rows.length) rest) := by
  induction rows generalizing lines number with
  | nil =>
    rw [sourceLines, List.append_nil]
    rfl
  | cons row others ih =>
    obtain ⟨hrow, hothers⟩ := List.forall_mem_cons.mp h
    have htext : (rowLine number row).text = row := hrow.trimmed
    have hstep : (Stage.body title titleLine headers lines).step (rowLine number row) =
        .ok (none, .body title titleLine headers (lines ++ [rowLine number row])) := by
      have hclosing : ¬(rowLine number row).text = "===".toList := by
        rw [htext]
        exact hrow.not_closing
      have hopening : ¬(rowLine number row).text = "---".toList := by
        rw [htext]
        exact hrow.not_opening
      rw [Stage.step, if_neg hclosing, if_neg hopening]
    rw [List.cons_append, scan_row hrow.not_silent hstep, ih hothers, sourceLines_row hrow.not_silent,
      List.append_assoc, List.length_cons, Nat.add_assoc, Nat.add_comm 1]
    rfl

/-- The end of a body makes its lines. -/
theorem closeBody_rows {title : String} {titleLine : Nat} {headers : Table String} {nodeLines : List (Line ι)}
    (hne : nodeLines ≠ []) (h : ∀ line ∈ nodeLines, line.Printable)
    (hapart : ¬∃ before menu menu' after, nodeLines = before ++ .offer menu :: .offer menu' :: after)
    {lines : List SourceLine} (hrows : lines.map SourceLine.text = nodeLines.flatMap Line.rows)
    (closing : SourceLine) :
    closeBody title titleLine headers lines closing =
      .ok ⟨title, nodeLines.map Line.asRead, headers, titleLine, by simpa using hne⟩ := by
  have hitems : nodeLines.flatMap Line.items ≠ [] := by
    cases nodeLines with
    | nil => exact absurd rfl hne
    | cons line rest => exact List.append_ne_nil_of_left_ne_nil (items_ne_nil line) _
  rw [closeBody, readItems_rows h hrows]
  show (if hnil : nodeLines.flatMap Line.items = [] then _ else _ : Except Fault (Node (Option Int))) = _
  rw [dif_neg hitems]
  simp only [gather_items hapart]

/-! ### Nodes -/

theorem length_rows (node : Node ι) :
    node.rows.length = 1 + node.headers.entries.length + 1 + (node.lines.flatMap Line.rows).length + 1 := by
  simp only [Node.rows, List.length_cons, List.length_append, List.length_map, List.length_nil]
  omega

theorem rows_append (node : Node ι) (rest : List (List Char)) :
    node.rows ++ rest = headerRow ("title", node.title) ::
      (node.headers.entries.map headerRow ++ (['-', '-', '-'] ::
        (node.lines.flatMap Line.rows ++ (['=', '=', '='] :: rest)))) := by
  simp [Node.rows]

/-- The rows of a node complete it, at the number of its title. -/
theorem scan_node {node : Node ι} (h : node.Printable) (number : Nat) (rest : List (List Char)) :
    scan .start (sourceLines number (node.rows ++ rest)) =
      (scan .start (sourceLines (number + node.rows.length) rest)).map fun read =>
        ({ node.reindex fun _ _ => none with lineNumber := number } :: read.1, read.2) := by
  have hentries : ∀ entry ∈ node.headers.entries, isWordText entry.1.toList = true ∧ entry.1 ≠ "title" ∧
      trim entry.2.toList = entry.2.toList := fun entry hentry =>
    ⟨(h.headers entry hentry).1, (h.headers entry hentry).2.1, (h.headers entry hentry).2.2.1⟩
  have hrows : ∀ row ∈ node.lines.flatMap Line.rows, BodyRow row := by
    intro row hrow
    obtain ⟨line, hline, hrow⟩ := List.mem_flatMap.mp hrow
    exact (h.lines line hline).bodyRow row hrow
  have hopening : ∀ number, (Stage.heading (some (node.title, number)) node.headers).step
      (rowLine (number + 1 + node.headers.entries.length) ['-', '-', '-']) =
        .ok (none, .body node.title number node.headers []) := fun number => rfl
  have hdistinct : (((Table.empty : Table String).entries ++ node.headers.entries).map Prod.fst).Nodup :=
    node.headers.distinct
  have hclosing : (Stage.body node.title number node.headers
        ([] ++ sourceLines (number + 1 + node.headers.entries.length + 1) (node.lines.flatMap Line.rows))).step
      (rowLine (number + 1 + node.headers.entries.length + 1 + (node.lines.flatMap Line.rows).length)
        ['=', '=', '=']) =
        .ok (some { node.reindex fun _ _ => none with lineNumber := number }, .start) := by
    show (closeBody _ _ _ _ _).map (fun node => (some node, Stage.start)) = _
    rw [List.nil_append, closeBody_rows node.lines_ne h.lines h.apart (sourceLines_texts hrows _)]
    rfl
  have hnumber : number + node.rows.length =
      number + 1 + node.headers.entries.length + 1 + (node.lines.flatMap Line.rows).length + 1 := by
    rw [length_rows]
    omega
  rw [rows_append, scan_title _ h.title, scan_headers _ hentries hdistinct, Table.putAll_entries,
    scan_row (by decide) (hopening number), scan_body hrows, sourceLines_row (by decide), scan_cons hclosing,
    hnumber]
  rfl

theorem scan_nodes {nodes : List (Node ι)} (h : ∀ node ∈ nodes, node.Printable) (number : Nat) :
    scan .start (sourceLines number (nodes.flatMap Node.rows)) = .ok (asRead number nodes, .start) := by
  induction nodes generalizing number with
  | nil => rfl
  | cons node rest ih =>
    obtain ⟨hnode, hrest⟩ := List.forall_mem_cons.mp h
    rw [List.flatMap_cons, scan_node hnode, ih hrest]
    rfl

/-! ### Scripts -/

theorem unbroken_headerRow {key value : String} (hkey : isWordText key.toList = true)
    (hvalue : Unbroken value.toList) : Unbroken (headerRow (key, value)) := by
  have hcolon : Unbroken [':', ' '] := by decide
  exact unbroken_append.mpr ⟨unbroken_of_isWordText hkey, unbroken_append.mpr ⟨hcolon, hvalue⟩⟩

theorem unbroken_rows {node : Node ι} (h : node.Printable) : ∀ row ∈ node.rows, Unbroken row := by
  have htitle : Unbroken node.title.toList := unbroken_of_no_blank (not_blank_of_isTitle h.title)
  intro row hrow
  rcases List.mem_cons.mp hrow with rfl | hrow
  · exact unbroken_headerRow (by decide) htitle
  rcases List.mem_append.mp hrow with hrow | hrow
  · obtain ⟨entry, hentry, rfl⟩ := List.mem_map.mp hrow
    obtain ⟨hkey, -, -, hvalue⟩ := h.headers entry hentry
    exact unbroken_headerRow hkey hvalue
  rcases List.mem_cons.mp hrow with rfl | hrow
  · decide
  rcases List.mem_append.mp hrow with hrow | hrow
  · obtain ⟨line, hline, hrow⟩ := List.mem_flatMap.mp hrow
    exact ((h.lines line hline).bodyRow row hrow).unbroken
  · rw [List.mem_singleton.mp hrow]
    decide

end Script

/-- **A printed script is read back**: as the nodes that it was printed from, in order, each at the number of the
row of its title, and without indices. -/
theorem read_print {nodes : List (Node ι)} (hne : nodes ≠ []) (h : ∀ node ∈ nodes, node.Printable) :
    Script.read (print nodes) = .ok (asRead 1 nodes) := by
  have hrows : ∀ row ∈ nodes.flatMap Node.rows, Unbroken row := by
    intro row hrow
    obtain ⟨node, hnode, hrow⟩ := List.mem_flatMap.mp hrow
    exact unbroken_rows (h node hnode) row hrow
  have hlines : lines (print nodes).toList = nodes.flatMap Node.rows := by
    rw [print, String.toList_ofList, lines_rows hrows]
  have hread : (asRead 1 nodes).isEmpty = false := by
    cases nodes with
    | nil => exact absurd rfl hne
    | cons node rest => rfl
  rw [Script.read, hlines, scan_nodes h]
  show (if (asRead 1 nodes).isEmpty then _ else _ : Except Fault _) = _
  rw [hread]
  rfl

/-! ### An inn to print -/

namespace Inn

def greeting : Line Unit := .say "" "12 guests: full." [⟨"mood", "<<low>>"⟩]

def music : Line Unit := .command "play" ["it's", "", "<<late>>"]

def menu : Menu Unit :=
  ⟨"Host", [⟨"Stay -> pay", "Inn", (), some ⟨"paid", .equal, true⟩⟩, ⟨"Leave", "Road.1", (), none⟩],
    List.cons_ne_nil _ _⟩

/-- A node with a header that has no value. -/
def node : Node Unit where
  title := "Inn"
  lines := [greeting, music, .offer menu, .jump "Inn" ()]
  headers := Table.empty.put "tags" ""
  lineNumber := 0
  lines_ne := List.cons_ne_nil _ _

theorem sayable {text : String} (hne : text ≠ "") (htrim : trim text.toList = text.toList)
    (hunbroken : Unbroken text.toList) (hplain : '<' ∉ text.toList) (huntagged : '#' ∉ text.toList) :
    Sayable text :=
  ⟨hne, htrim, hunbroken, unbracketed_of_not_mem hplain, huntagged⟩

theorem greeting_printable : greeting.Printable := by
  refine ⟨canSpeak_nobody, ?_, ?_, fun _ => ⟨by decide, by decide, by decide, by decide, by decide⟩⟩
  · exact sayable (by decide) (by decide) (by decide) (by decide) (by decide)
  · exact List.forall_mem_singleton.mpr ⟨by decide, by decide, by decide⟩

theorem menu_printable : (Line.offer menu).Printable := by
  have hhost : CanSpeak "Host" := fun _ => ⟨by decide, forall_of_some (by decide)⟩
  have hstay : Sayable "Stay -> pay" := sayable (by decide) (by decide) (by decide) (by decide) (by decide)
  have hleave : Sayable "Leave" := sayable (by decide) (by decide) (by decide) (by decide) (by decide)
  refine ⟨hhost, ⟨hstay, by decide, forall_of_some (by decide)⟩, fun hnobody => absurd hnobody (by decide),
    ⟨hleave, by decide, fun guard hguard => nomatch hguard⟩, fun _ => by decide, trivial⟩

theorem node_printable : node.Printable where
  title := by decide
  headers := List.forall_mem_singleton.mpr ⟨by decide, by decide, by decide, by decide⟩
  lines := by
    have hmusic : music.Printable := ⟨by decide, by decide, by decide⟩
    have hjump : (Line.jump "Inn" () : Line Unit).Printable := by
      show isTitle "Inn".toList = true
      decide
    exact List.forall_mem_cons.mpr ⟨greeting_printable, List.forall_mem_cons.mpr ⟨hmusic,
      List.forall_mem_cons.mpr ⟨menu_printable, List.forall_mem_singleton.mpr hjump⟩⟩⟩
  apart := by
    rintro ⟨before, menu, menu', after, h⟩
    match before with
    | [] => nomatch h
    | [_] => nomatch h
    | [_, _] => nomatch h
    | [_, _, _] => nomatch h
    | _ :: _ :: _ :: _ :: rest =>
      have hlength := congrArg List.length h
      simp [node] at hlength

end Inn

/-- The script of the inn is read back. -/
theorem read_print_inn : Script.read (print [Inn.node]) = .ok (asRead 1 [Inn.node]) :=
  read_print (List.cons_ne_nil _ _) (List.forall_mem_singleton.mpr Inn.node_printable)

end Parley

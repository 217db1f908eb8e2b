import Parley.Archive.Loading
import Parley.Proofs.Dialog.Resolution
import Parley.Proofs.Document.Completed
import Parley.Proofs.Document.ReadBack
import Parley.Proofs.Json.Proper
import Parley.Proofs.Script.Names

/-! Compiled dialogs.

A dialog is written in the shape that documents have, and its document is read again. What is read is the same
dialog exactly if no key of its headers has a lone half, which is so for every dialog of a script
(`document_round_trip`). -/
namespace Parley

open Document

variable {ι κ : Type}

namespace Dialog

/-- Whether no key of the headers of a dialog has a lone half. -/
def WholeHeaders (dialog : Dialog) : Prop := ∀ node ∈ dialog.nodes, WholeKeys node.headers

/-- What becomes of a dialog that is written as a document. -/
structure Stored (dialog : Dialog) : Prop where
  shape : dialogShape (ofDialog dialog) = true
  /-- The document is read. What it is read as is the dialog, but for lone halves, and has the same document. -/
  again : ∃ other, ofDocument (ofDialog dialog) = .ok other ∧ other.id = dialog.id ∧
    other.nodes = dialog.nodes.map Node.cleaned ∧ (other = dialog ↔ dialog.WholeHeaders) ∧
      ofDialog other = ofDialog dialog
  /-- If the text of the document is read as the document, a file with it gives what the document gives. -/
  file : ∀ (archive : Archive) (path : Path), archive.script path = .ok (ofDialog dialog).write →
    Json.readTo Archive.deepest (ofDialog dialog).write = .ok (ofDialog dialog) →
      archive.loadDocument path = (ofDocument (ofDialog dialog)).mapError .load

/-! ### Indices and headers -/

theorem positioned_cleaned (g : String → ι → κ) (nodes : List (Node ι)) :
    positioned (nodes.map fun node => (node.reindex g).cleaned) = (positioned nodes).map Node.cleaned := by
  have htitles : (nodes.map fun node => (node.reindex g).cleaned).map Node.title = nodes.map Node.title := by
    rw [List.map_map]
    rfl
  rw [positioned, positioned, htitles, List.map_map, List.map_map]
  refine List.map_congr_left fun node _ => ?_
  exact congrArg Node.cleaned (reindex_reindex _ g node)

theorem cleaned_nodes_iff {nodes : List (Node ι)} :
    nodes.map Node.cleaned = nodes ↔ ∀ node ∈ nodes, WholeKeys node.headers := by
  have hnode : ∀ node : Node ι, node.cleaned = node ↔ WholeKeys node.headers := by
    intro node
    rw [← cleaned_eq_self_iff]
    exact ⟨fun h => congrArg Node.headers h, fun h => by rw [Node.cleaned, h]⟩
  induction nodes with
  | nil => exact ⟨fun _ _ h => (nomatch h), fun _ => rfl⟩
  | cons node rest ih =>
    rw [List.map_cons, List.cons.injEq, List.forall_mem_cons, hnode]
    exact and_congr_right fun _ => ih

/-! ### Writing and reading -/

variable {dialog : Dialog}

theorem targetShape_ofIndex (i : Nat) (_ : anyIndex i) : targetShape (ofIndex i) = true := by
  simp [targetShape, Shape.either, ofIndex, Shape.natural]

theorem targetShape_of_unplaced (i : Option Int) (h : Script.unplaced i) : targetShape (ofIndex? i) = true := by
  cases h
  rfl

theorem shape_of_fits (fits : Fits anyIndex dialog.nodes) : dialogShape (ofDialog dialog) = true :=
  dialogShape_of_fits targetShape_ofIndex fits dialog.id

theorem readNodes?_ofDialog (fits : Fits anyIndex dialog.nodes) : readNodes? (ofDialog dialog) =
    some (dialog.id, dialog.nodes.map fun node => (node.reindex fun _ (i : Nat) => some (i : Int)).cleaned) := by
  have hlist : Json.Lenient.list? readNode? (.arr (dialog.nodes.map (ofNode ofIndex))) = some _ :=
    Json.Lenient.list?_arr_map fun node _ => readNode?_ofNode (fun _ => rfl) node
  rw [readNodes?, if_pos (shape_of_fits fits)]
  simp [ofDialog, Json.Lenient.required, Json.field?_obj, Json.str?, hlist]

/-- The document of a dialog whose nodes fit is read as the dialog, but for lone halves in its headers. -/
theorem ofDocument_ofDialog (fits : Fits anyIndex dialog.nodes) :
    ∃ other, ofDocument (ofDialog dialog) = .ok other ∧ other.id = dialog.id ∧
      other.nodes = dialog.nodes.map Node.cleaned := by
  let read : List (Node (Option Int)) :=
    dialog.nodes.map fun node => (node.reindex fun _ (i : Nat) => some (i : Int)).cleaned
  have hpositioned : positioned read = dialog.nodes.map Node.cleaned := by
    rw [positioned_cleaned, positioned_nodes]
  obtain ⟨other, hresolve, hid, hnodes⟩ : ∃ other, resolve dialog.id read = .ok other ∧ other.id = dialog.id ∧
      other.nodes = positioned read := by
    have htitles : read.map Node.title = dialog.nodes.map Node.title := by
      rw [List.map_map]
      rfl
    refine resolve_of_known dialog.id (htitles ▸ dialog.distinct) ?_
    rw [htitles]
    refine List.forall_mem_map.mpr fun node hnode r hr => ?_
    have hreferences : r ∈ (node.reindex fun _ (i : Nat) => some (i : Int)).references := hr
    rw [Node.references_reindex] at hreferences
    obtain ⟨s, hs, rfl⟩ := List.mem_map.mp hreferences
    exact known_nodes dialog node hnode s hs
  refine ⟨other, ?_, hid, hnodes.trans hpositioned⟩
  rw [ofDocument, Document.read, readNodes?_ofDialog fits]
  exact mapError_eq_ok_iff.mpr (mapError_eq_ok_iff.mpr hresolve)

theorem ofDialog_cleaned {other : Dialog} (hid : other.id = dialog.id)
    (hnodes : other.nodes = dialog.nodes.map Node.cleaned) : ofDialog other = ofDialog dialog := by
  have hnode : ∀ node : Node Nat, ofNode ofIndex node.cleaned = ofNode ofIndex node := by
    intro node
    rw [ofNode, ofNode, ofHeaders_eq, ofHeaders_eq]
    show Json.obj [_, _, ("headers", verbatim (cleaned (cleaned node.headers))), _] = _
    rw [cleaned_cleaned]
    rfl
  rw [ofDialog, ofDialog, hid, hnodes, List.map_map]
  simp only [Function.comp_def, hnode]

theorem stored_of_fits (fits : Fits anyIndex dialog.nodes) : dialog.Stored := by
  obtain ⟨other, hread, hid, hnodes⟩ := ofDocument_ofDialog fits
  refine ⟨shape_of_fits fits, ⟨other, hread, hid, hnodes, ?_, ofDialog_cleaned hid hnodes⟩, ?_⟩
  · rw [WholeHeaders, ← cleaned_nodes_iff, ← hnodes]
    exact ⟨fun heq => congrArg nodes heq, fun heq => ext_of_nodes hid heq⟩
  · intro archive path hscript hjson
    simp only [Archive.loadDocument, hscript, bind, Except.bind, hjson]

/-! ### Dialogs that are loaded -/

theorem fits_positioned {allowed : ι → Prop} {nodes : List (Node ι)} (fits : Fits allowed nodes)
    (hnodes : dialog.nodes = positioned nodes) : Fits anyIndex dialog.nodes := by
  rw [hnodes]
  exact ⟨by simpa [positioned] using fits.nodes_ne,
    List.forall_mem_map.mpr fun node hnode => (fits.node node hnode).reindex fun _ _ _ => trivial⟩

theorem wholeHeaders_positioned {nodes : List (Node ι)} (hnodes : dialog.nodes = positioned nodes) :
    dialog.WholeHeaders ↔ ∀ node ∈ nodes, WholeKeys node.headers := by
  rw [WholeHeaders, hnodes]
  exact List.forall_mem_map

theorem stored_of_ofScript {id text : String} (h : ofScript id text = .ok dialog) :
    dialog.Stored ∧ ofDocument (ofDialog dialog) = .ok dialog := by
  obtain ⟨nodes, hread, hresolve⟩ := bind_eq_ok_iff.mp h
  obtain ⟨fits, whole⟩ := Script.fits_of_read (mapError_eq_ok_iff.mp hread)
  obtain ⟨-, -, -, hnodes⟩ := resolve_eq_ok_iff.mp (mapError_eq_ok_iff.mp hresolve)
  have stored : dialog.Stored := stored_of_fits (fits_positioned fits hnodes)
  obtain ⟨other, hother, -, -, hsame, -⟩ := stored.again
  exact ⟨stored, hsame.mpr ((wholeHeaders_positioned hnodes).mpr whole) ▸ hother⟩

theorem stored_of_ofDocument {value : Json} (h : ofDocument value = .ok dialog) :
    dialog.Stored ∧ (value.Proper → (Json.Same (ofDialog dialog) (completed value) ↔ dialog.WholeHeaders)) := by
  have hread := mapError_eq_ok_iff.mp h
  unfold Document.read at hread
  split at hread
  · cases hread
  · rename_i id nodes hsome
    have read := documentRead_of_readNodes? hsome
    obtain ⟨-, -, hid, hnodes⟩ := resolve_eq_ok_iff.mp (mapError_eq_ok_iff.mp hread)
    refine ⟨stored_of_fits (fits_positioned read.fits hnodes), fun proper => ?_⟩
    rw [wholeHeaders_positioned hnodes]
    exact read.same_iff proper hid hnodes

end Dialog

/-! ### A lodge -/

namespace Lodge

def script : String := "title: Lodge\ntags: warm\n---\n<<jump Lodge>>\n===\n"

/-- A document of one node, which leaves out what may be left out but for some headers. -/
def document (headers : List (String × Json)) : Json :=
  .obj [("id", .str "lodge"), ("nodes", .arr [.obj [("title", .str "Lodge"), ("headers", .obj headers),
    ("lines", .arr [.obj [("kind", .str "jump"), ("node_title", .str "Lodge")]])]])]

/-- The dialog of the document. -/
def dialog (headers : Table String) : Dialog where
  id := "lodge"
  nodes := [⟨"Lodge", [.jump "Lodge" 0], headers, 0, List.cons_ne_nil _ _⟩]
  distinct := by simp
  resolved := by simp [Node.references, Line.references]

theorem proper_document {headers : List (String × Json)} (h : (Json.obj headers).Proper) :
    (document headers).Proper := by
  have hline : (Json.obj [("kind", .str "jump"), ("node_title", .str "Lodge")]).Proper :=
    .obj (by decide) (List.forall_mem_cons.mpr ⟨.str _, List.forall_mem_singleton.mpr (.str _)⟩)
  have hnode : (Json.obj [("title", .str "Lodge"), ("headers", .obj headers), ("lines", .arr [_])]).Proper :=
    .obj (by simp) (List.forall_mem_cons.mpr ⟨.str _, List.forall_mem_cons.mpr ⟨h,
      List.forall_mem_singleton.mpr (.arr (List.forall_mem_singleton.mpr hline))⟩⟩)
  exact .obj (by simp) (List.forall_mem_cons.mpr ⟨.str _,
    List.forall_mem_singleton.mpr (.arr (List.forall_mem_singleton.mpr hnode))⟩)

/-- A lone half. -/
def half (code : Nat) : String := String.ofList (Text.spell code)

/-- Two headers whose keys are lone halves. -/
def halves : Table String := .ofList [(half 0xD800, "1"), (half 0xDFFF, "2")]

end Lodge

/-- **Compiled dialogs are read back.** All that a script can be read as is written in the shape of documents. The
dialog of a script, written as a document, is read as the same dialog. The dialog of any document is written as
that document completed, and is read as the same dialog again, exactly if no key of its headers has a lone half; and
in any case writing what is read gives the same document again. The dialog of a file is that of a document in which
every key of an object stands once. -/
theorem document_round_trip (id text : String) (value : Json) :
    (∀ nodes, Script.read text = .ok nodes →
      dialogShape (.obj [("id", .str id), ("nodes", .arr (nodes.map (ofNode ofIndex?)))]) = true) ∧
    (∀ dialog, Dialog.ofScript id text = .ok dialog →
      dialog.Stored ∧ Dialog.ofDocument (ofDialog dialog) = .ok dialog) ∧
    (∀ dialog, Dialog.ofDocument value = .ok dialog →
      dialog.Stored ∧ (value.Proper → (Json.Same (ofDialog dialog) (completed value) ↔ dialog.WholeHeaders))) ∧
    ∀ (archive : Archive) path dialog, archive.loadDocument path = .ok dialog →
      ∃ value, value.Proper ∧ Dialog.ofDocument value = .ok dialog := by
  refine ⟨fun nodes h => ?_, fun dialog h => Dialog.stored_of_ofScript h,
    fun dialog h => Dialog.stored_of_ofDocument h, fun archive path dialog h => ?_⟩
  · exact dialogShape_of_fits Dialog.targetShape_of_unplaced (Script.fits_of_read h).1 id
  · obtain ⟨text, _, hvalue⟩ := bind_eq_ok_iff.mp h
    split at hvalue
    · cases hvalue
    · cases hvalue
    · rename_i value hread
      exact ⟨value, Json.proper_of_readTo hread, mapError_eq_ok_iff.mp hvalue⟩

/-- A script of the lodge, and a document of it whose headers have a word as their key. -/
theorem document_round_trip_lodge :
    (∃ dialog, Dialog.ofScript "lodge" Lodge.script = .ok dialog ∧
      Dialog.ofDocument (ofDialog dialog) = .ok dialog) ∧
    ∃ dialog, Dialog.ofDocument (Lodge.document [("tags", .str "warm")]) = .ok dialog ∧ dialog.Stored ∧
      Json.Same (ofDialog dialog) (completed (Lodge.document [("tags", .str "warm")])) := by
  have hscript : ∃ dialog, Dialog.ofScript "lodge" Lodge.script = .ok dialog :=
    toBool_iff.mp (by decide +kernel)
  have hread : Dialog.ofDocument (Lodge.document [("tags", .str "warm")]) =
      .ok (Lodge.dialog (.ofList [("tags", "warm")])) := rfl
  have hwhole : (Lodge.dialog (.ofList [("tags", "warm")])).WholeHeaders := by
    refine List.forall_mem_singleton.mpr (List.forall_mem_singleton.mpr ?_)
    exact Text.isWhole_of_isWord (by decide +kernel : "tags".toList.all Text.isWord = true)
  obtain ⟨-, ofScript, ofDocument, -⟩ :=
    document_round_trip "lodge" Lodge.script (Lodge.document [("tags", .str "warm")])
  obtain ⟨dialog, hdialog⟩ := hscript
  obtain ⟨stored, hsame⟩ := ofDocument _ hread
  refine ⟨⟨dialog, hdialog, (ofScript dialog hdialog).2⟩, _, hread, stored, (hsame ?_).mpr hwhole⟩
  exact Lodge.proper_document (.obj (by decide) (List.forall_mem_singleton.mpr (.str _)))

/-- Two headers whose keys are lone halves come back as one. -/
theorem not_round_trip_of_halves :
    let document := Lodge.document [(Lodge.half 0xD800, .str "1"), (Lodge.half 0xDFFF, .str "2")]
    let other := Lodge.dialog (.ofList [("\uFFFD\uFFFD\uFFFD", "2")])
    document.Proper ∧ Dialog.ofDocument document = .ok (Lodge.dialog Lodge.halves) ∧
      Dialog.ofDocument (ofDialog (Lodge.dialog Lodge.halves)) = .ok other ∧ other ≠ Lodge.dialog Lodge.halves ∧
        ¬Json.Same (ofDialog (Lodge.dialog Lodge.halves)) (completed document) := by
  intro document other
  have hread : Dialog.ofDocument document = .ok (Lodge.dialog Lodge.halves) := rfl
  have hagain : Dialog.ofDocument (ofDialog (Lodge.dialog Lodge.halves)) = .ok other := rfl
  have hproper : document.Proper := by
    refine Lodge.proper_document (.obj (by decide) ?_)
    exact List.forall_mem_cons.mpr ⟨.str _, List.forall_mem_singleton.mpr (.str _)⟩
  have hother : other ≠ Lodge.dialog Lodge.halves := fun heq => by
    have hsizes := congrArg (fun dialog => dialog.nodes.map (·.headers.size)) heq
    revert hsizes
    decide
  obtain ⟨stored, hsame⟩ := Dialog.stored_of_ofDocument hread
  obtain ⟨found, hfound, -, -, hsound, -⟩ := stored.again
  cases hagain.symm.trans hfound
  exact ⟨hproper, hread, hagain, hother, fun same => hother (hsound.mpr ((hsame hproper).mp same))⟩

end Parley

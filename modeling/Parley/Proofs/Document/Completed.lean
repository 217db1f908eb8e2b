import Parley.Proofs.Document.Parts
import Parley.Proofs.Json.Same

/-! Documents completed.

A document may leave out fields that have a default, write integers as integral numbers, and give any target
indices. Completed, it has every field, its integers are integers, and each target index is the position of the
title that it goes with. What is read from a document is written as the document completed, but for the order of
fields and for lone halves in the keys of headers (`DocumentRead.same_iff`). -/
namespace Parley.Document

open Json Json.Lenient Shape

/-- The titles of the nodes of a document. -/
def titlesOf (value : Json) : List String :=
  ((value.field? "nodes").bind arr?).elim [] (·.filterMap fun item => (item.field? "title").bind str?)

section Completed

variable (titles : List String)

/-- The position of the title that a field gives. -/
def place (key : String) (value : Json) : Json :=
  ((value.field? key).bind str?).elim .null fun title => ofIndex (titles.idxOf title)

def completedChoice (value : Json) : Json :=
  (value.filled [("target_index", .null), ("condition", .null)]).change "target_index"
    fun _ => place titles "jump_to_node_title" value

/-- The fields that a line of a kind may leave out. -/
def lineDefaults : String → List (String × Json)
  | "command" => [("args", .arr [])]
  | "dialog" => [("speaker", .str ""), ("tags", .arr [])]
  | "jump" => [("target_index", .null)]
  | "option" => [("speaker", .str "")]
  | _ => []

def completedLine (value : Json) : Json :=
  let kind := ((value.field? "kind").bind str?).getD ""
  ((value.filled (lineDefaults kind)).change "target_index" fun _ => place titles "node_title" value).change
    "possibilities" (each (completedChoice titles))

def completedNode (value : Json) : Json :=
  ((value.filled [("headers", .obj []), ("line_number", .int 0)]).change "line_number" integral).change
    "lines" (each (completedLine titles))

end Completed

/-- A document with every field that it may leave out, with integers for integral numbers, and with the positions
of titles for target indices. -/
def completed (value : Json) : Json := value.change "nodes" (each (completedNode (titlesOf value)))

variable {value : Json}

/-! ### Fields that may be left out -/

/-- A field that is read, or is absent and filled in, is written as it is then. -/
theorem same_optional {α : Type} {key : String} {absent x : α} {read : Json → Option α} (write : α → Json)
    {default : Json} (f : Json → Json) (h : Json.Lenient.optional key absent read value = some x)
    (habsent : Same (write absent) (f default))
    (hfound : ∀ found, value.field? key = some found → read found = some x → Same (write x) (f found)) :
    Same (write x) (f ((value.field? key).getD default)) := by
  unfold Json.Lenient.optional at h
  split at h
  · rename_i hnone
    cases h
    rw [hnone]
    exact habsent
  · rename_i found hsome
    rw [hsome]
    exact hfound found hsome h

theorem same_speaker {speaker : String} (h : Json.Lenient.optional "speaker" "" str? value = some speaker) :
    Same (.str speaker) ((value.field? "speaker").getD (.str "")) :=
  same_optional .str id h (.refl _) fun _ _ hread => str?_eq_some_iff.mp hread ▸ .refl _

/-- A truth value of the right shape is written as it stands. -/
theorem field?_of_bool {key : String} {flag : Bool} (h : required key Lenient.bool? value = some flag)
    (shape : ∀ found, value.field? key = some found → Shape.bool found = true) :
    value.field? key = some (.bool flag) := by
  obtain ⟨found, hfound, hread⟩ := required_eq_some_iff.mp h
  have hshape := shape found hfound
  cases found with
  | bool _ =>
    cases hread
    exact hfound
  | _ => cases hshape

/-! ### Guards, tags and choices -/

theorem GuardRead.same {guard : Guard} (read : GuardRead value guard) (shape : guardShape value = true) :
    Same (ofGuard guard) value := by
  have hvalue : value.field? "value" = some (.bool guard.value) :=
    field?_of_bool read.value fun found hfound => by simpa using part_of_field? shape hfound
  refine Keyed.same ⟨_, rfl, by simp⟩ read.keyed ?_
  simp [ofGuard, Json.field?_obj, read.variableName, read.kind, hvalue, Same.refl]

theorem TagRead.same {tag : Tag} (read : TagRead value tag) : Same (ofTag tag) value := by
  refine Keyed.same ⟨_, rfl, by simp⟩ read.keyed ?_
  simp [ofTag, Json.field?_obj, read.name, read.value, Same.refl]

variable {titles : List String}

theorem place_eq {key title : String} (h : value.field? key = some (.str title)) :
    place titles key value = ofIndex (titles.idxOf title) := by
  rw [place, h]
  rfl

theorem ChoiceRead.same_condition {choice : Choice (Option Int)} (read : ChoiceRead value choice)
    (shape : choiceShape value = true) :
    Same (choice.guard.elim .null ofGuard) ((value.field? "condition").getD .null) := by
  refine same_optional (fun guard : Option Guard => guard.elim .null ofGuard) id read.condition (.refl _) ?_
  intro found hfound hread
  cases hguard : choice.guard with
  | some guard =>
    obtain ⟨other, hother, hshape, hguardRead⟩ := read.guard shape hguard
    cases hfound.symm.trans hother
    exact hguardRead.same hshape
  | none =>
    rw [hguard, nullable] at hread
    split at hread
    · rename_i hnull
      cases found with
      | null => exact .refl _
      | _ => cases hnull
    · obtain ⟨_, _, hsome⟩ := Option.map_eq_some_iff.mp hread
      cases hsome

/-- The index of a choice is that of its title. -/
theorem ChoiceRead.same {choice : Choice (Option Int)} (read : ChoiceRead value choice)
    (shape : choiceShape value = true) :
    Same (ofChoice ofIndex (choice.reindex fun title _ => titles.idxOf title)) (completedChoice titles value) := by
  refine Keyed.same ⟨_, rfl, by simp⟩ ((read.keyed.filled (by simp)).change) ?_
  simp [ofChoice, Choice.reindex, completedChoice, field?_change, read.keyed.field?_filled, field?_obj, read.text,
    read.target, place_eq read.target, read.same_condition shape, Same.refl]

/-! ### Lines -/

/-- What is read from an array is written as the array completed. -/
theorem same_list {α : Type} {read : Json → Option α} {write : α → Json} {complete : Json → Json} {found : Json}
    {reads : List α} (h : list? read found = some reads)
    (hsame : ∀ items, found = .arr items → ∀ item ∈ items, ∀ x, read item = some x →
      Same (write x) (complete item)) : Same (.arr (reads.map write)) (each complete found) := by
  obtain ⟨items, rfl, hitems⟩ := list?_eq_some_iff.mp h
  exact same_arr hitems (hsame items rfl)

/-- What is read from an array is written as the array, if each item is. -/
theorem same_list_self {α : Type} {read : Json → Option α} {write : α → Json} {found : Json} {reads : List α}
    (h : list? read found = some reads) (hsame : ∀ item x, read item = some x → Same (write x) item) :
    Same (.arr (reads.map write)) found := by
  obtain ⟨items, rfl, hitems⟩ := list?_eq_some_iff.mp h
  have hitself : Same (.arr (reads.map write)) (.arr (items.map id)) :=
    same_arr hitems fun item _ x hread => hsame item x hread
  rwa [List.map_id] at hitself

theorem shape_of_mem {item : Shape} {items : List Json} {found : Json} (shape : row item (.arr items) = true)
    (h : found ∈ items) : item found = true :=
  List.all_eq_true.mp (Bool.and_eq_true_iff.mp shape).2 found h

theorem keyed_completedLine {keys : List String} {kind : String} (hkind : value.field? "kind" = some (.str kind))
    (keyed : value.Keyed keys) (h : ∀ field ∈ lineDefaults kind, field.1 ∈ keys) :
    (completedLine titles value).Keyed keys := by
  rw [completedLine, hkind]
  exact (keyed.filled h).change.change

/-- Which field of a completed line is what. -/
theorem field?_completedLine {keys : List String} {kind : String} (hkind : value.field? "kind" = some (.str kind))
    (keyed : value.Keyed keys) (key : String) :
    (completedLine titles value).field? key =
      let found := (value.field? key).or ((obj (lineDefaults kind)).field? key)
      if key = "possibilities" then found.map (each (completedChoice titles))
      else if key = "target_index" then found.map fun _ => place titles "node_title" value
      else found := by
  rw [completedLine, hkind, field?_change, field?_change]
  simp only [Option.bind_some, str?, Option.getD_some, keyed.field?_filled]
  split
  · rename_i hkey
    rw [hkey, if_neg (by decide)]
  · rfl

theorem LineRead.same {line : Line (Option Int)} (read : LineRead value line) (shape : lineShape value = true) :
    Same (ofLine ofIndex (line.reindex fun title _ => titles.idxOf title)) (completedLine titles value) := by
  cases read with
  | assign kind keyed hname hvalue =>
    have hflag := field?_of_bool hvalue fun found hfound => by
      simpa [lineParts, lineRecords] using part_of_line shape (by decide) hfound
    refine Keyed.same ⟨_, rfl, by simp⟩ (keyed_completedLine kind keyed (by simp [lineDefaults])) ?_
    simp [ofLine, Line.reindex, field?_completedLine kind keyed, field?_obj, kind, hname, hflag, Same.refl]
  | @command name arguments kind keyed hname hargs =>
    have hsame : Same (.arr (arguments.map .str)) ((value.field? "args").getD (.arr [])) := by
      refine same_optional (fun arguments => .arr (arguments.map .str)) id hargs (.refl _) fun found _ hread => ?_
      exact same_list_self hread fun item s hs => str?_eq_some_iff.mp hs ▸ .refl _
    refine Keyed.same ⟨_, rfl, by simp⟩ (keyed_completedLine kind keyed (by simp [lineDefaults])) ?_
    simp [ofLine, Line.reindex, field?_completedLine kind keyed, field?_obj, kind, hname, lineDefaults, hsame,
      Same.refl]
  | @say speaker text tags kind keyed hspeaker htext htags =>
    have hsame : Same (.arr (tags.map ofTag)) ((value.field? "tags").getD (.arr [])) := by
      refine same_optional (fun tags => .arr (tags.map ofTag)) id htags (.refl _) fun found _ hread => ?_
      exact same_list_self hread fun item tag htag => (tagRead_of_readTag? htag).same
    refine Keyed.same ⟨_, rfl, by simp⟩ (keyed_completedLine kind keyed (by simp [lineDefaults])) ?_
    simp [ofLine, Line.reindex, field?_completedLine kind keyed, field?_obj, kind, htext, lineDefaults, hsame,
      same_speaker hspeaker, Same.refl]
  | jump kind keyed htarget =>
    refine Keyed.same ⟨_, rfl, by simp⟩ (keyed_completedLine kind keyed (by simp [lineDefaults])) ?_
    simp [ofLine, Line.reindex, field?_completedLine kind keyed, field?_obj, kind, htarget, lineDefaults,
      place_eq htarget, Same.refl]
  | @offer menu kind keyed hspeaker hchoices =>
    obtain ⟨found, hfound, hlist⟩ := required_eq_some_iff.mp hchoices
    have hrow : row choiceShape found = true := by
      simpa [lineParts, lineRecords] using part_of_line shape (by decide) hfound
    let place (title : String) (_ : Option Int) : Nat := titles.idxOf title
    have hsame : Same (.arr (menu.choices.map (ofChoice ofIndex ∘ Choice.reindex place)))
        (each (completedChoice titles) found) := by
      refine same_list hlist fun items hitems item hmem choice hread => ?_
      exact (choiceRead_of_readChoice? hread).same (shape_of_mem (hitems ▸ hrow) hmem)
    refine Keyed.same ⟨_, rfl, by simp⟩ (keyed_completedLine kind keyed (by simp [lineDefaults])) ?_
    simpa [ofLine, Line.reindex, field?_completedLine kind keyed, field?_obj, kind, hfound, lineDefaults,
      same_speaker hspeaker, Menu.reindex, Same.refl] using hsame

/-! ### Nodes -/

theorem verbatim_of_table? {found : Json} {headers : Table String} (h : table? str? found = some headers)
    (proper : found.Proper) : found = verbatim headers := by
  obtain ⟨fields, hfields, h⟩ := Option.bind_eq_some_iff.mp h
  obtain ⟨entries, hentries, rfl⟩ := Option.map_eq_some_iff.mp h
  cases found with
  | obj _ =>
    cases hfields
    have hfields : fields = entries.map fun entry => (entry.1, Json.str entry.2) := by
      refine eq_map_of_reads (mapM_eq_some_iff.mp hentries) fun field entry hfield => ?_
      obtain ⟨s, hs, rfl⟩ := Option.map_eq_some_iff.mp hfield
      rw [← str?_eq_some_iff.mp hs]
    have hnames : (entries.map Prod.fst).Nodup := by
      have hdistinct := proper.distinct
      rwa [hfields, List.map_map] at hdistinct
    rw [verbatim, Table.entries_ofList hnames, hfields]
  | _ => cases hfields

theorem verbatim_of_headers {headers : Table String}
    (h : Json.Lenient.optional "headers" .empty (table? str?) value = some headers) (proper : value.Proper) :
    (value.field? "headers").getD (.obj []) = verbatim headers := by
  unfold Json.Lenient.optional at h
  split at h
  · rename_i hnone
    cases h
    rw [hnone]
    rfl
  · rename_i found hsome
    rw [hsome]
    exact verbatim_of_table? h (proper.field hsome)

/-- Headers are written as they stand exactly if none of their keys has a lone half. -/
theorem same_verbatim_iff {headers : Table String} :
    Same (ofHeaders headers) (verbatim headers) ↔ WholeKeys headers := by
  rw [ofHeaders_eq]
  constructor
  · intro same key hkey
    obtain ⟨entry, hentry, rfl⟩ := List.mem_map.mp hkey
    have hkept : ((verbatim headers).field? entry.1).isSome = true :=
      isSome_field? (List.mem_map.mpr ⟨entry, hentry, rfl⟩ : (entry.1, Json.str entry.2) ∈ _)
    have hrel := same.field entry.1
    cases hfound : (verbatim (cleaned headers)).field? entry.1 with
    | none =>
      rw [hfound] at hrel
      generalize (verbatim headers).field? entry.1 = kept at hrel hkept
      cases hrel
      cases hkept
    | some found =>
      obtain ⟨other, hother, heq⟩ := List.mem_map.mp (mem_of_field? hfound)
      have hname : other.1 = entry.1 := (Prod.mk.inj heq).1
      exact hname ▸ wholeKeys_cleaned headers other.1 (List.mem_map_of_mem hother)
  · intro whole
    rw [cleaned_eq_self_iff.mpr whole]
    exact .refl _

theorem NodeRead.same_lineNumber {node : Node (Option Int)} (read : NodeRead value node)
    (shape : nodeShape value = true) :
    Same (.int node.lineNumber) (integral ((value.field? "line_number").getD (.int 0))) := by
  refine same_optional .int integral read.lineNumber (.refl _) fun found hfound hread => ?_
  have hnatural : natural found = true := by simpa using part_of_field? shape hfound
  obtain ⟨-, rfl | ⟨x, rfl, hx⟩⟩ := int?_of_natural hnatural hread
  · exact .refl _
  · rw [integral, hx]
    exact .refl _

theorem NodeRead.same_lines {node : Node (Option Int)} (read : NodeRead value node)
    (shape : nodeShape value = true) :
    ∃ found, value.field? "lines" = some found ∧
      Same (.arr ((node.lines.map (Line.reindex fun title _ => titles.idxOf title)).map (ofLine ofIndex)))
        (each (completedLine titles) found) := by
  obtain ⟨found, hfound, hlist⟩ := required_eq_some_iff.mp read.lines
  have hrow : row lineShape found = true := by simpa using part_of_field? shape hfound
  refine ⟨found, hfound, ?_⟩
  rw [List.map_map]
  refine same_list hlist fun items hitems item hmem line hread => ?_
  exact (lineRead_of_readLine? hread).same (shape_of_mem (hitems ▸ hrow) hmem)

/-- The document of a node, with its headers as they stand. -/
def transcribedNode (node : Node Nat) : Json :=
  .obj [("title", .str node.title), ("lines", .arr (node.lines.map (ofLine ofIndex))),
    ("headers", verbatim node.headers), ("line_number", .int node.lineNumber)]

theorem ofNode_of_wholeKeys {node : Node Nat} (whole : WholeKeys node.headers) :
    ofNode ofIndex node = transcribedNode node := by
  rw [ofNode, ofHeaders_eq, cleaned_eq_self_iff.mpr whole, transcribedNode]

/-- A node is read from a document with every field as it is there, or as its default. -/
theorem NodeRead.same {node : Node (Option Int)} (read : NodeRead value node) (shape : nodeShape value = true)
    (proper : value.Proper) :
    Same (transcribedNode (node.reindex fun title _ => titles.idxOf title)) (completedNode titles value) := by
  have hheaders := verbatim_of_headers read.headers proper
  obtain ⟨found, hfound, hlines⟩ := @NodeRead.same_lines value titles node read shape
  refine Keyed.same ⟨_, rfl, by simp⟩ ((read.keyed.filled (by simp)).change.change) ?_
  simpa [transcribedNode, Node.reindex, completedNode, field?_change, read.keyed.field?_filled, field?_obj, read.title,
    hfound, hheaders, read.same_lineNumber shape, Same.refl] using hlines

/-- What is read as a node is written as the node completed exactly if no key of its headers has a lone half. -/
theorem NodeRead.same_iff {node : Node (Option Int)} (read : NodeRead value node) (shape : nodeShape value = true)
    (proper : value.Proper) :
    Same (ofNode ofIndex (node.reindex fun title _ => titles.idxOf title)) (completedNode titles value) ↔
      WholeKeys node.headers := by
  constructor
  · intro same
    have hsame : Same (ofHeaders node.headers) ((value.field? "headers").getD (.obj [])) := by
      simpa [ofNode, Node.reindex, completedNode, field?_change, read.keyed.field?_filled, field?_obj]
        using same.field "headers"
    rw [verbatim_of_headers read.headers proper] at hsame
    exact same_verbatim_iff.mp hsame
  · intro whole
    have hwhole : WholeKeys (node.reindex fun title _ => titles.idxOf title).headers := whole
    rw [ofNode_of_wholeKeys hwhole]
    exact read.same shape proper

/-! ### Documents -/

variable {id : String} {nodes : List (Node (Option Int))}

theorem filterMap_title {items : List Json} (h : items.map readNode? = nodes.map some) :
    items.filterMap (fun item => (item.field? "title").bind str?) = nodes.map Node.title := by
  induction items generalizing nodes with
  | nil =>
    rw [List.map_eq_nil_iff.mp h.symm]
    rfl
  | cons item rest ih =>
    cases nodes with
    | nil => cases h
    | cons node nodes =>
      obtain ⟨hnode, hrest⟩ := List.cons.inj h
      have htitle : (item.field? "title").bind str? = some node.title :=
        required_str?_iff.mpr (nodeRead_of_readNode? hnode).title
      simp only [List.filterMap_cons, htitle, ih hrest, List.map_cons]

theorem titlesOf_eq (read : DocumentRead value id nodes) : titlesOf value = nodes.map Node.title := by
  obtain ⟨found, hfound, hlist⟩ := required_eq_some_iff.mp read.nodes
  obtain ⟨items, rfl, hitems⟩ := list?_eq_some_iff.mp hlist
  rw [titlesOf, hfound]
  exact filterMap_title hitems

/-- The document of a dialog, with all headers as they stand. -/
def transcript (dialog : Dialog) : Json :=
  .obj [("id", .str dialog.id), ("nodes", .arr (dialog.nodes.map transcribedNode))]

/-- A document is written as it is completed if its nodes are. -/
theorem DocumentRead.same_of_nodes {items written : List Json} (read : DocumentRead value id nodes)
    (hfound : value.field? "nodes" = some (.arr items))
    (same : Same (.arr written) (.arr (items.map (completedNode (titlesOf value))))) :
    Same (.obj [("id", .str id), ("nodes", .arr written)]) (completed value) := by
  refine Keyed.same ⟨_, rfl, by simp⟩ (keyed_of_record read.shape).change ?_
  simp [completed, field?_change, field?_obj, read.id, hfound, each, same, Same.refl]

/-- The items of a document and the nodes that they are read as. -/
theorem DocumentRead.exists_items (read : DocumentRead value id nodes) :
    ∃ items, value.field? "nodes" = some (.arr items) ∧ items.map readNode? = nodes.map some ∧
      ∀ item ∈ items, nodeShape item = true := by
  obtain ⟨found, hfound, hlist⟩ := required_eq_some_iff.mp read.nodes
  obtain ⟨items, rfl, hitems⟩ := list?_eq_some_iff.mp hlist
  have hrow : row nodeShape (.arr items) = true := by simpa using part_of_field? read.shape hfound
  exact ⟨items, hfound, hitems, fun item => shape_of_mem hrow⟩

/-- What is read from a document says what the document completed says. -/
theorem DocumentRead.same {dialog : Dialog} (read : DocumentRead value id nodes) (proper : value.Proper)
    (hid : dialog.id = id) (hnodes : dialog.nodes = Dialog.positioned nodes) :
    Same (transcript dialog) (completed value) := by
  obtain ⟨items, hfound, hitems, hshape⟩ := read.exists_items
  rw [transcript, hid]
  refine read.same_of_nodes hfound ?_
  rw [hnodes, Dialog.positioned, List.map_map, titlesOf_eq read]
  refine same_arr hitems fun item hmem node hread => ?_
  exact (nodeRead_of_readNode? hread).same (hshape item hmem) ((proper.field hfound).item item hmem)

/-- What is read from a document is written as the document completed exactly if no key of any headers has a lone
half. -/
theorem DocumentRead.same_iff {dialog : Dialog} (read : DocumentRead value id nodes) (proper : value.Proper)
    (hid : dialog.id = id) (hnodes : dialog.nodes = Dialog.positioned nodes) :
    Same (ofDialog dialog) (completed value) ↔ ∀ node ∈ nodes, WholeKeys node.headers := by
  obtain ⟨items, hfound, hitems, hshape⟩ := read.exists_items
  have harr : Same (.arr (dialog.nodes.map (ofNode ofIndex))) (.arr (items.map (completedNode (titlesOf value)))) ↔
      ∀ node ∈ nodes, WholeKeys node.headers := by
    rw [hnodes, Dialog.positioned, List.map_map, titlesOf_eq read]
    refine same_arr_iff hitems fun item hmem node hread => ?_
    exact (nodeRead_of_readNode? hread).same_iff (hshape item hmem) ((proper.field hfound).item item hmem)
  rw [← harr]
  constructor
  · intro same
    simpa [ofDialog, completed, field?_change, field?_obj, hfound, each] using same.field "nodes"
  · intro same
    rw [ofDialog, hid]
    exact read.same_of_nodes hfound same

end Parley.Document

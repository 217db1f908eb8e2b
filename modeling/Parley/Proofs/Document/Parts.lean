import Mathlib.Data.List.Nodup
import Parley.Proofs.Document.Fit

/-! What the parts of a document say when they are read.

For each part there is a predicate that says which field gives what. What is read from a document of the shape of
a dialog fits into one (`DocumentRead.fits`). -/
namespace Parley.Document

open Json.Lenient Shape

structure GuardRead (value : Json) (guard : Guard) : Prop where
  keyed : value.Keyed ["variable_name", "kind", "value"]
  variableName : value.field? "variable_name" = some (.str guard.variableName)
  kind : value.field? "kind" = some (.str guard.comparison.sign)
  value : required "value" bool? value = some guard.value

structure TagRead (value : Json) (tag : Tag) : Prop where
  keyed : value.Keyed ["name", "value"]
  name : value.field? "name" = some (.str tag.name)
  value : value.field? "value" = some (.str tag.value)

structure ChoiceRead (value : Json) (choice : Choice (Option Int)) : Prop where
  keyed : value.Keyed ["text", "jump_to_node_title", "target_index", "condition"]
  text : value.field? "text" = some (.str choice.text)
  target : value.field? "jump_to_node_title" = some (.str choice.target)
  condition : Json.Lenient.optional "condition" none (nullable readGuard?) value = some choice.guard

inductive LineRead (value : Json) : Line (Option Int) → Prop where
  | assign {name : String} {flag : Bool} (kind : value.field? "kind" = some (.str "set"))
      (keyed : value.Keyed ["kind", "variable_name", "value"])
      (hname : value.field? "variable_name" = some (.str name))
      (hvalue : required "value" bool? value = some flag) : LineRead value (.assign name flag)
  | command {name : String} {arguments : List String} (kind : value.field? "kind" = some (.str "command"))
      (keyed : value.Keyed ["kind", "func_name", "args"])
      (hname : value.field? "func_name" = some (.str name))
      (hargs : Json.Lenient.optional "args" [] (list? Json.str?) value = some arguments) :
      LineRead value (.command name arguments)
  | say {speaker text : String} {tags : List Tag} (kind : value.field? "kind" = some (.str "dialog"))
      (keyed : value.Keyed ["kind", "speaker", "text", "tags"])
      (hspeaker : Json.Lenient.optional "speaker" "" Json.str? value = some speaker)
      (htext : value.field? "text" = some (.str text))
      (htags : Json.Lenient.optional "tags" [] (list? readTag?) value = some tags) :
      LineRead value (.say speaker text tags)
  | jump {target : String} {i : Option Int} (kind : value.field? "kind" = some (.str "jump"))
      (keyed : value.Keyed ["kind", "node_title", "target_index"])
      (htarget : value.field? "node_title" = some (.str target)) : LineRead value (.jump target i)
  | offer {menu : Menu (Option Int)} (kind : value.field? "kind" = some (.str "option"))
      (keyed : value.Keyed ["kind", "speaker", "possibilities"])
      (hspeaker : Json.Lenient.optional "speaker" "" Json.str? value = some menu.speaker)
      (hchoices : required "possibilities" (list? readChoice?) value = some menu.choices) :
      LineRead value (.offer menu)

structure NodeRead (value : Json) (node : Node (Option Int)) : Prop where
  keyed : value.Keyed ["title", "lines", "headers", "line_number"]
  title : value.field? "title" = some (.str node.title)
  headers : Json.Lenient.optional "headers" .empty (table? Json.str?) value = some node.headers
  lineNumber : Json.Lenient.optional "line_number" 0 int? value = some node.lineNumber
  lines : required "lines" (list? readLine?) value = some node.lines

structure DocumentRead (value : Json) (id : String) (nodes : List (Node (Option Int))) : Prop where
  shape : dialogShape value = true
  id : value.field? "id" = some (.str id)
  nodes : required "nodes" (list? readNode?) value = some nodes

variable {value : Json}

theorem required_str?_iff {key s : String} :
    required key Json.str? value = some s ↔ value.field? key = some (.str s) := by
  rw [required_eq_some_iff]
  constructor
  · rintro ⟨found, hfound, hread⟩
    rw [hfound, str?_eq_some_iff.mp hread]
  · exact fun h => ⟨_, h, rfl⟩

theorem sign_ofSign? {s : String} {comparison : Comparison} (h : Comparison.ofSign? s = some comparison) :
    s = comparison.sign := by
  unfold Comparison.ofSign? at h
  split at h
  · cases h
    assumption
  · split at h
    · cases h
      assumption
    · cases h

theorem guardRead_of_readGuard? {guard : Guard} (hread : readGuard? value = some guard) :
    GuardRead value guard := by
  obtain ⟨keyed, h⟩ := keyed_of_bind hread
  obtain ⟨name, hname, h⟩ := Option.bind_eq_some_iff.mp h
  obtain ⟨comparison, hkind, h⟩ := Option.bind_eq_some_iff.mp h
  obtain ⟨flag, hvalue, h⟩ := Option.bind_eq_some_iff.mp h
  cases h
  obtain ⟨found, hfound, hsome⟩ := required_eq_some_iff.mp hkind
  obtain ⟨s, hs, hsign⟩ := Option.bind_eq_some_iff.mp hsome
  refine ⟨keyed, required_str?_iff.mp hname, ?_, hvalue⟩
  rw [hfound, str?_eq_some_iff.mp hs, sign_ofSign? hsign]

theorem tagRead_of_readTag? {tag : Tag} (hread : readTag? value = some tag) : TagRead value tag := by
  obtain ⟨keyed, h⟩ := keyed_of_bind hread
  obtain ⟨name, hname, h⟩ := Option.bind_eq_some_iff.mp h
  obtain ⟨note, hnote, h⟩ := Option.bind_eq_some_iff.mp h
  cases h
  exact ⟨keyed, required_str?_iff.mp hname, required_str?_iff.mp hnote⟩

theorem choiceRead_of_readChoice? {choice : Choice (Option Int)} (hread : readChoice? value = some choice) :
    ChoiceRead value choice := by
  obtain ⟨keyed, h⟩ := keyed_of_bind hread
  obtain ⟨text, htext, h⟩ := Option.bind_eq_some_iff.mp h
  obtain ⟨target, htarget, h⟩ := Option.bind_eq_some_iff.mp h
  obtain ⟨i, _, h⟩ := Option.bind_eq_some_iff.mp h
  obtain ⟨guard, hguard, h⟩ := Option.bind_eq_some_iff.mp h
  cases h
  exact ⟨keyed, required_str?_iff.mp htext, required_str?_iff.mp htarget, hguard⟩

theorem lineRead_of_readLine? {line : Line (Option Int)} (hread : readLine? value = some line) :
    LineRead value line := by
  obtain ⟨kind, hkind, h⟩ := Option.bind_eq_some_iff.mp hread
  have hkind := required_str?_iff.mp hkind
  split at h
  · obtain ⟨keyed, h⟩ := keyed_of_bind h
    obtain ⟨name, hname, h⟩ := Option.bind_eq_some_iff.mp h
    obtain ⟨flag, hvalue, h⟩ := Option.bind_eq_some_iff.mp h
    cases h
    exact .assign hkind keyed (required_str?_iff.mp hname) hvalue
  · obtain ⟨keyed, h⟩ := keyed_of_bind h
    obtain ⟨name, hname, h⟩ := Option.bind_eq_some_iff.mp h
    obtain ⟨arguments, hargs, h⟩ := Option.bind_eq_some_iff.mp h
    cases h
    exact .command hkind keyed (required_str?_iff.mp hname) hargs
  · obtain ⟨keyed, h⟩ := keyed_of_bind h
    obtain ⟨speaker, hspeaker, h⟩ := Option.bind_eq_some_iff.mp h
    obtain ⟨text, htext, h⟩ := Option.bind_eq_some_iff.mp h
    obtain ⟨tags, htags, h⟩ := Option.bind_eq_some_iff.mp h
    cases h
    exact .say hkind keyed hspeaker (required_str?_iff.mp htext) htags
  · obtain ⟨keyed, h⟩ := keyed_of_bind h
    obtain ⟨target, htarget, h⟩ := Option.bind_eq_some_iff.mp h
    obtain ⟨i, _, h⟩ := Option.bind_eq_some_iff.mp h
    cases h
    exact .jump hkind keyed (required_str?_iff.mp htarget)
  · obtain ⟨keyed, h⟩ := keyed_of_bind h
    obtain ⟨menu, hmenu, h⟩ := Option.bind_eq_some_iff.mp h
    cases h
    obtain ⟨speaker, hspeaker, h⟩ := Option.bind_eq_some_iff.mp hmenu
    obtain ⟨choices, hchoices, h⟩ := Option.bind_eq_some_iff.mp h
    split at h
    · cases h
    · cases h
      exact .offer hkind keyed hspeaker hchoices
  · cases h

theorem nodeRead_of_readNode? {node : Node (Option Int)} (hread : readNode? value = some node) :
    NodeRead value node := by
  obtain ⟨keyed, h⟩ := keyed_of_bind hread
  obtain ⟨title, htitle, h⟩ := Option.bind_eq_some_iff.mp h
  obtain ⟨headers, hheaders, h⟩ := Option.bind_eq_some_iff.mp h
  obtain ⟨lineNumber, hnumber, h⟩ := Option.bind_eq_some_iff.mp h
  obtain ⟨lines, hlines, h⟩ := Option.bind_eq_some_iff.mp h
  split at h
  · cases h
  · cases h
    exact ⟨keyed, required_str?_iff.mp htitle, hheaders, hnumber, hlines⟩

theorem documentRead_of_readNodes? {id : String} {nodes : List (Node (Option Int))}
    (hread : readNodes? value = some (id, nodes)) : DocumentRead value id nodes := by
  unfold readNodes? at hread
  split at hread
  · rename_i shape
    obtain ⟨name, hname, h⟩ := Option.bind_eq_some_iff.mp hread
    obtain ⟨found, hnodes, h⟩ := Option.bind_eq_some_iff.mp h
    cases h
    exact ⟨shape, required_str?_iff.mp hname, hnodes⟩
  · cases hread

/-! ### The shape of each field -/

/-- Each field of a record is one of its parts, and has its shape. -/
theorem part_of_field? {required optional : List (String × Shape)} {key : String} {found : Json}
    (shape : record required optional value = true) (h : value.field? key = some found) :
    ∃ part ∈ required ++ optional, part.1 = key ∧ part.2 found = true := by
  cases value with
  | obj fields =>
    have hfields := (Bool.and_eq_true_iff.mp shape).2
    have hpart := List.any_eq_true.mp (List.all_eq_true.mp hfields _ (Json.mem_of_field? h))
    simpa only [Bool.and_eq_true, decide_eq_true_eq] using hpart
  | _ => cases h

/-- Each part that a record must have is there. -/
theorem exists_field?_of_record {required optional : List (String × Shape)} {part : String × Shape}
    (shape : record required optional value = true) (h : part ∈ required) :
    ∃ found, value.field? part.1 = some found := by
  cases value with
  | obj fields =>
    obtain ⟨field, hmem, hkey⟩ := List.any_eq_true.mp (List.all_eq_true.mp (Bool.and_eq_true_iff.mp shape).1 part h)
    have hkey : field.1 = part.1 := of_decide_eq_true hkey
    exact Option.isSome_iff_exists.mp (hkey ▸ Json.isSome_field? hmem)
  | _ => cases shape

/-- A record has no fields but its parts. -/
theorem keyed_of_record {required optional : List (String × Shape)}
    (shape : record required optional value = true) : value.Keyed ((required ++ optional).map Prod.fst) := by
  cases value with
  | obj fields =>
    refine ⟨fields, rfl, fun field hmem => ?_⟩
    obtain ⟨part, hpart, hfield⟩ :=
      List.any_eq_true.mp (List.all_eq_true.mp (Bool.and_eq_true_iff.mp shape).2 field hmem)
    have hkey : part.1 = field.1 := of_decide_eq_true (Bool.and_eq_true_iff.mp hfield).1
    exact List.mem_map.mpr ⟨part, hpart, hkey⟩
  | _ => cases shape

/-- A record of which no two parts have one key. -/
structure Recorded (parts others : List (String × Shape)) (value : Json) : Prop where
  shape : record parts others value = true
  distinct : ((parts ++ others).map Prod.fst).Nodup

variable {parts others : List (String × Shape)}

/-- A field of a record has the shape that stands with its key. -/
theorem Recorded.part {key : String} {item : Shape} {found : Json} (recorded : Recorded parts others value)
    (hpart : (key, item) ∈ parts ++ others) (hfound : value.field? key = some found) : item found = true := by
  obtain ⟨part, hmem, hkey, hvalue⟩ := part_of_field? recorded.shape hfound
  have hsame : part = (key, item) := List.inj_on_of_nodup_map recorded.distinct hmem hpart hkey
  rwa [hsame] at hvalue

/-- A record whose kind is given has that kind. -/
theorem Recorded.kind {kind : String} (recorded : Recorded parts others value)
    (hpart : ("kind", oneOf [kind]) ∈ parts) : value.field? "kind" = some (.str kind) := by
  obtain ⟨found, hfound⟩ := exists_field?_of_record recorded.shape hpart
  have hkind := recorded.part (List.mem_append_left _ hpart) hfound
  cases found with
  | str s =>
    have hs : s = kind := by simpa [oneOf] using hkind
    rw [hfound, hs]
  | _ => cases hkind

/-- What lines have beside their kind: what they must have, and what they may have. -/
def lineRecords : List (String × List (String × Shape) × List (String × Shape)) :=
  [("set", [("variable_name", Shape.name), ("value", Shape.bool)], []),
    ("command", [("func_name", Shape.name)], [("args", array string)]),
    ("dialog", [("text", string)], [("speaker", string), ("tags", array tagShape)]),
    ("jump", [("node_title", Shape.name)], [("target_index", targetShape)]),
    ("option", [("possibilities", row choiceShape)], [("speaker", string)])]

def lineParts : List (String × Shape) := lineRecords.flatMap fun line => line.2.1 ++ line.2.2

theorem lineShape_eq : lineShape =
    either (lineRecords.map fun line => record (("kind", oneOf [line.1]) :: line.2.1) line.2.2) := rfl

/-- No two parts of a line have one key. -/
theorem nodup_lineRecords : ∀ line ∈ lineRecords,
    (((("kind", oneOf [line.1]) :: line.2.1) ++ line.2.2).map Prod.fst).Nodup := by decide

/-- A field has one shape in all lines that have it, unless it is the kind. -/
theorem part_of_line {key : String} {found : Json} (shape : lineShape value = true) (hkind : key ≠ "kind")
    (h : value.field? key = some found) : ∃ part ∈ lineParts, part.1 = key ∧ part.2 found = true := by
  rw [lineShape_eq] at shape
  obtain ⟨_, hmem, hvalue⟩ := List.any_eq_true.mp shape
  obtain ⟨line, hline, rfl⟩ := List.mem_map.mp hmem
  obtain ⟨part, hpart, hkey, hfound⟩ := part_of_field? hvalue h
  rcases List.mem_cons.mp hpart with rfl | hpart
  · exact absurd hkey.symm hkind
  · exact ⟨part, List.mem_flatMap.mpr ⟨line, hline, hpart⟩, hkey, hfound⟩

theorem ne_of_name {s : String} (h : Shape.name (.str s) = true) : s ≠ "" := by
  simpa [Shape.name] using h

/-- A natural number is read as the integer that it is. -/
theorem int?_of_natural {found : Json} {n : Int} (shape : natural found = true) (h : int? found = some n) :
    0 ≤ n ∧ (found = .int n ∨ ∃ x : Binary64, found = .real x ∧ x.toInt? = some n) := by
  cases found with
  | int m =>
    cases h
    exact ⟨of_decide_eq_true shape, .inl rfl⟩
  | real x =>
    obtain ⟨m, hm, hif⟩ := Option.bind_eq_some_iff.mp h
    split at hif
    · cases hif
      have hnonneg : (some n).any (fun m : Int => decide (0 ≤ m)) = true := hm ▸ shape
      exact ⟨of_decide_eq_true hnonneg, .inr ⟨x, rfl, hm⟩⟩
    · cases hif
  | _ => cases shape

/-! ### What is read fits -/

/-- Any index is allowed, as none that is read matters. -/
def anyIndex {ι : Type} (_ : ι) : Prop := True

theorem GuardRead.fit {guard : Guard} (read : GuardRead value guard) (shape : guardShape value = true) :
    guard.Fit := by
  have hname : Shape.name (.str guard.variableName) = true := by
    simpa using part_of_field? shape read.variableName
  exact ne_of_name hname

/-- The condition of a choice, if there is one. -/
theorem ChoiceRead.guard {choice : Choice (Option Int)} {guard : Guard} (read : ChoiceRead value choice)
    (shape : choiceShape value = true) (h : choice.guard = some guard) :
    ∃ found, value.field? "condition" = some found ∧ guardShape found = true ∧ GuardRead found guard := by
  have hcondition := read.condition
  rw [h] at hcondition
  unfold Json.Lenient.optional at hcondition
  split at hcondition
  · cases hcondition
  · rename_i found hfound
    have hshape : Shape.null found = true ∨ guardShape found = true := by
      simpa [either] using part_of_field? shape hfound
    unfold nullable at hcondition
    split at hcondition
    · cases hcondition
    · rename_i hnull
      obtain ⟨_, hread, hguard⟩ := Option.map_eq_some_iff.mp hcondition
      cases hguard
      exact ⟨found, hfound, hshape.resolve_left hnull, guardRead_of_readGuard? hread⟩

theorem ChoiceRead.fit {choice : Choice (Option Int)} (read : ChoiceRead value choice)
    (shape : choiceShape value = true) : choice.Fit anyIndex := by
  have htarget : Shape.name (.str choice.target) = true := by
    simpa using part_of_field? shape read.target
  refine ⟨ne_of_name htarget, trivial, fun guard hguard => ?_⟩
  obtain ⟨found, -, hshape, hread⟩ := read.guard shape hguard
  exact hread.fit hshape

/-- Each item that is read from a row has the shape of its items. -/
theorem shape_of_row {α : Type} {read : Json → Option α} {item : Shape} {found : Json} {reads : List α} {x : α}
    (h : list? read found = some reads) (shape : row item found = true) (hx : x ∈ reads) :
    ∃ value, item value = true ∧ read value = some x := by
  obtain ⟨items, rfl, hitems⟩ := list?_eq_some_iff.mp h
  obtain ⟨value, hmem, hread⟩ := exists_of_mem_reads hitems hx
  exact ⟨value, List.all_eq_true.mp (Bool.and_eq_true_iff.mp shape).2 value hmem, hread⟩

theorem ne_nil_of_row {α : Type} {read : Json → Option α} {item : Shape} {found : Json} {reads : List α}
    (h : list? read found = some reads) (shape : row item found = true) : reads ≠ [] := by
  rintro rfl
  obtain ⟨items, rfl, hitems⟩ := list?_eq_some_iff.mp h
  rw [List.map_nil, List.map_eq_nil_iff] at hitems
  cases hitems
  cases shape

theorem LineRead.fit {line : Line (Option Int)} (read : LineRead value line) (shape : lineShape value = true) :
    line.Fit anyIndex := by
  cases read with
  | assign _ _ hname _ =>
    exact ne_of_name (by simpa [lineParts, lineRecords] using part_of_line shape (by decide) hname)
  | command _ _ hname _ =>
    exact ne_of_name (by simpa [lineParts, lineRecords] using part_of_line shape (by decide) hname)
  | say => trivial
  | jump _ _ htarget =>
    refine ⟨ne_of_name ?_, trivial⟩
    exact (by simpa [lineParts, lineRecords] using part_of_line shape (by decide) htarget)
  | offer _ _ _ hchoices =>
    intro choice hchoice
    obtain ⟨found, hfound, hlist⟩ := required_eq_some_iff.mp hchoices
    have hrow : row choiceShape found = true := by
      simpa [lineParts, lineRecords] using part_of_line shape (by decide) hfound
    obtain ⟨item, hitem, hread⟩ := shape_of_row hlist hrow hchoice
    exact (choiceRead_of_readChoice? hread).fit hitem

theorem NodeRead.fit {node : Node (Option Int)} (read : NodeRead value node) (shape : nodeShape value = true) :
    node.Fit anyIndex where
  title_ne := ne_of_name (by simpa using part_of_field? shape read.title)
  lineNumber_nonneg := by
    have hnumber := read.lineNumber
    unfold Json.Lenient.optional at hnumber
    split at hnumber
    · exact Int.le_of_eq (Option.some.inj hnumber)
    · rename_i found hfound
      have hnatural : natural found = true := by simpa using part_of_field? shape hfound
      exact (int?_of_natural hnatural hnumber).1
  lines := by
    intro line hline
    obtain ⟨found, hfound, hlist⟩ := required_eq_some_iff.mp read.lines
    have hrow : row lineShape found = true := by simpa using part_of_field? shape hfound
    obtain ⟨item, hitem, hread⟩ := shape_of_row hlist hrow hline
    exact (lineRead_of_readLine? hread).fit hitem

theorem DocumentRead.fits {id : String} {nodes : List (Node (Option Int))} (read : DocumentRead value id nodes) :
    Fits anyIndex nodes := by
  obtain ⟨found, hfound, hlist⟩ := required_eq_some_iff.mp read.nodes
  have hrow : row nodeShape found = true := by simpa using part_of_field? read.shape hfound
  refine ⟨ne_nil_of_row hlist hrow, fun node hnode => ?_⟩
  obtain ⟨item, hitem, hread⟩ := shape_of_row hlist hrow hnode
  exact (nodeRead_of_readNode? hread).fit hitem

end Parley.Document

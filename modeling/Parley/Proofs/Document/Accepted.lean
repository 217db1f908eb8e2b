import Parley.Load
import Parley.Proofs.Dialog.Resolution
import Parley.Proofs.Document.Completed
import Parley.Proofs.Document.RoundTrip
import Parley.Proofs.Document.Schema
import Parley.Proofs.Results

/-! Which documents are dialogs.

A document is first held against its schema, and then its parts are read. What has its shape is read but for one
thing: a whole number that is written with a fraction or an exponent must not be too large (`Readable`). From there
on titles alone decide. `document_acceptance` says of every value what comes of it. -/
namespace Parley

namespace Document

open Json Json.Lenient Shape

/-! ### What stands in a document -/

section Parts

variable {α : Type}

/-- What the value of a field has, if the field is there. -/
def within (key : String) (parts : Json → List α) (value : Json) : List α := (value.field? key).elim [] parts

/-- What the items of an array have. -/
def across (parts : Json → List α) (value : Json) : List α := (value.arr?.getD []).flatMap parts

/-- A value itself. -/
def itself (value : Json) : List Json := [value]

/-- A value that is a string. -/
def textOf (value : Json) : List String := value.str?.toList

end Parts

def numbersOfChoice : Json → List Json := within "target_index" itself

def numbersOfLine (value : Json) : List Json :=
  within "target_index" itself value ++ within "possibilities" (across numbersOfChoice) value

def numbersOfNode (value : Json) : List Json :=
  within "line_number" itself value ++ within "lines" (across numbersOfLine) value

/-- The line numbers and the target indices of a document. -/
def numbersOf : Json → List Json := within "nodes" (across numbersOfNode)

def targetsOfLine (value : Json) : List String :=
  within "node_title" textOf value ++ within "possibilities" (across (within "jump_to_node_title" textOf)) value

/-- The titles that a document refers to. -/
def targetsOf : Json → List String := within "nodes" (across (within "lines" (across targetsOfLine)))

/-- An integral number that sixty-four bits do not hold. -/
def Oversized (value : Json) : Prop :=
  ∃ x n, value = .real x ∧ x.toInt? = some n ∧ ¬(-0x8000000000000000 ≤ n ∧ n < 0x8000000000000000)

/-- Whether none of some numbers is too large. -/
def Held (numbers : List Json) : Prop := ∀ number ∈ numbers, ¬Oversized number

variable {value : Json}

/-- What is oversized is a number. -/
theorem not_oversized (h : ∀ x, value ≠ .real x) : ¬Oversized value := by
  intro hoversized
  obtain ⟨x, _, hvalue, _⟩ := hoversized
  exact h x hvalue

theorem held_nil : Held [] := List.forall_mem_nil _

theorem held_append {numbers others : List Json} : Held (numbers ++ others) ↔ Held numbers ∧ Held others :=
  List.forall_mem_append

theorem held_flatMap {α : Type} {items : List α} {numbers : α → List Json} :
    Held (items.flatMap numbers) ↔ ∀ item ∈ items, Held (numbers item) := by
  simp only [Held, List.forall_mem_flatMap]

theorem held_itself : Held (itself value) ↔ ¬Oversized value := by
  simp [Held, itself]

/-- What has no numbers. -/
def nothing (_ : Json) : List Json := []

theorem across_nothing : across nothing = nothing := by
  funext value
  simp [across, nothing]

theorem held_within_nothing {key : String} : Held (within key nothing value) := by
  unfold within
  cases value.field? key <;> exact held_nil

/-- A field that is not there has nothing. -/
theorem within_eq_nil {α : Type} {keys : List String} {key : String} {parts : Json → List α}
    (keyed : value.Keyed keys) (h : key ∉ keys) : within key parts value = [] := by
  rw [within, keyed.field?_eq_none h]
  rfl

theorem within_eq {α : Type} {key : String} {found : Json} {parts : Json → List α}
    (h : value.field? key = some found) : within key parts value = parts found := by
  rw [within, h]
  rfl

/-! ### What is read -/

/-- Two readings that do not depend on each other. -/
theorem any_const {α : Type} {x : Option α} {b : Bool} : x.any (fun _ => b) = (x.isSome && b) := by
  cases x <;> rfl

/-- A reading that goes on with what was read. -/
theorem isSome_bind {α β : Type} {x : Option α} {f : α → Option β} {p : Prop}
    (h : ∀ a, x = some a → ((f a).isSome ↔ p)) : (x >>= f).isSome ↔ x.isSome ∧ p := by
  cases x with
  | none => simp
  | some a => simp [h a rfl]

theorem isSome_mapM {α γ : Type} {f : γ → Option α} {items : List γ} :
    (items.mapM f).isSome ↔ ∀ item ∈ items, (f item).isSome := by
  induction items with
  | nil => simp
  | cons item rest ih =>
    rw [List.mapM_cons, List.forall_mem_cons, ← ih]
    simp [Option.isSome_bind, any_const]

/-- What has a shape is read, unless a number in it is too large. -/
def Readable {α : Type} (shape : Shape) (numbers : Json → List Json) (read : Json → Option α) : Prop :=
  ∀ value, shape value = true → ((read value).isSome ↔ Held (numbers value))

section Readable

variable {α : Type} {item : Shape} {numbers : Json → List Json} {read : Json → Option α}

theorem Readable.array (readable : Readable item numbers read) :
    Readable (array item) (across numbers) (list? read) := by
  intro value shape
  cases value with
  | arr items =>
    have hitems : ∀ item' ∈ items, item item' = true := List.all_eq_true.mp shape
    show (items.mapM read).isSome ↔ Held (items.flatMap numbers)
    rw [isSome_mapM, held_flatMap]
    exact forall₂_congr fun found hfound => readable found (hitems found hfound)
  | _ => cases shape

theorem Readable.row (readable : Readable item numbers read) : Readable (row item) (across numbers) (list? read) := by
  intro value shape
  cases value with
  | arr items => exact readable.array _ (Bool.and_eq_true_iff.mp shape).2
  | _ => cases shape

variable {parts others : List (String × Shape)} {key : String}

/-- A reading that begins with a record goes on with it. -/
theorem bind_record? {β : Type} {keys : List String} (recorded : Recorded parts others value)
    (h : ∀ part ∈ parts ++ others, part.1 ∈ keys) (next : Json → Option β) :
    (record? keys value).bind next = next value := by
  obtain ⟨fields, rfl, hfields⟩ := keyed_of_record recorded.shape
  have hall : fields.all (·.1 ∈ keys) = true := by
    refine List.all_eq_true.mpr fun field hmem => decide_eq_true ?_
    obtain ⟨part, hpart, hkey⟩ := List.mem_map.mp (hfields field hmem)
    exact hkey ▸ h part hpart
  show (if fields.all (·.1 ∈ keys) = true then some (obj fields) else none).bind next = _
  rw [if_pos hall]
  rfl

theorem Readable.optional (readable : Readable item numbers read) (recorded : Recorded parts others value)
    (hpart : (key, item) ∈ parts ++ others) (absent : α) :
    (Json.Lenient.optional key absent read value).isSome ↔ Held (within key numbers value) := by
  unfold Json.Lenient.optional within
  split
  · rename_i hnone
    simp [hnone, held_nil]
  · rename_i found hfound
    rw [hfound]
    exact readable found (recorded.part hpart hfound)

theorem Readable.required (readable : Readable item numbers read) (recorded : Recorded parts others value)
    (hpart : (key, item) ∈ parts) :
    (Json.Lenient.required key read value).isSome ↔ Held (within key numbers value) := by
  obtain ⟨found, hfound⟩ := exists_field?_of_record recorded.shape hpart
  rw [Json.Lenient.required, hfound, within_eq hfound]
  exact readable found (recorded.part (List.mem_append_left _ hpart) hfound)

end Readable

/-! ### Values -/

theorem readable_string : Readable string nothing str? := by
  intro value shape
  cases value with
  | str s => exact iff_of_true rfl held_nil
  | _ => cases shape

theorem readable_name : Readable Shape.name nothing str? := by
  intro value shape
  cases value with
  | str s => exact iff_of_true rfl held_nil
  | _ => cases shape

theorem readable_bool : Readable Shape.bool nothing Lenient.bool? := by
  intro value shape
  cases value with
  | bool flag => exact iff_of_true rfl held_nil
  | _ => cases shape

theorem readable_sign : Readable (oneOf ["==", "!="]) nothing fun kind => kind.str?.bind Comparison.ofSign? := by
  intro value shape
  cases value with
  | str s =>
    have hs : s = "==" ∨ s = "!=" := by simpa [oneOf] using shape
    refine iff_of_true ?_ held_nil
    rcases hs with rfl | rfl <;> rfl
  | _ => cases shape

/-- A number from zero on is read if it is an integer, or if sixty-four bits hold it. -/
theorem readable_natural : Readable natural itself Lenient.int? := by
  intro value shape
  rw [held_itself]
  cases value with
  | int n => exact iff_of_true rfl (not_oversized fun _ => Json.noConfusion)
  | real x =>
    obtain ⟨n, hn, hnonneg⟩ : ∃ n, x.toInt? = some n ∧ 0 ≤ n := by
      simpa [natural, Option.any_eq_true] using shape
    have hoversized : Oversized (.real x) ↔ ¬n < 0x8000000000000000 := by
      constructor
      · intro h
        obtain ⟨y, m, heq, hm, hlarge⟩ := h
        cases heq
        cases hn.symm.trans hm
        omega
      · intro hlarge
        exact ⟨x, n, rfl, hn, fun h => hlarge h.2⟩
    have hrange : Reading.inWordRange n = true ↔ n < 0x8000000000000000 := by
      rw [Reading.inWordRange, Bool.and_eq_true, decide_eq_true_eq, decide_eq_true_eq]
      omega
    rw [hoversized, not_not, ← hrange, Lenient.int?, hn, Option.bind_some]
    split <;> simp [*]
  | _ => cases shape

theorem readable_target : Readable targetShape itself (nullable Lenient.int?) := by
  intro value shape
  cases value with
  | null => exact iff_of_true rfl (held_itself.mpr (not_oversized fun _ => Json.noConfusion))
  | _ =>
    have hnatural := readable_natural _ (by simpa [targetShape, either, Shape.null, isNull] using shape)
    simpa [nullable, isNull] using hnatural

theorem readable_headers : Readable (map string) nothing (table? str?) := by
  intro value shape
  cases value with
  | obj fields =>
    have hfields : ∀ field ∈ fields, string field.2 = true := List.all_eq_true.mp shape
    refine iff_of_true ?_ held_nil
    show ((fields.mapM fun field => (str? field.2).map fun read => (field.1, read)).map Table.ofList).isSome
    rw [Option.isSome_map, isSome_mapM]
    intro field hmem
    rw [Option.isSome_map]
    exact (readable_string field.2 (hfields field hmem)).mpr held_nil
  | _ => cases shape

/-! ### Parts -/

theorem readable_tag : Readable tagShape nothing readTag? := by
  intro value shape
  have recorded : Recorded _ _ value := ⟨shape, by decide⟩
  have hname := readable_string.required recorded (by simp : ("name", string) ∈ _)
  have hvalue := readable_string.required recorded (by simp : ("value", string) ∈ _)
  simp only [readTag?, Option.bind_eq_bind]
  rw [bind_record? recorded (by simp)]
  simp [Option.isSome_bind, any_const, hname, hvalue, held_within_nothing, held_nil, nothing]

theorem readable_guard : Readable guardShape nothing readGuard? := by
  intro value shape
  have recorded : Recorded _ _ value := ⟨shape, by decide⟩
  have hname := readable_name.required recorded (by simp : ("variable_name", Shape.name) ∈ _)
  have hkind := readable_sign.required recorded (by simp : ("kind", oneOf ["==", "!="]) ∈ _)
  have hvalue := readable_bool.required recorded (by simp : ("value", Shape.bool) ∈ _)
  simp only [readGuard?, Option.bind_eq_bind]
  rw [bind_record? recorded (by simp)]
  simp [Option.isSome_bind, any_const, hname, hkind, hvalue, held_within_nothing, held_nil, nothing]

/-- The condition of a choice. -/
theorem readable_condition : Readable (either [null, guardShape]) nothing (nullable readGuard?) := by
  intro value shape
  unfold nullable
  split
  · exact iff_of_true rfl held_nil
  · rename_i hnull
    have hguard : guardShape value = true := by simpa [either, Shape.null, hnull] using shape
    simpa using readable_guard value hguard

theorem readable_choice : Readable choiceShape numbersOfChoice readChoice? := by
  intro value shape
  have recorded : Recorded _ _ value := ⟨shape, by decide⟩
  have htext := readable_string.required recorded (by simp : ("text", string) ∈ _)
  have htarget := readable_name.required recorded (by simp : ("jump_to_node_title", Shape.name) ∈ _)
  have hindex := readable_target.optional recorded (by simp : ("target_index", targetShape) ∈ _) none
  have hguard :=
    readable_condition.optional recorded (by simp : ("condition", either [null, guardShape]) ∈ _) none
  simp only [readChoice?, numbersOfChoice, Option.bind_eq_bind]
  rw [bind_record? recorded (by simp)]
  simp [Option.isSome_bind, any_const, htext, htarget, hindex, hguard, held_within_nothing]

/-- The record that a line is. -/
theorem exists_recorded_of_line (shape : lineShape value = true) :
    ∃ line ∈ lineRecords, Recorded (("kind", oneOf [line.1]) :: line.2.1) line.2.2 value := by
  rw [lineShape_eq] at shape
  obtain ⟨_, hmem, hrecord⟩ := List.any_eq_true.mp shape
  obtain ⟨line, hline, rfl⟩ := List.mem_map.mp hmem
  exact ⟨line, hline, hrecord, nodup_lineRecords line hline⟩

/-- What is read from a row that must be there is not empty. -/
theorem ne_nil_of_required {α : Type} {read : Json → Option α} {item : Shape} {key : String} {reads : List α}
    {parts others : List (String × Shape)} (recorded : Recorded parts others value) (hpart : (key, row item) ∈ parts)
    (h : required key (list? read) value = some reads) : reads ≠ [] := by
  obtain ⟨found, hfound, hlist⟩ := required_eq_some_iff.mp h
  exact ne_nil_of_row hlist (recorded.part (List.mem_append_left _ hpart) hfound)

theorem readable_menu {parts others : List (String × Shape)} (recorded : Recorded parts others value)
    (hspeaker : ("speaker", string) ∈ parts ++ others) (hchoices : ("possibilities", row choiceShape) ∈ parts) :
    (readMenu? value).isSome ↔ Held (within "possibilities" (across numbersOfChoice) value) := by
  have hread := readable_string.optional recorded hspeaker ""
  have hmade := readable_choice.row.required recorded hchoices
  rw [← hmade, readMenu?]
  refine (isSome_bind (p := (required "possibilities" (list? readChoice?) value).isSome) ?_).trans ?_
  · intro speaker _
    refine (isSome_bind (p := True) fun choices hsome => ?_).trans (by rw [and_true])
    cases choices with
    | nil => exact absurd rfl (ne_nil_of_required recorded hchoices hsome)
    | cons first rest => exact iff_of_true rfl trivial
  · exact and_iff_right (hread.mpr held_within_nothing)

theorem readable_line : Readable lineShape numbersOfLine readLine? := by
  intro value shape
  obtain ⟨line, hline, recorded⟩ := exists_recorded_of_line shape
  have keyed := keyed_of_record recorded.shape
  have hread := required_str?_iff.mpr (recorded.kind List.mem_cons_self)
  unfold readLine? numbersOfLine
  simp only [lineRecords, List.mem_cons, List.not_mem_nil, or_false] at hline
  obtain rfl | rfl | rfl | rfl | rfl := hline
  -- what is assigned
  · have hname := readable_name.required recorded (by simp : ("variable_name", Shape.name) ∈ _)
    have hvalue := readable_bool.required recorded (by simp : ("value", Shape.bool) ∈ _)
    simp only [hread, Option.bind_eq_bind, Option.bind_some]
    rw [bind_record? recorded (by simp), within_eq_nil keyed (by decide), within_eq_nil keyed (by decide)]
    simp [Option.isSome_bind, any_const, hname, hvalue, held_within_nothing, held_nil]
  -- a command
  · have hname := readable_name.required recorded (by simp : ("func_name", Shape.name) ∈ _)
    have hargs := readable_string.array.optional recorded (by simp : ("args", array string) ∈ _) []
    simp only [hread, Option.bind_eq_bind, Option.bind_some]
    rw [bind_record? recorded (by simp), within_eq_nil keyed (by decide), within_eq_nil keyed (by decide)]
    simp [Option.isSome_bind, any_const, hname, hargs, across_nothing, held_within_nothing, held_nil]
  -- what is said
  · have hspeaker := readable_string.optional recorded (by simp : ("speaker", string) ∈ _) ""
    have htext := readable_string.required recorded (by simp : ("text", string) ∈ _)
    have htags := readable_tag.array.optional recorded (by simp : ("tags", array tagShape) ∈ _) []
    simp only [hread, Option.bind_eq_bind, Option.bind_some]
    rw [bind_record? recorded (by simp), within_eq_nil keyed (by decide), within_eq_nil keyed (by decide)]
    simp [Option.isSome_bind, any_const, hspeaker, htext, htags, across_nothing, held_within_nothing, held_nil]
  -- a jump, which alone has an index itself
  · have htarget := readable_name.required recorded (by simp : ("node_title", Shape.name) ∈ _)
    have hindex := readable_target.optional recorded (by simp : ("target_index", targetShape) ∈ _) none
    simp only [hread, Option.bind_eq_bind, Option.bind_some]
    rw [bind_record? recorded (by simp), within_eq_nil keyed (by decide : "possibilities" ∉ _), List.append_nil]
    simp [Option.isSome_bind, any_const, htarget, hindex, held_within_nothing]
  -- a menu, whose choices have theirs
  · simp only [hread, Option.bind_eq_bind, Option.bind_some]
    rw [bind_record? recorded (by simp), within_eq_nil keyed (by decide : "target_index" ∉ _), List.nil_append]
    simpa [Option.isSome_bind, any_const] using readable_menu recorded (by simp) (by simp)

theorem readable_node : Readable nodeShape numbersOfNode readNode? := by
  intro value shape
  have recorded : Recorded _ _ value := ⟨shape, by decide⟩
  have htitle := readable_name.required recorded (by simp : ("title", Shape.name) ∈ _)
  have hheaders := readable_headers.optional recorded (by simp : ("headers", map string) ∈ _) .empty
  have hnumber := readable_natural.optional recorded (by simp : ("line_number", natural) ∈ _) 0
  have hlines := readable_line.row.required recorded (by simp : ("lines", row lineShape) ∈ _)
  simp only [readNode?, Option.bind_eq_bind]
  rw [bind_record? recorded (by simp)]
  refine (isSome_bind fun title _ => isSome_bind fun headers _ => isSome_bind fun number _ =>
    isSome_bind (p := True) fun lines hsome => ?_).trans ?_
  · cases lines with
    | nil => exact absurd rfl (ne_nil_of_required recorded (by simp : ("lines", row lineShape) ∈ _) hsome)
    | cons first rest => exact iff_of_true rfl trivial
  · simp [htitle, hheaders, hnumber, hlines, held_within_nothing, numbersOfNode, held_append]

/-- The nodes of a document are read, unless a number in them is too large. -/
theorem isSome_nodes (shape : dialogShape value = true) :
    (required "nodes" (list? readNode?) value).isSome ↔ Held (numbersOf value) :=
  readable_node.row.required ⟨shape, by decide⟩ (by simp)

/-- The stages of reading. -/
theorem isSome_readNodes? : (readNodes? value).isSome ↔ dialogSchema value = true ∧ Held (numbersOf value) := by
  rw [dialogSchema_eq]
  unfold readNodes?
  split
  · rename_i shape
    have recorded : Recorded _ _ value := ⟨shape, by decide⟩
    have hid := readable_string.required recorded (by simp : ("id", string) ∈ _)
    simp [Option.isSome_bind, any_const, hid, isSome_nodes shape, held_within_nothing, shape]
  · rename_i hnot
    simp [hnot]

/-! ### Titles -/

theorem across_eq_flatMap {α β : Type} {read : Json → Option α} {found : Json} {reads : List α}
    {parts : Json → List β} {others : α → List β} (h : list? read found = some reads)
    (hitem : ∀ item x, read item = some x → parts item = others x) : across parts found = reads.flatMap others := by
  obtain ⟨items, rfl, hitems⟩ := list?_eq_some_iff.mp h
  show items.flatMap parts = reads.flatMap others
  clear h
  induction items generalizing reads with
  | nil =>
    rw [List.map_eq_nil_iff.mp hitems.symm]
    rfl
  | cons item rest ih =>
    cases reads with
    | nil => cases hitems
    | cons x reads =>
      obtain ⟨hx, hrest⟩ := List.cons.inj hitems
      rw [List.flatMap_cons, List.flatMap_cons, hitem item x hx, ih hrest]

/-- The title of a field that is a string. -/
theorem within_textOf {key s : String} (h : value.field? key = some (.str s)) : within key textOf value = [s] :=
  within_eq h

theorem LineRead.targets {line : Line (Option Int)} (read : LineRead value line) :
    targetsOfLine value = line.references.map Prod.fst := by
  unfold targetsOfLine
  cases read with
  | jump _ keyed htarget =>
    rw [within_textOf htarget, within_eq_nil keyed (by decide)]
    rfl
  | @offer menu _ keyed _ hchoices =>
    obtain ⟨found, hfound, hlist⟩ := required_eq_some_iff.mp hchoices
    have htargets : ∀ item choice, readChoice? item = some choice →
        within "jump_to_node_title" textOf item = [choice.target] :=
      fun item choice hread => within_textOf (choiceRead_of_readChoice? hread).target
    rw [within_eq_nil keyed (by decide), within_eq hfound, across_eq_flatMap hlist htargets]
    rw [← List.map_eq_flatMap, Line.references, List.map_map]
    rfl
  | assign _ keyed | command _ keyed | say _ keyed =>
    rw [within_eq_nil keyed (by decide), within_eq_nil keyed (by decide)]
    rfl

variable {id : String} {nodes : List (Node (Option Int))}

/-- The titles that the nodes of a document refer to are those that the document refers to. -/
theorem targetsOf_eq (read : DocumentRead value id nodes) :
    targetsOf value = nodes.flatMap fun node => node.references.map Prod.fst := by
  obtain ⟨found, hfound, hlist⟩ := required_eq_some_iff.mp read.nodes
  rw [targetsOf, within_eq hfound]
  refine across_eq_flatMap hlist fun item node hnode => ?_
  obtain ⟨lines, hlines, hread⟩ := required_eq_some_iff.mp (nodeRead_of_readNode? hnode).lines
  rw [within_eq hlines, Node.references, List.map_flatMap]
  exact across_eq_flatMap hread fun item line hline => (lineRead_of_readLine? hline).targets

/-! ### What comes of a document -/

/-- Whether a value has the schema of a dialog, and no number in it is too large. -/
structure Valid (value : Json) : Prop where
  schema : dialogSchema value = true
  held : Held (numbersOf value)

theorem valid_iff : Valid value ↔ (readNodes? value).isSome := by
  rw [isSome_readNodes?]
  exact ⟨fun valid => ⟨valid.schema, valid.held⟩, fun h => ⟨h.1, h.2⟩⟩

theorem not_valid_iff :
    ¬Valid value ↔ dialogSchema value = false ∨ ∃ number ∈ numbersOf value, Oversized number := by
  rw [valid_iff, isSome_readNodes?, not_and_or, Bool.not_eq_true, Held]
  simp only [not_forall, not_not, exists_prop]

/-- A document that is not valid is refused. What else becomes of it is what resolution makes of its nodes. -/
theorem ofDocument_cases (value : Json) :
    (¬Valid value ∧ Dialog.ofDocument value = .error .invalidDocument) ∨
      (Valid value ∧ ∃ id nodes, DocumentRead value id nodes ∧
        Dialog.ofDocument value = (Dialog.resolve id nodes).mapError .unresolved) := by
  rw [valid_iff]
  unfold Dialog.ofDocument Document.read
  cases hread : readNodes? value with
  | none => exact .inl ⟨Bool.false_ne_true, rfl⟩
  | some found =>
    obtain ⟨id, nodes⟩ := found
    refine .inr ⟨rfl, id, nodes, documentRead_of_readNodes? hread, ?_⟩
    dsimp only
    cases Dialog.resolve id nodes <;> rfl

theorem ofDocument_eq_invalid_iff : Dialog.ofDocument value = .error .invalidDocument ↔ ¬Valid value := by
  obtain ⟨hnot, h⟩ | ⟨valid, id, nodes, -, h⟩ := ofDocument_cases value
  · exact iff_of_true h hnot
  · simp [h, valid, mapError_eq_error_iff]

theorem exists_repeated_iff : (∃ title, Dialog.ofDocument value = .error (.unresolved (.repeatedTitle title))) ↔
    Valid value ∧ ¬(titlesOf value).Nodup := by
  obtain ⟨hnot, h⟩ | ⟨valid, id, nodes, read, h⟩ := ofDocument_cases value
  · simp [h, hnot]
  · rw [titlesOf_eq read, ← Dialog.exists_firstRepeat_iff]
    simp [h, valid, mapError_eq_error_iff, Dialog.resolve_eq_repeated_iff]

/-- Whether every title that a document refers to is that of a node. -/
theorem known_iff (read : DocumentRead value id nodes) : (∀ title ∈ targetsOf value, title ∈ titlesOf value) ↔
    ∀ node ∈ nodes, Known (nodes.map Node.title) node.references := by
  rw [titlesOf_eq read, targetsOf_eq read, List.forall_mem_flatMap]
  exact forall₂_congr fun node _ => List.forall_mem_map

theorem exists_unknown_iff :
    (∃ title source, Dialog.ofDocument value = .error (.unresolved (.unknownTitle title source))) ↔
      Valid value ∧ (titlesOf value).Nodup ∧ ∃ title ∈ targetsOf value, title ∉ titlesOf value := by
  obtain ⟨hnot, h⟩ | ⟨valid, id, nodes, read, h⟩ := ofDocument_cases value
  · simp [h, hnot]
  · have hunknown : (∃ title ∈ targetsOf value, title ∉ titlesOf value) ↔
        ∃ title source, Dialog.FirstUnknown nodes title source := by
      rw [Dialog.exists_firstUnknown_iff, ← not_iff_not]
      have hknown := known_iff read
      simpa [Known] using hknown
    rw [hunknown, titlesOf_eq read]
    simp [h, valid, mapError_eq_error_iff, Dialog.resolve_eq_unknown_iff]

theorem exists_dialog_iff : (∃ dialog, Dialog.ofDocument value = .ok dialog) ↔
    Valid value ∧ (titlesOf value).Nodup ∧ ∀ title ∈ targetsOf value, title ∈ titlesOf value := by
  obtain ⟨hnot, h⟩ | ⟨valid, id, nodes, read, h⟩ := ofDocument_cases value
  · simp [h, hnot]
  · rw [h, known_iff read, titlesOf_eq read]
    simp only [mapError_eq_ok_iff]
    constructor
    · intro ⟨dialog, hresolve⟩
      obtain ⟨hnodup, hknown, -⟩ := Dialog.resolve_eq_ok_iff.mp hresolve
      exact ⟨valid, hnodup, hknown⟩
    · intro ⟨_, hnodup, hknown⟩
      obtain ⟨dialog, hresolve, -⟩ := Dialog.resolve_of_known id hnodup hknown
      exact ⟨dialog, hresolve⟩

/-- The dialog of a document says what the document completed says. -/
theorem same_of_ofDocument {dialog : Dialog} (h : Dialog.ofDocument value = .ok dialog) (proper : value.Proper) :
    value.field? "id" = some (.str dialog.id) ∧ Same (transcript dialog) (completed value) := by
  obtain ⟨-, hinvalid⟩ | ⟨-, id, nodes, read, hresolve⟩ := ofDocument_cases value
  · cases hinvalid.symm.trans h
  · obtain ⟨-, -, hid, hnodes⟩ := Dialog.resolve_eq_ok_iff.mp (mapError_eq_ok_iff.mp (hresolve.symm.trans h))
    exact ⟨hid ▸ read.id, read.same proper hid hnodes⟩

end Document

open Document Json.Lenient

/-- **A document is accepted exactly if it is that of a dialog.** It is refused as invalid if it has not the schema of
a compiled dialog, or if a line number or a target index is an integral number that sixty-four bits do not hold; what
has the schema is read but for that. Of a valid document, a title that two nodes have is reported, whatever is
referred to. If there is none, a title that is referred to and that no node has is reported. Otherwise it gives a
dialog, which has the name of the document and says all that the document says, as it says it: defaults are filled in,
and each target index is the position of its title. -/
theorem document_acceptance (value : Json) :
    (Dialog.ofDocument value = .error .invalidDocument ↔
      dialogSchema value = false ∨ ∃ number ∈ numbersOf value, Oversized number) ∧
    (dialogSchema value = true →
      ((required "nodes" (list? readNode?) value).isSome ↔ ∀ number ∈ numbersOf value, ¬Oversized number)) ∧
    ((∃ title, Dialog.ofDocument value = .error (.unresolved (.repeatedTitle title))) ↔
      Valid value ∧ ¬(titlesOf value).Nodup) ∧
    ((∃ title source, Dialog.ofDocument value = .error (.unresolved (.unknownTitle title source))) ↔
      Valid value ∧ (titlesOf value).Nodup ∧ ∃ title ∈ targetsOf value, title ∉ titlesOf value) ∧
    ((∃ dialog, Dialog.ofDocument value = .ok dialog) ↔
      Valid value ∧ (titlesOf value).Nodup ∧ ∀ title ∈ targetsOf value, title ∈ titlesOf value) ∧
    ∀ dialog, Dialog.ofDocument value = .ok dialog → value.Proper →
      value.field? "id" = some (.str dialog.id) ∧ Json.Same (transcript dialog) (completed value) := by
  refine ⟨ofDocument_eq_invalid_iff.trans not_valid_iff, fun schema => ?_, exists_repeated_iff, exists_unknown_iff,
    exists_dialog_iff, fun dialog h proper => same_of_ofDocument h proper⟩
  exact isSome_nodes (dialogSchema_eq ▸ schema)

/-- The document of a lodge, which has no numbers, gives a dialog that has its headers. -/
theorem document_acceptance_lodge :
    let document := Lodge.document [("tags", .str "warm")]
    let dialog := Lodge.dialog (.ofList [("tags", "warm")])
    dialogSchema document = true ∧ (required "nodes" (list? readNode?) document).isSome ∧
      Dialog.ofDocument document = .ok dialog ∧ document.Proper ∧
        Json.Same (transcript dialog) (completed document) := by
  intro document dialog
  obtain ⟨-, hnodes, -, -, -, hsame⟩ := document_acceptance document
  have hschema : dialogSchema document = true := rfl
  have hnumbers : numbersOf document = [] := rfl
  have hread : Dialog.ofDocument document = .ok dialog := rfl
  have hproper : document.Proper := Lodge.proper_document (.obj (by decide) (List.forall_mem_singleton.mpr (.str _)))
  refine ⟨hschema, (hnodes hschema).mpr ?_, hread, hproper, (hsame dialog hread hproper).2⟩
  rw [hnumbers]
  exact held_nil

end Parley

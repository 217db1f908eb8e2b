import Parley.Proofs.Document.Fit

/-! What is written is read back.

Every field of a guard, a choice or a line comes back. Of a node, the headers come back `cleaned`. -/
namespace Parley

variable {ι : Type}

/-- The node with its headers as they come back. -/
def Node.cleaned (node : Node ι) : Node ι := { node with headers := Document.cleaned node.headers }

namespace Document

open Json.Lenient

theorem readGuard?_ofGuard (guard : Guard) : readGuard? (ofGuard guard) = some guard := by
  have hsign : Comparison.ofSign? guard.comparison.sign = some guard.comparison := by
    cases guard.comparison <;> rfl
  simp [readGuard?, ofGuard, record?, required, Json.obj?, Json.field?, Json.str?, bool?, hsign]

theorem readTag?_ofTag (tag : Tag) : readTag? (ofTag tag) = some tag := by
  simp [readTag?, ofTag, record?, required, Json.obj?, Json.field?, Json.str?]

theorem table?_ofHeaders (headers : Table String) :
    table? Json.str? (ofHeaders headers) = some (cleaned headers) := by
  let fields : List (String × Json) := (cleaned headers).entries.map fun entry => (entry.1, .str entry.2)
  let readField (field : String × Json) : Option (String × String) := field.2.str?.map fun s => (field.1, s)
  have hread : fields.mapM readField = some (cleaned headers).entries := by
    refine mapM_eq_some_iff.mpr ?_
    rw [List.map_map]
    rfl
  have htable : (fields.mapM readField).map Table.ofList = some (cleaned headers) := by
    rw [hread]
    exact congrArg some (cleaned headers).putAll_entries
  rw [ofHeaders_eq]
  exact htable

variable {index : ι → Json} {back : ι → Option Int} (hindex : ∀ i, nullable int? (index i) = some (back i))
include hindex

theorem readChoice?_ofChoice (choice : Choice ι) :
    readChoice? (ofChoice index choice) = some (choice.reindex fun _ => back) := by
  have hguard : nullable readGuard? (choice.guard.elim .null ofGuard) = some choice.guard := by
    cases choice.guard with
    | none => rfl
    | some guard => exact congrArg (Option.map some) (readGuard?_ofGuard guard)
  simp [readChoice?, ofChoice, record?, required, Json.Lenient.optional, Json.obj?, Json.field?, Json.str?, hindex,
    hguard, Choice.reindex]

theorem readMenu?_ofLine (menu : Menu ι) :
    readMenu? (ofLine index (.offer menu)) = some (menu.reindex fun _ => back) := by
  have hchoices : list? readChoice? (.arr (menu.choices.map (ofChoice index))) =
      some (menu.reindex fun _ => back).choices :=
    list?_arr_map fun choice _ => readChoice?_ofChoice hindex choice
  have hspeaker : menu.speaker = (menu.reindex fun _ => back).speaker := rfl
  generalize menu.reindex (fun _ => back) = found at hchoices hspeaker ⊢
  obtain ⟨speaker, choices, hne⟩ := found
  cases choices with
  | nil => exact absurd rfl hne
  | cons first rest =>
    simp [readMenu?, ofLine, Json.Lenient.optional, required, Json.field?, Json.str?, hchoices, hspeaker]

theorem readLine?_ofLine (line : Line ι) :
    readLine? (ofLine index line) = some (line.reindex fun _ => back) := by
  cases line with
  | assign variableName value =>
    simp [readLine?, ofLine, record?, required, Json.obj?, Json.field?, Json.str?, bool?, Line.reindex]
  | command name arguments =>
    have harguments : list? Json.str? (.arr (arguments.map .str)) = some (arguments.map id) :=
      list?_arr_map fun argument _ => rfl
    rw [List.map_id] at harguments
    simp [readLine?, ofLine, record?, required, Json.Lenient.optional, Json.obj?, Json.field?, Json.str?,
      harguments, Line.reindex]
  | say speaker text tags =>
    have htags : list? readTag? (.arr (tags.map ofTag)) = some (tags.map id) :=
      list?_arr_map fun tag _ => readTag?_ofTag tag
    rw [List.map_id] at htags
    simp [readLine?, ofLine, record?, required, Json.Lenient.optional, Json.obj?, Json.field?, Json.str?,
      htags, Line.reindex]
  | jump target i =>
    simp [readLine?, ofLine, record?, required, Json.Lenient.optional, Json.obj?, Json.field?, Json.str?,
      hindex, Line.reindex]
  | offer menu =>
    have hmenu := readMenu?_ofLine hindex menu
    rw [ofLine] at hmenu ⊢
    simp [readLine?, record?, required, Json.obj?, Json.field?, Json.str?, hmenu, Line.reindex]

/-- A node is read back as it is, but for its headers, and with its indices as they are read. -/
theorem readNode?_ofNode (node : Node ι) :
    readNode? (ofNode index node) = some (node.reindex fun _ => back).cleaned := by
  have hlines : list? readLine? (.arr (node.lines.map (ofLine index))) =
      some (node.reindex fun _ => back).lines :=
    list?_arr_map fun line _ => readLine?_ofLine hindex line
  have hheaders : table? Json.str? (ofHeaders node.headers) = some (cleaned node.headers) :=
    table?_ofHeaders node.headers
  have hsame : (node.reindex fun _ => back).cleaned.title = node.title ∧
      (node.reindex fun _ => back).cleaned.headers = cleaned node.headers ∧
      (node.reindex fun _ => back).cleaned.lineNumber = node.lineNumber := ⟨rfl, rfl, rfl⟩
  change _ = some (node.reindex fun _ => back).cleaned.lines at hlines
  generalize (node.reindex fun _ => back).cleaned = found at hlines hsame ⊢
  obtain ⟨title, lines, headers, lineNumber, hne⟩ := found
  obtain ⟨rfl, rfl, rfl⟩ := hsame
  cases lines with
  | nil => exact absurd rfl hne
  | cons first rest =>
    simp [readNode?, ofNode, record?, Json.Lenient.optional, required, Json.obj?, Json.field?, Json.str?, int?,
      hheaders, hlines]

end Document

end Parley

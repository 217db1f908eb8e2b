import Parley.Dialog.Resolve
import Parley.Document.Shape
import Parley.Json.Lenient

/-! Reading documents.

Fields that are left out have a default. The stored indices are read, since a document in which one
cannot be read is refused, but a dialog is resolved anew from its titles. -/
namespace Parley.Document

open Json.Lenient

def readGuard? (value : Json) : Option Guard := do
  let fields ← record? ["variable_name", "kind", "value"] value
  return ⟨← required "variable_name" Json.str? fields,
    ← required "kind" (fun kind => kind.str?.bind Comparison.ofSign?) fields,
    ← required "value" bool? fields⟩

def readTag? (value : Json) : Option Tag := do
  let fields ← record? ["name", "value"] value
  return ⟨← required "name" Json.str? fields, ← required "value" Json.str? fields⟩

def readChoice? (value : Json) : Option (Choice (Option Int)) := do
  let fields ← record? ["text", "jump_to_node_title", "target_index", "condition"] value
  return ⟨← required "text" Json.str? fields,
    ← required "jump_to_node_title" Json.str? fields,
    ← optional "target_index" none (nullable int?) fields,
    ← optional "condition" none (nullable readGuard?) fields⟩

def readMenu? (fields : Json) : Option (Menu (Option Int)) := do
  let speaker ← optional "speaker" "" Json.str? fields
  match ← required "possibilities" (list? readChoice?) fields with
  | [] => none
  | first :: rest => some ⟨speaker, first :: rest, List.cons_ne_nil _ _⟩

/-- A line: the field `kind` says which. -/
def readLine? (value : Json) : Option (Line (Option Int)) := do
  match ← required "kind" Json.str? value with
  | "set" =>
    let fields ← record? ["kind", "variable_name", "value"] value
    return .assign (← required "variable_name" Json.str? fields) (← required "value" bool? fields)
  | "command" =>
    let fields ← record? ["kind", "func_name", "args"] value
    return .command (← required "func_name" Json.str? fields)
      (← optional "args" [] (list? Json.str?) fields)
  | "dialog" =>
    let fields ← record? ["kind", "speaker", "text", "tags"] value
    return .say (← optional "speaker" "" Json.str? fields) (← required "text" Json.str? fields)
      (← optional "tags" [] (list? readTag?) fields)
  | "jump" =>
    let fields ← record? ["kind", "node_title", "target_index"] value
    return .jump (← required "node_title" Json.str? fields)
      (← optional "target_index" none (nullable int?) fields)
  | "option" =>
    let fields ← record? ["kind", "speaker", "possibilities"] value
    return .offer (← readMenu? fields)
  | _ => none

/-- A node, of whatever shape its document is. -/
def readNode? (value : Json) : Option (Node (Option Int)) := do
  let fields ← record? ["title", "lines", "headers", "line_number"] value
  let title ← required "title" Json.str? fields
  let headers ← optional "headers" .empty (table? Json.str?) fields
  let lineNumber ← optional "line_number" 0 int? fields
  match ← required "lines" (list? readLine?) fields with
  | [] => none
  | first :: rest => some ⟨title, first :: rest, headers, lineNumber, List.cons_ne_nil _ _⟩

/-- Why a document is no dialog. -/
inductive Fault where
  /-- The document is not that of a dialog. -/
  | invalid
  /-- Its nodes make no dialog. -/
  | unresolved (fault : Dialog.Fault)
  deriving DecidableEq, Repr

/-- The name and the nodes of a document that has the shape of a dialog. -/
def readNodes? (value : Json) : Option (String × List (Node (Option Int))) :=
  if dialogShape value then do
    return (← required "id" Json.str? value, ← required "nodes" (list? readNode?) value)
  else none

/-- The dialog of a document. -/
def read (value : Json) : Except Fault Dialog :=
  match readNodes? value with
  | none => .error .invalid
  | some (id, nodes) => (Dialog.resolve id nodes).mapError .unresolved

end Parley.Document

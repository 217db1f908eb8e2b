import Parley.Document.Reader
import Parley.Script.Reader

/-! Loading a dialog, from a script or from a document. -/
namespace Parley

/-- Why a dialog is not loaded. -/
inductive LoadFault where
  | script (fault : Script.Fault)
  | unresolved (fault : Dialog.Fault)
  /-- A document is not that of a dialog. -/
  | invalidDocument
  /-- A file does not hold JSON. -/
  | notJson (path : String)
  | unreadable (path : String)
  deriving DecidableEq, Repr

def LoadFault.message : LoadFault → String
  | script fault => fault.message
  | unresolved fault => fault.message
  | invalidDocument => "Invalid compiled dialog"
  | notJson path => s!"{path} is not valid JSON"
  | unreadable path => s!"Could not read {path}"

def LoadFault.ofDocument : Document.Fault → LoadFault
  | .invalid => invalidDocument
  | .unresolved fault => unresolved fault

/-- The dialog of a script. -/
def Dialog.ofScript (id text : String) : Except LoadFault Dialog := do
  let nodes ← (Script.read text).mapError .script
  (Dialog.resolve id nodes).mapError .unresolved

/-- The dialog of a document. -/
def Dialog.ofDocument (value : Json) : Except LoadFault Dialog :=
  (Document.read value).mapError .ofDocument

end Parley

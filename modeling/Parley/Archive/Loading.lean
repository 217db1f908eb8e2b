import Parley.Archive.Basic
import Parley.Document.Writer
import Parley.Json.Printer
import Parley.Json.Reader
import Parley.Load
import Parley.Log

/-! Dialogs in files. -/
namespace Parley

/-- Why a file is given up, and everything that goes on with it. -/
inductive Breakdown where
  /-- The file holds JSON that is not read, though it may well be JSON. -/
  | json (fault : Json.Fault)
  /-- No file can have the path. -/
  | path (fault : Path.Fault)
  deriving DecidableEq, Repr

/-- Why the dialog of a file is not there. -/
inductive FileFault where
  | load (fault : LoadFault)
  | breakdown (cause : Breakdown)
  deriving DecidableEq, Repr

namespace Archive

/-- What stands before the first colon that a space follows. -/
def beforeCause : List Char → List Char
  | [] => []
  | ':' :: ' ' :: _ => []
  | c :: s => c :: beforeCause s

/-- A path that is not read, as messages show it. What follows a colon and a space counts as the cause and
is left out. That the root is not read has always the same cause, and it is given. -/
def displayUnread (archive : Archive) (path : Path) : String :=
  if path.isEmpty then s!"{archive.root}: [Errno 21] Is a directory: '{archive.root}'"
  else String.ofList (beforeCause (archive.display path).toList)

/-- The text of a file, each line ending in a line feed alone. -/
def script (archive : Archive) (path : Path) : Except FileFault String :=
  match (archive.content path).map Text.ofBytes? with
  | .ok (some text) => .ok (String.ofList (Text.unifyBreaks text.toList))
  | .error (.path fault) => .error (.breakdown (.path fault))
  | _ => .error (.load (.unreadable (archive.displayUnread path)))

/-- The dialog of a script file, named for the file. -/
def loadScript (archive : Archive) (path : Path) : Except FileFault Dialog := do
  let text ← archive.script path
  (Dialog.ofScript path.stem text).mapError .load

/-- How deep the arrays and objects of a document file are gone into. -/
def deepest : Nat := 990

/-- The dialog of a document file. -/
def loadDocument (archive : Archive) (path : Path) : Except FileFault Dialog := do
  let text ← archive.script path
  match Json.readTo deepest text with
  | .error .malformed => .error (.load (.notJson (archive.display path)))
  | .error fault => .error (.breakdown (.json fault))
  | .ok value => (Dialog.ofDocument value).mapError .load

/-- Why a script file is not compiled. -/
inductive CompileFault where
  | file (fault : FileFault)
  | write (fault : PathFault)

/-- The document of the dialog of a script file is written to a file. -/
def compile (archive : Archive) (input output : Path) :
    Except CompileFault (Archive × String × List LogEntry) := do
  let dialog ← (archive.loadScript input).mapError .file
  let content := (Document.ofDialog dialog).write
  match archive.write output content.toUTF8 with
  | (.error fault, _) => .error (.write fault)
  | (.ok (), archive) =>
    return (archive, content,
      [⟨.info, s!"Compiled {archive.display input} -> {archive.display output}"⟩])

end Archive

/-- The suffix of compiled dialogs. -/
def compiledSuffix : String := ".json"

end Parley

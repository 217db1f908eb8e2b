import Parley.Archive.Loading
import Parley.Config
import Parley.Dialog.Reach

/-! Libraries: the dialogs of a folder.

Every file of the folder that has the suffix of a script or of a document is loaded, in the order of the
names, under its stem. A file that cannot be loaded is noted and does not keep the others from being
loaded. A dialog that is there already stays. -/
namespace Parley

/-- Dialogs by their names, and why others are not there. -/
structure Library where
  config : Config
  dialogs : Table Dialog
  failed : Table String

/-- Why a folder is not gone through. -/
inductive FolderFault where
  | path (fault : PathFault)
  | breakdown (cause : Breakdown)
  deriving DecidableEq, Repr

namespace Library

def empty (config : Config) : Library := ⟨config, .empty, .empty⟩

/-- How a file is loaded, as its suffix says. -/
def loader? (config : Config) (archive : Archive) (path : Path) : Option (Except FileFault Dialog) :=
  if path.suffix = config.scriptExtension then some (archive.loadScript path)
  else if path.suffix = config.compiledExtension then some (archive.loadDocument path)
  else none

/-- The report about nodes that cannot be reached from the starting node, if there are any. -/
def unreachableReport (config : Config) (dialog : Dialog) : List LogEntry :=
  if config.warnUnreachable && dialog.contains config.startNode then
    let reached := dialog.reachable config.startNode
    let lost := Names.sorted (dialog.titles.filter (!reached.contains ·))
    if lost.isEmpty then []
    else [⟨.warning, s!"Dialog '{dialog.id}': nodes unreachable from '{config.startNode}': " ++
      Names.join lost⟩]
  else []

/-- A library with what a visit to files did to it: how many dialogs it got, and the reports. -/
structure Visit where
  library : Library
  count : Nat
  log : List LogEntry

namespace Visit

/-- The visit goes on to a file. -/
def file (archive : Archive) (path : Path) (visit : Visit) : Except FileFault Dialog → Except Breakdown Visit
  | .error (.breakdown cause) => .error cause
  | .error (.load fault) =>
    let entry := ⟨.error, s!"Failed to load {archive.display path}: {fault.message}"⟩
    .ok { visit with
      library := { visit.library with failed := visit.library.failed.put path.stem fault.message }
      log := visit.log ++ [entry] }
  | .ok dialog =>
    let dialog := dialog.withId path.stem
    .ok { visit with
      library := { visit.library with dialogs := visit.library.dialogs.put path.stem dialog }
      count := visit.count + 1
      log := visit.log ++ unreachableReport visit.library.config dialog }

/-- The visit goes on to an entry of the folder. -/
def entry (archive : Archive) (path : Path) (visit : Visit) : Except Breakdown Visit :=
  match loader? visit.library.config archive path with
  | none => .ok visit
  | some loaded =>
    if visit.library.dialogs.contains path.stem then
      let entry :=
        ⟨.warning, s!"Skipping {archive.display path}: dialog '{path.stem}' already loaded"⟩
      .ok { visit with log := visit.log ++ [entry] }
    else visit.file archive path loaded

/-- The visit goes through entries, to its end or to a breakdown. -/
def entries (archive : Archive) : List Path → Visit → Visit × Option Breakdown
  | [], visit => (visit, none)
  | path :: rest, visit =>
    match visit.entry archive path with
    | .error cause => (visit, some cause)
    | .ok visit => entries archive rest visit

end Visit

/-- Every dialog of a folder is loaded. The result is how many the library got. -/
def loadAll (library : Library) (archive : Archive) (folder : Path) :
    Except FolderFault Nat × Library × List LogEntry :=
  match archive.entry folder with
  | .error .tooLong => (.error (.path .tooLong), library, [])
  | .error _ =>
    (.ok 0, library, [⟨.warning, s!"Dialog directory not found: {archive.display folder}"⟩])
  | .ok (.file _) => (.error (.path .notFolder), library, [])
  | .ok .folder =>
    let paths := (archive.list folder).map fun name => folder ++ [name]
    match Visit.entries archive paths ⟨library, 0, []⟩ with
    | (visit, some cause) => (.error (.breakdown cause), visit.library, visit.log)
    | (visit, none) =>
      let entry :=
        ⟨.info, s!"Loaded {visit.count} dialogs, {visit.library.failed.size} failed."⟩
      (.ok visit.count, visit.library, visit.log ++ [entry])

end Library

end Parley

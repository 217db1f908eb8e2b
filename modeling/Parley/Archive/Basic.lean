import Parley.Archive.Path
import Parley.Names

/-! Archives: files and folders under a root. -/
namespace Parley

/-- What stands at a path. -/
inductive Entry where
  | file (content : ByteArray)
  | folder

/-- Why a path leads to nothing, or nothing can be put where it leads. -/
inductive PathFault where
  | path (fault : Path.Fault)
  /-- A name has more bytes than names can have. -/
  | tooLong
  /-- Nothing is there, or no folder around it. -/
  | missing
  /-- What would have to be a folder is a file. -/
  | notFolder
  /-- A folder is where a file would have to be. -/
  | isFolder
  /-- Something is there already. -/
  | taken
  deriving DecidableEq, Repr

/-- Files and folders, and the text that stands for their root. -/
structure Archive where
  root : String
  entries : List (Path × Entry)

namespace Archive

/-- An archive without files. -/
def empty (root : String) : Archive := ⟨root, []⟩

/-- A path as messages show it. -/
def display (archive : Archive) (path : Path) : String := String.intercalate "/" (archive.root :: path)

/-! ### Places

A place is a path whose names are settled and in which two dots stand, if at all, only in front: there they
lead out of the archive. -/

/-- Whether a place is the root or a folder around it. -/
def isAround (place : Path) : Bool := place.all (· == "..")

/-- What stands at a place; the root and the folders around it are folders. -/
def entryAt? (archive : Archive) (place : Path) : Option Entry :=
  if isAround place then some .folder else (archive.entries.find? (·.1 = place)).map Prod.snd

/-- How many bytes a name can have. -/
def longestName : Nat := 255

/-- The place that a path leads to from a place on. Wherever the path goes on there must be a folder; two
dots lead to the folder around it. -/
def placeFrom (archive : Archive) : Path → Path → Except PathFault Path
  | place, [] => .ok place
  | place, name :: rest =>
    match archive.entryAt? place with
    | none => .error .missing
    | some (.file _) => .error .notFolder
    | some .folder =>
      if name = ".." then
        archive.placeFrom (if isAround place then place ++ [name] else place.parent) rest
      else if longestName < (Text.nameOctets name).length then .error .tooLong
      else archive.placeFrom (place ++ [Text.settled name]) rest

/-- The place that a path leads to. -/
def place (archive : Archive) (path : Path) : Except PathFault Path :=
  match path.fault? with
  | some fault => .error (.path fault)
  | none => archive.placeFrom [] path

/-- The archive with another entry at a place. -/
def put (archive : Archive) (place : Path) (entry : Entry) : Archive :=
  { archive with entries := (place, entry) :: archive.entries.filter (·.1 ≠ place) }

/-! ### Reading -/

/-- What stands at a path. -/
def entry (archive : Archive) (path : Path) : Except PathFault Entry := do
  match archive.entryAt? (← archive.place path) with
  | some entry => .ok entry
  | none => .error .missing

/-- The content of a file. -/
def content (archive : Archive) (path : Path) : Except PathFault ByteArray := do
  match ← archive.entry path with
  | .file content => .ok content
  | .folder => .error .isFolder

/-- The names of the entries of the folder at a place, ascending. -/
def namesIn (archive : Archive) (place : Path) : List String :=
  Names.sorted <| archive.entries.filterMap fun entry =>
    if !entry.1.isEmpty && entry.1.parent = place then some entry.1.name else none

/-- The names of the entries of a folder, ascending. -/
def list (archive : Archive) (path : Path) : List String :=
  (archive.place path).toOption.elim [] archive.namesIn

/-! ### Writing

A writing that fails half-way leaves behind what it has made. -/

/-- What a writing does to an archive. -/
abbrev Writing : Type := Except PathFault Unit × Archive

/-- An entry is put where a path leads, if `fault?` has nothing against what stands there. -/
def putAt (archive : Archive) (path : Path) (new : Entry) (fault? : Option Entry → Option PathFault) : Writing :=
  match archive.place path with
  | .error fault => (.error fault, archive)
  | .ok place =>
    match fault? (archive.entryAt? place) with
    | some fault => (.error fault, archive)
    | none => (.ok (), archive.put place new)

/-- A file is written into a folder that is there. -/
def write (archive : Archive) (path : Path) (content : ByteArray) : Writing :=
  archive.putAt path (.file content) fun
    | some .folder => some .isFolder
    | _ => none

/-- A folder is made where nothing stands. -/
def newFolder (archive : Archive) (path : Path) : Writing :=
  archive.putAt path .folder fun entry => if entry.isSome then some .taken else none

/-- Folders are made at those of some paths where nothing stands, one after the other. -/
def ensureFolders (archive : Archive) : List Path → Writing
  | [] => (.ok (), archive)
  | path :: rest =>
    match archive.newFolder path with
    | (.ok (), archive) => archive.ensureFolders rest
    | (.error .taken, archive) => archive.ensureFolders rest
    | failed => failed

/-- The beginnings of a path, the shortest first. -/
def beginnings (path : Path) : List Path := (List.range path.length).map fun n => path.take (n + 1)

/-- A folder is made with the folders around it, if it is not there. -/
def makeFolder (archive : Archive) (path : Path) : Writing :=
  match path.fault? with
  | some fault => (.error (.path fault), archive)
  | none =>
    match archive.ensureFolders (beginnings path) with
    | (.ok (), archive) =>
      match archive.entry path with
      | .ok (.file _) => (.error .taken, archive)
      | _ => (.ok (), archive)
    | failed => failed

end Archive

end Parley

import Parley.Text.Octets

/-! Paths of files, and the parts of a file's name.

A path is a list of names, from the root of an archive on. The suffix of a name begins at its last dot,
unless that dot is the first or the last character of the name; what stands before it is the stem. -/
namespace Parley

/-- The names from the root of an archive to a file. -/
abbrev Path : Type := List String

namespace Path

/-- The pieces of a text between slashes, empty ones included. -/
def pieces : List Char → List (List Char)
  | [] => [[]]
  | '/' :: s => [] :: pieces s
  | c :: s =>
    match pieces s with
    | [] => [[c]]
    | piece :: rest => (c :: piece) :: rest

/-- The path that a text writes; empty names and single dots say nothing. -/
def ofText (text : String) : Path :=
  ((pieces text.toList).filter fun piece => !piece.isEmpty && piece != ['.']).map String.ofList

/-- A path as a text. -/
def text (path : Path) : String := String.intercalate "/" path

/-- Why no file can have a path. -/
inductive Fault where
  | unwritable (halves : Text.Unwritable)
  /-- The path holds the character NUL. -/
  | nul
  deriving DecidableEq, Repr

/-- What keeps files from having a path. -/
def fault? (path : Path) : Option Fault :=
  match Text.nameFault? path.text with
  | some halves => some (.unwritable halves)
  | none => if path.text.contains '\x00' then some .nul else none

/-- The last name of a path. -/
def name (path : Path) : String := path.getLastD ""

/-- The path of the folder of a file. -/
def parent (path : Path) : Path := path.dropLast

/-- The stem and the suffix of a name. -/
def split (name : List Char) : List Char × List Char :=
  let after := (name.reverse.takeWhile (· != '.')).reverse
  let before := (name.reverse.dropWhile (· != '.')).reverse.dropLast
  if after.isEmpty || before.isEmpty then (name, []) else (before, '.' :: after)

/-- The stem of the last name. -/
def stem (path : Path) : String := String.ofList (split path.name.toList).1

/-- The suffix of the last name, empty if it has none. -/
def suffix (path : Path) : String := String.ofList (split path.name.toList).2

/-- The path with another suffix for its last name. -/
def withSuffix (path : Path) (suffix : String) : Path := path.parent ++ [path.stem ++ suffix]

end Path

end Parley

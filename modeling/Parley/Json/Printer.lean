import Parley.Json.Basic
import Parley.Text.Half
import Parley.Text.Hex

/-! Writing JSON text.

A value is written over several lines, two more spaces of indentation for each level, with every
character outside printable ASCII escaped. Each number is written exactly: a double-precision number as
all its decimal digits. -/
namespace Parley.Json

/-- The escape of one UTF-16 unit. -/
def unitEscape (unit : Nat) : List Char := '\\' :: 'u' :: Text.hex 4 unit

/-- A code point as it stands in a string. -/
def escaped (code : Nat) : List Char :=
  match Char.ofNat code with
  | '"' => ['\\', '"']
  | '\\' => ['\\', '\\']
  | '\n' => ['\\', 'n']
  | '\r' => ['\\', 'r']
  | '\t' => ['\\', 't']
  | '\x0C' => ['\\', 'f']
  | '\x08' => ['\\', 'b']
  | c =>
    if 0x20 ≤ code ∧ code ≤ 0x7E then [c]
    else if code < 0x10000 then unitEscape code
    else
      let offset := code - 0x10000
      unitEscape (0xD800 + offset / 0x400) ++ unitEscape (0xDC00 + offset % 0x400)

/-- A string with its quotes. -/
def quoted (s : String) : String := String.ofList ('"' :: (Text.codes s.toList).flatMap escaped ++ ['"'])

/-- A double-precision number, to its last decimal place. -/
def exactly (x : Binary64) : String :=
  if x.isNaN then "NaN"
  else
    let sign := if x.negative then "-" else ""
    if !x.isFinite then sign ++ "Infinity"
    else if 0 ≤ x.unit then s!"{sign}{x.significand * Nat.pow 2 x.unit.toNat}.0"
    else s!"{sign}{x.significand * Nat.pow 5 x.unit.natAbs}e{x.unit}"

/-- A line break, and the spaces of a level. -/
def newline (level : Nat) : String := "\n" ++ "".pushn ' ' (2 * level)

/-- Texts between brackets, each on a line of its own; nothing is written between the brackets of none. -/
def block (opening closing : String) (level : Nat) (texts : List String) : String :=
  if texts.isEmpty then opening ++ closing
  else
    opening ++ newline (level + 1) ++ String.intercalate ("," ++ newline (level + 1)) texts ++
      newline level ++ closing

mutual

/-- A value whose first line is already indented. -/
def writeAt (level : Nat) : Json → String
  | null => "null"
  | bool b => if b then "true" else "false"
  | int n => toString n
  | real x => exactly x
  | str s => quoted s
  | arr items => block "[" "]" level (writeItems (level + 1) items)
  | obj fields => block "\x7b" "\x7d" level (writeFields (level + 1) fields)

/-- The items of an array. -/
def writeItems (level : Nat) : List Json → List String
  | [] => []
  | item :: items => writeAt level item :: writeItems level items

/-- The fields of an object. -/
def writeFields (level : Nat) : List (String × Json) → List String
  | [] => []
  | (key, value) :: fields => (quoted key ++ ": " ++ writeAt level value) :: writeFields level fields

end

/-- The text of a value. -/
def write (value : Json) : String := writeAt 0 value

end Parley.Json

import Parley.Text.Half
import Parley.Text.Hex
import Parley.Text.Printable

/-! Text quoted for a message.

A text stands between single quotes, or between double quotes when it holds a single quote and no
double quote. The quote in use, the backslash, and the characters that cannot be shown as they are
stand escaped. -/
namespace Parley.Text

/-- The quotation mark for a text: double only where that saves an escape. -/
def quoteMark (s : List Char) : Char :=
  if s.contains '\'' && !s.contains '"' then '"' else '\''

/-- A code point inside quotes of the kind `mark`. A lone half is no character, so it is escaped. -/
def escaped (mark : Char) (code : Nat) : List Char :=
  let c := Char.ofNat code
  if c == mark || c == '\\' then ['\\', c]
  else if c == '\n' then ['\\', 'n']
  else if c == '\r' then ['\\', 'r']
  else if c == '\t' then ['\\', 't']
  else if isPrintable c then [c]
  else if code < 0x100 then '\\' :: 'x' :: hex 2 code
  else if code < 0x10000 then '\\' :: 'u' :: hex 4 code
  else '\\' :: 'U' :: hex 8 code

/-- A text in quotes. -/
def quoted (s : List Char) : List Char :=
  let mark := quoteMark s
  mark :: (codes s).flatMap (escaped mark) ++ [mark]

/-- A text in quotes, as it stands in messages. -/
def quote (s : String) : String := String.ofList (quoted s.toList)

end Parley.Text

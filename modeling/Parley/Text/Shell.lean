/-! Words as a command line gives them.

Words are kept apart by spaces, tabs, carriage returns and line feeds. Between single quotes
everything stands for itself; between double quotes a backslash gives up its meaning except before a
double quote or another backslash; outside quotes a backslash takes the character after it as it is.
Quotes may stand inside a word, and quotes around nothing are an empty word. -/
namespace Parley.Text.Shell

/-- Why a text is not a list of words. -/
inductive Fault where
  /-- A quotation mark is never matched. -/
  | openQuote
  /-- The text ends in a backslash that takes nothing. -/
  | danglingEscape
  deriving DecidableEq, Repr

def Fault.message : Fault → String
  | .openQuote => "No closing quotation"
  | .danglingEscape => "No escaped character"

/-- The characters between words. -/
def isGap (c : Char) : Bool := c == ' ' || c == '\t' || c == '\r' || c == '\n'

/-- Where the reader stands, with the word read so far. -/
inductive Mode where
  | between
  | bare (word : List Char)
  | single (word : List Char)
  | double (word : List Char)
  | escape (word : List Char)
  | doubleEscape (word : List Char)
  deriving DecidableEq, Repr

/-- Outside quotes, with `word` read so far if a word has begun. -/
def outside (word : List Char) (c : Char) : Mode :=
  if c == '\'' then .single word
  else if c == '"' then .double word
  else if c == '\\' then .escape word
  else .bare (word ++ [c])

/-- The words of a text read on from a mode. -/
def wordsFrom : Mode → List Char → Except Fault (List (List Char))
  | .between, [] => .ok []
  | .bare word, [] => .ok [word]
  | .single _, [] => .error .openQuote
  | .double _, [] => .error .openQuote
  | .escape _, [] => .error .danglingEscape
  | .doubleEscape _, [] => .error .danglingEscape
  | .between, c :: s => if isGap c then wordsFrom .between s else wordsFrom (outside [] c) s
  | .bare word, c :: s =>
    if isGap c then (wordsFrom .between s).map (word :: ·) else wordsFrom (outside word c) s
  | .single word, c :: s => if c == '\'' then wordsFrom (.bare word) s else wordsFrom (.single (word ++ [c])) s
  | .double word, c :: s =>
    if c == '"' then wordsFrom (.bare word) s
    else if c == '\\' then wordsFrom (.doubleEscape word) s
    else wordsFrom (.double (word ++ [c])) s
  | .escape word, c :: s => wordsFrom (.bare (word ++ [c])) s
  | .doubleEscape word, c :: s =>
    if c == '"' || c == '\\' then wordsFrom (.double (word ++ [c])) s
    else wordsFrom (.double (word ++ ['\\', c])) s

/-- The words of a text. -/
def words (s : List Char) : Except Fault (List (List Char)) := wordsFrom .between s

end Parley.Text.Shell

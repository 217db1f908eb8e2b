import Parley.Json.Basic
import Parley.Number.Reading
import Parley.Text.Half
import Parley.Text.Lead

/-! Reading JSON text.

The grammar is the usual one, with the three numerals `NaN`, `Infinity` and `-Infinity` added. A key that
comes again in an object gives the last value. A number with a fraction or an exponent is a
double-precision number, any other an integer. -/
namespace Parley.Json

/-- Why a text is not read. -/
inductive Fault where
  /-- The text is not JSON. -/
  | malformed
  /-- An integer has more digits than are read. -/
  | longInteger (digits : Nat)
  /-- An array or an object stands within more others than are gone into. -/
  | tooDeep (container : String)
  deriving DecidableEq, Repr

def Fault.message : Fault → String
  | .malformed => "malformed JSON"
  | .longInteger digits =>
    s!"Exceeds the limit ({Reading.mostDigits} digits) for integer string conversion: " ++
      s!"value has {digits} digits; use sys.set_int_max_str_digits() to increase the limit"
  | .tooDeep container =>
    s!"maximum recursion depth exceeded while decoding a JSON {container} from a unicode string"

/-- White space between tokens. -/
def isGap (c : Char) : Bool := c == ' ' || c == '\t' || c == '\n' || c == '\r'

def skipGap (s : List Char) : List Char := s.dropWhile isGap

/-! ### Strings -/

/-- The value of a hexadecimal digit. -/
def hexDigit? (c : Char) : Option Nat :=
  if c.isDigit then some (c.toNat - 0x30)
  else if 'a' ≤ c ∧ c ≤ 'f' then some (c.toNat - 0x57)
  else if 'A' ≤ c ∧ c ≤ 'F' then some (c.toNat - 0x37)
  else none

/-- The value of four hexadecimal digits. -/
def unit? (a b c d : Char) : Option Nat := do
  let a ← hexDigit? a
  let b ← hexDigit? b
  let c ← hexDigit? c
  let d ← hexDigit? d
  return ((a * 16 + b) * 16 + c) * 16 + d

/-- What a character after a backslash stands for. -/
def escape? : Char → Option Char
  | '"' => some '"'
  | '\\' => some '\\'
  | '/' => some '/'
  | 'b' => some '\x08'
  | 'f' => some '\x0C'
  | 'n' => some '\n'
  | 'r' => some '\r'
  | 't' => some '\t'
  | _ => none

/-- The code units of a string after its opening quote, and the text after its closing quote. -/
def stringUnits : List Char → Option (List Nat × List Char)
  | [] => none
  | '"' :: s => some ([], s)
  | '\\' :: 'u' :: a :: b :: c :: d :: s => do
    let unit ← unit? a b c d
    let (units, rest) ← stringUnits s
    return (unit :: units, rest)
  | '\\' :: e :: s => do
    let c ← escape? e
    let (units, rest) ← stringUnits s
    return (c.toNat :: units, rest)
  | c :: s =>
    if c.toNat < 0x20 || c == '\\' then none
    else (stringUnits s).map fun (units, rest) => (c.toNat :: units, rest)

/-- A code unit that is not part of a pair. A character stands as it is, being spelled already. -/
def ofUnit (unit : Nat) : List Char := if Text.isHalf unit then Text.spell unit else [Char.ofNat unit]

/-- The text of code units, a high half and the low half after it being one character. -/
def ofUnits : List Nat → List Char
  | [] => []
  | high :: low :: rest =>
    if Text.isHighHalf high && Text.isLowHalf low then Text.spell (Text.ofPair high low) ++ ofUnits rest
    else ofUnit high ++ ofUnits (low :: rest)
  | [unit] => ofUnit unit

/-- A string after its opening quote. -/
def readString (s : List Char) : Except Fault (String × List Char) :=
  match stringUnits s with
  | some (units, rest) => .ok (String.ofList (ofUnits units), rest)
  | none => .error .malformed

/-! ### Numbers -/

/-- The digits after a decimal point, if a point with digits follows. -/
def fraction? : List Char → Option (List Char × List Char)
  | '.' :: s =>
    let digits := s.takeWhile Char.isDigit
    if digits.isEmpty then none else some (digits, s.dropWhile Char.isDigit)
  | _ => none

/-- The exponent, if one follows. -/
def exponent? : List Char → Option (Int × List Char)
  | c :: s =>
    if c == 'e' || c == 'E' then
      let (negative, s) := Reading.signed s
      let digits := s.takeWhile Char.isDigit
      if digits.isEmpty then none
      else
        let n : Int := Reading.digitsValue digits
        some (if negative then -n else n, s.dropWhile Char.isDigit)
    else none
  | [] => none

/-- The digits before the point: a zero alone, or digits that do not begin with one. -/
def whole? : List Char → Option (List Char × List Char)
  | '0' :: s => some (['0'], s)
  | s =>
    let digits := s.takeWhile Char.isDigit
    if digits.isEmpty then none else some (digits, s.dropWhile Char.isDigit)

/-- A number whose sign has been read. -/
def readNumber (negative : Bool) (s : List Char) : Except Fault (Json × List Char) :=
  match whole? s with
  | none => .error .malformed
  | some (whole, s) =>
    match fraction? s, exponent? ((fraction? s).elim s Prod.snd) with
    | none, none =>
      if Reading.mostDigits < whole.length then .error (.longInteger whole.length)
      else
        let n : Int := Reading.digitsValue whole
        .ok (int (if negative then -n else n), s)
    | fraction, exponent =>
      let places := fraction.elim [] Prod.fst
      let power := exponent.elim 0 Prod.fst
      let rest := exponent.elim (fraction.elim s Prod.snd) Prod.snd
      .ok (real (.ofDecimal negative (Reading.digitsValue (whole ++ places)) (power - places.length)), rest)

/-! ### Values -/

/-- The values that are written as words. -/
def words : List (String × Json) :=
  [("null", null), ("true", bool true), ("false", bool false), ("NaN", real .nan),
   ("Infinity", real (.infinity false)), ("-Infinity", real (.infinity true))]

/-- A value that is written as a word. -/
def word? (s : List Char) : Option (Json × List Char) :=
  words.findSome? fun (word, value) => (Text.after? word.toList s).map fun rest => (value, rest)

mutual

/-- A value at the start of a text, and the text after it. Arrays and objects are gone into to a depth.
Every call spends some of the fuel. -/
def readValue : Nat → Nat → List Char → Except Fault (Json × List Char)
  | 0, _, _ => .error .malformed
  | fuel + 1, depth, s =>
    match depth, s with
    | _, '"' :: s => (readString s).map fun (text, rest) => (str text, rest)
    | 0, '[' :: _ => .error (.tooDeep "array")
    | 0, '{' :: _ => .error (.tooDeep "object")
    | depth + 1, '[' :: s =>
      match skipGap s with
      | ']' :: rest => .ok (arr [], rest)
      | s => (readItems fuel depth s).map fun (items, rest) => (arr items, rest)
    | depth + 1, '{' :: s =>
      match skipGap s with
      | '}' :: rest => .ok (obj [], rest)
      | s => (readFields fuel depth s).map fun (fields, rest) => (object fields, rest)
    | _, s =>
      match word? s with
      | some found => .ok found
      | none =>
        match s with
        | '-' :: s => readNumber true s
        | s => readNumber false s

/-- The items of an array up to its closing bracket. -/
def readItems : Nat → Nat → List Char → Except Fault (List Json × List Char)
  | 0, _, _ => .error .malformed
  | fuel + 1, depth, s => do
    let (item, s) ← readValue fuel depth s
    match skipGap s with
    | ']' :: rest => return ([item], rest)
    | ',' :: s =>
      let (items, rest) ← readItems fuel depth (skipGap s)
      return (item :: items, rest)
    | _ => .error .malformed

/-- The fields of an object up to its closing brace. -/
def readFields : Nat → Nat → List Char → Except Fault (List (String × Json) × List Char)
  | 0, _, _ => .error .malformed
  | fuel + 1, depth, s =>
    match s with
    | '"' :: s => do
      let (key, s) ← readString s
      match skipGap s with
      | ':' :: s =>
        let (value, s) ← readValue fuel depth (skipGap s)
        match skipGap s with
        | '}' :: rest => return ([(key, value)], rest)
        | ',' :: s =>
          let (fields, rest) ← readFields fuel depth (skipGap s)
          return ((key, value) :: fields, rest)
        | _ => .error .malformed
      | _ => .error .malformed
    | _ => .error .malformed

end

/-- The value that a text is, its arrays and objects gone into to a depth. A call that spends no character
is followed by one that does, so twice the length is fuel enough. -/
def readTo (depth : Nat) (text : String) : Except Fault Json :=
  let s := text.toList
  match readValue (2 * s.length + 2) depth (skipGap s) with
  | .error fault => .error fault
  | .ok (value, rest) => if (skipGap rest).isEmpty then .ok value else .error .malformed

/-- The value that a text is. No text is deeper than it is long. -/
def read (text : String) : Except Fault Json := readTo text.length text

end Parley.Json

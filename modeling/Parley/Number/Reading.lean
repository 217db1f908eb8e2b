import Parley.Text.Blank
import Parley.Number.Binary64

/-! Numbers and truth values read leniently from text.

These are the conversions that command arguments and loosely typed documents pass through. White space
around a numeral is ignored. Underscores may stand in it, each between two other characters. A whole number
may carry a fraction of zeros, and have zeros in front, which may even come before its minus sign. -/
namespace Parley.Reading

/-- White space around a numeral: the blanks other than the information separators. -/
def isSpace (c : Char) : Bool := Text.isBlank c && !(0x1C ≤ c.toNat && c.toNat ≤ 0x1F)

/-- A text without the white space around it. -/
def trimSpace (s : List Char) : List Char :=
  ((s.dropWhile isSpace).reverse.dropWhile isSpace).reverse

/-- The text without its underscores, each of which must stand between two other characters. -/
def dropUnderscores : List Char → Option (List Char)
  | [] => some []
  | '_' :: _ => none
  | c :: '_' :: d :: s => if d == '_' then none else (dropUnderscores (d :: s)).map (c :: ·)
  | c :: s => (dropUnderscores s).map (c :: ·)

/-- A sign and the text after it. -/
def signed : List Char → Bool × List Char
  | '-' :: s => (true, s)
  | '+' :: s => (false, s)
  | s => (false, s)

/-- The value of a run of digits. -/
def digitsValue (s : List Char) : Nat := s.foldl (fun n c => 10 * n + (c.toNat - 0x30)) 0

/-- The most digits that an integer is read from. -/
def mostDigits : Nat := 4300

/-- Whether a text is a point with zeros after it, or nothing. -/
def isZeroFraction : List Char → Bool
  | [] => true
  | '.' :: zeros => !zeros.isEmpty && zeros.all (· == '0')
  | _ => false

/-- A numeral without the zeros in front of it, among which any underscores may stand. Of a numeral that
has nothing else before its fraction, the last of them is left. -/
def dropZeros? : List Char → Option (List Char)
  | '0' :: s =>
    let last := (s.takeWhile fun c => c == '0' || c == '_').getLastD '0'
    match s.dropWhile fun c => c == '0' || c == '_' with
    | [] => some [last]
    | c :: rest =>
      if c == '.' then some (last :: c :: rest)
      else if c.isDigit || c == '-' then some (c :: rest)
      else none
  | c :: s => if c.isDigit then some (c :: s) else none
  | [] => none

/-- A whole number that has lost its sign, without zeros in front, a fraction of zeros, and underscores. -/
def bare? (s : List Char) : Option (List Char) := do
  let s ← dropZeros? s
  if isZeroFraction (s.dropWhile (· != '.')) then dropUnderscores (s.takeWhile (· != '.')) else none

/-- The value of digits, of which there are not too many, and no zero in front of others. -/
def natural? (s : List Char) : Option Nat :=
  if s.isEmpty || !s.all Char.isDigit || mostDigits < s.length || (s.head? == some '0' && s.length != 1) then
    none
  else some (digitsValue s)

/-- The value of digits, perhaps after a minus sign. -/
def digits? : List Char → Option Int
  | '-' :: s => (natural? s).map fun n => -(n : Int)
  | s => (natural? s).map fun n => (n : Int)

/-- An integer: a whole number after one sign, with white space around it. -/
def int? (text : String) : Option Int :=
  match trimSpace text.toList with
  | '-' :: s => (bare? s).bind fun s => digits? ('-' :: s)
  | '+' :: s => (bare? s).bind digits?
  | s => (bare? s).bind digits?

/-- The exponent after the mark, if the rest of a numeral is one; no rest is exponent zero. -/
def exponent? : List Char → Option Int
  | [] => some 0
  | c :: s =>
    if c == 'e' || c == 'E' then
      let (negative, digits) := signed s
      if !digits.isEmpty && digits.all Char.isDigit then
        let n := digitsValue digits
        some (if negative then -(n : Int) else n)
      else none
    else none

/-- A decimal numeral without its sign: digits on either side of a point, then perhaps an exponent. -/
def decimal? (negative : Bool) (s : List Char) : Option Binary64 :=
  let whole := s.takeWhile Char.isDigit
  let afterWhole := s.dropWhile Char.isDigit
  let (fraction, rest) :=
    match afterWhole with
    | '.' :: r => (r.takeWhile Char.isDigit, r.dropWhile Char.isDigit)
    | r => ([], r)
  if whole.isEmpty && fraction.isEmpty then none
  else
    (exponent? rest).map fun e =>
      Binary64.ofDecimal negative (digitsValue (whole ++ fraction)) (e - fraction.length)

/-- A double-precision number, in decimal or by the name of an infinity or of the number that is none. -/
def numeral? (s : List Char) : Option Binary64 :=
  let (negative, s) := signed s
  let word := s.map Char.toLower
  if word == "inf".toList || word == "infinity".toList then some (.infinity negative)
  else if word == "nan".toList then some .nan
  else decimal? negative s

/-- A numeral with white space around it, or else one with underscores. -/
def binary64? (text : String) : Option Binary64 :=
  (numeral? (trimSpace text.toList)).or ((dropUnderscores text.toList).bind numeral?)

/-- The words that stand for a truth value, in lower case. -/
def truthWords : List (String × Bool) :=
  [("1", true), ("true", true), ("t", true), ("yes", true), ("y", true), ("on", true),
   ("0", false), ("false", false), ("f", false), ("no", false), ("n", false), ("off", false)]

/-- A truth value: one of the words, in any letter case of ASCII, with nothing around it. -/
def bool? (text : String) : Option Bool :=
  let word := String.ofList (text.toList.map Char.toLower)
  (truthWords.find? (·.1 = word)).map Prod.snd

/-- Whether an integral number is small enough to be taken for an integer: strictly between the
sixty-fourth-bit limits. -/
def inWordRange (n : Int) : Bool := decide (-0x8000000000000000 < n) && decide (n < 0x8000000000000000)

end Parley.Reading

import Parley.Text.Ranges

/-! Blanks, trimming, and words between blanks.

The blanks are the twenty-nine characters that separate words in any script: the Unicode white
space characters and the four information separators. -/
namespace Parley.Text

/-- The blanks by code point. -/
def blankRanges : List (Nat × Nat) :=
  [(0x9, 0xD), (0x1C, 0x20), (0x85, 0x85), (0xA0, 0xA0), (0x1680, 0x1680), (0x2000, 0x200A),
   (0x2028, 0x2029), (0x202F, 0x202F), (0x205F, 0x205F), (0x3000, 0x3000)]

/-- White space of any script, and the information separators. -/
def isBlank (c : Char) : Bool := covers blankRanges c.toNat

/-- A text without its leading blanks. -/
def trimStart (s : List Char) : List Char := s.dropWhile isBlank

/-- A text without its trailing blanks. -/
def trimEnd (s : List Char) : List Char := (s.reverse.dropWhile isBlank).reverse

/-- A text without the blanks around it. -/
def trim (s : List Char) : List Char := trimEnd (trimStart s)

/-- The text between blanks, empty pieces included: one more piece than there are blanks. -/
def pieces : List Char → List (List Char)
  | [] => [[]]
  | c :: s =>
    if isBlank c then [] :: pieces s
    else
      match pieces s with
      | [] => [[c]]
      | w :: ws => (c :: w) :: ws

/-- The words of a text: the longest runs of it that hold no blank. -/
def words (s : List Char) : List (List Char) := (pieces s).filter (!·.isEmpty)

/-- Whether a text is one word: not empty, and without a blank. -/
def isToken (s : List Char) : Bool := !s.isEmpty && s.all (!isBlank ·)

theorem blankRanges_ascending : Ascending blankRanges := by simp [blankRanges, Ascending]

end Parley.Text

/-! Lone halves.

A character above U+FFFF is written by some encodings as a pair of code units, a high half and a low half.
A half that stands alone is no character, but a text may be written with one. Texts here are made of
characters, so a lone half is spelled with two of them: a mark, the last code point of plane thirteen,
which will never be a character, and the code point at the same place of that plane as the half has in the
first. The mark itself is spelled with two marks. Neither of the two is a letter, a blank or anything else
that a text is taken apart at. `codes_spell` says that what is spelled can be read back. -/
namespace Parley.Text

/-- Whether a code unit is the first half of a pair. -/
def isHighHalf (unit : Nat) : Bool := 0xD800 ≤ unit && unit ≤ 0xDBFF

/-- Whether a code unit is the second half of a pair. -/
def isLowHalf (unit : Nat) : Bool := 0xDC00 ≤ unit && unit ≤ 0xDFFF

/-- Whether a code unit is half of a pair. -/
def isHalf (unit : Nat) : Bool := 0xD800 ≤ unit && unit ≤ 0xDFFF

/-- The code point that a pair is. -/
def ofPair (high low : Nat) : Nat := 0x10000 + (high - 0xD800) * 0x400 + (low - 0xDC00)

/-- What a spelling of two characters begins with. -/
def mark : Char := Char.ofNat 0xDFFFF

/-- The first code point of plane thirteen. -/
def plane : Nat := 0xD0000

/-- A character as it is spelled. -/
def spellChar (c : Char) : List Char := if c = mark then [mark, mark] else [c]

/-- A code point as it is spelled, be it a character or a lone half. -/
def spell (code : Nat) : List Char :=
  if isHalf code then [mark, Char.ofNat (plane + code)] else spellChar (Char.ofNat code)

/-- The code points that are spelled. -/
def codes : List Char → List Nat
  | [] => []
  | [c] => [c.toNat]
  | c :: d :: s =>
    if c = mark then (if d = mark then mark.toNat else d.toNat - plane) :: codes s
    else c.toNat :: codes (d :: s)

/-- Characters, none of which stands for half of a pair, as they are spelled. -/
def spelled (s : List Char) : List Char := s.flatMap spellChar

theorem codes_cons {c : Char} (h : c ≠ mark) (s : List Char) : codes (c :: s) = c.toNat :: codes s := by
  cases s with
  | nil => rfl
  | cons d s => rw [codes, if_neg h]

theorem codes_spellChar (c : Char) (s : List Char) : codes (spellChar c ++ s) = c.toNat :: codes s := by
  unfold spellChar
  split
  · rename_i h
    subst h
    simp [codes]
  · rename_i h
    exact codes_cons h s

theorem toNat_ofNat {code : Nat} (h : code.isValidChar) : (Char.ofNat code).toNat = code := by
  rw [Char.ofNat, dif_pos h]
  rfl

/-- What is spelled can be read back, lone halves included. -/
theorem codes_spell {code : Nat} (h : isHalf code = true ∨ code.isValidChar) (s : List Char) :
    codes (spell code ++ s) = code :: codes s := by
  unfold spell
  split
  · rename_i hhalf
    have hbounds : 0xD800 ≤ code ∧ code ≤ 0xDFFF := by simpa [isHalf] using hhalf
    have hnat : (Char.ofNat (plane + code)).toNat = plane + code := by
      refine toNat_ofNat (.inr ?_)
      unfold plane
      omega
    show codes (mark :: Char.ofNat (plane + code) :: s) = _
    rw [codes, if_pos rfl]
    congr 1
    split
    · rename_i hmark
      have hcode : plane + code = 0xDFFFF := by rw [← hnat, hmark]; rfl
      have : code = 0xFFFF := by
        unfold plane at hcode
        omega
      omega
    · rw [hnat, Nat.add_sub_cancel_left]
  · rename_i hhalf
    have hvalid : code.isValidChar := h.resolve_left hhalf
    rw [codes_spellChar, toNat_ofNat hvalid]

/-- The code points of characters are those of the characters. -/
theorem codes_spelled (s : List Char) : codes (spelled s) = s.map Char.toNat := by
  induction s with
  | nil => rfl
  | cons c s ih =>
    show codes (spellChar c ++ spelled s) = _
    rw [codes_spellChar, ih, List.map_cons]

/-- A text spelled from characters. -/
def ofChars (s : String) : String := String.ofList (spelled s.toList)

/-- The characters that are spelled, with `substitute` for each lone half. -/
def withoutHalves (substitute : List Char) (s : String) : String :=
  String.ofList ((codes s.toList).flatMap fun code =>
    if isHalf code then substitute else spellChar (Char.ofNat code))

/-- Whether a text comes before another in the order of code points. Where nothing is marked, the order of
characters is that order; it is also the order of spellings of the same code points. -/
def comesBefore (a b : String) : Bool :=
  if a.contains mark || b.contains mark then
    codes a.toList < codes b.toList || (codes a.toList = codes b.toList && a < b)
  else a < b

end Parley.Text

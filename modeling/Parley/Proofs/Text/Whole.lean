import Parley.Text.Half
import Parley.Text.Word

/-! Texts without lone halves.

A text is whole if it is spelled from characters. Taking the halves out of a text leaves a whole text, and leaves
the whole texts as they are (`withoutHalves_eq_self_iff`). -/
namespace Parley.Text

/-- Whether a text is spelled from characters alone. -/
def IsWhole (s : String) : Prop := ∃ characters, s = ofChars characters

theorem spelled_append (a b : List Char) : spelled (a ++ b) = spelled a ++ spelled b := List.flatMap_append

/-- Where nothing is marked, characters stand as they are. -/
theorem spelled_of_not_mem {s : List Char} (h : mark ∉ s) : spelled s = s := by
  induction s with
  | nil => rfl
  | cons c s ih =>
    obtain ⟨hc, hs⟩ := not_or.mp (mt List.mem_cons.mpr h)
    show spellChar c ++ spelled s = c :: s
    rw [ih hs, spellChar, if_neg (Ne.symm hc), List.singleton_append]

theorem isWhole_of_not_mem {s : List Char} (h : mark ∉ s) : IsWhole (String.ofList s) :=
  ⟨String.ofList s, by rw [ofChars, String.toList_ofList, spelled_of_not_mem h]⟩

theorem isWord_mark : isWord mark = false := by decide +kernel

/-- Words are whole. -/
theorem isWhole_of_isWord {s : List Char} (h : s.all isWord = true) : IsWhole (String.ofList s) := by
  refine isWhole_of_not_mem fun hmark => ?_
  have hword := List.all_eq_true.mp h mark hmark
  rw [isWord_mark] at hword
  cases hword

/-! ### Taking halves out -/

variable {substitute : List Char}

theorem not_isHalf_toNat (c : Char) : isHalf c.toNat = false := by
  have hvalid : c.toNat < 0xD800 ∨ 0xDFFF < c.toNat ∧ c.toNat < 0x110000 := c.valid
  simp only [isHalf, Bool.and_eq_false_iff, decide_eq_false_iff_not]
  omega

/-- There is nothing to take out of a whole text. -/
theorem withoutHalves_ofChars (s : String) : withoutHalves substitute (ofChars s) = ofChars s := by
  have hstay : ∀ c : Char, (if isHalf c.toNat then substitute else spellChar (Char.ofNat c.toNat)) = spellChar c :=
    fun c => by rw [not_isHalf_toNat, Char.ofNat_toNat]; rfl
  rw [withoutHalves, ofChars, String.toList_ofList, codes_spelled, List.flatMap_map]
  simp only [hstay]
  rfl

/-- What is left when halves are taken out is whole, if what is put in their place is. -/
theorem isWhole_withoutHalves (h : mark ∉ substitute) (s : String) : IsWhole (withoutHalves substitute s) := by
  let chars (code : Nat) : List Char := if isHalf code then substitute else [Char.ofNat code]
  refine ⟨String.ofList ((codes s.toList).flatMap chars), ?_⟩
  rw [withoutHalves, ofChars, String.toList_ofList]
  congr 1
  induction codes s.toList with
  | nil => rfl
  | cons code rest ih =>
    rw [List.flatMap_cons, List.flatMap_cons, spelled_append, ih]
    congr 1
    by_cases hhalf : isHalf code = true
    · simp only [chars, hhalf, if_true, spelled_of_not_mem h]
    · simp only [chars, hhalf]
      exact (List.append_nil _).symm

/-- A text is whole exactly when there is nothing to take out. -/
theorem withoutHalves_eq_self_iff (h : mark ∉ substitute) {s : String} :
    withoutHalves substitute s = s ↔ IsWhole s := by
  constructor
  · intro heq
    exact heq ▸ isWhole_withoutHalves h s
  · rintro ⟨characters, rfl⟩
    exact withoutHalves_ofChars characters

end Parley.Text

/-! Classes of characters, given as ranges of code points.

A class is a list of closed ranges, ascending and apart. `covers` walks the list and stops at the
first range that begins above the code point, so the early ranges, where most text lives, are
found at once. -/
namespace Parley.Text

/-- Whether a code point lies in one of the ascending closed ranges. -/
def covers : List (Nat × Nat) → Nat → Bool
  | [], _ => false
  | (low, high) :: rest, n => if n < low then false else decide (n ≤ high) || covers rest n

/-- Every range is non-empty and ends before the next begins. -/
def Ascending : List (Nat × Nat) → Prop
  | [] => True
  | [r] => r.1 ≤ r.2
  | r :: s :: rest => r.1 ≤ r.2 ∧ r.2 < s.1 ∧ Ascending (s :: rest)

theorem Ascending.tail {r : Nat × Nat} {rest : List (Nat × Nat)} (h : Ascending (r :: rest)) :
    Ascending rest := by
  cases rest with
  | nil => trivial
  | cons s rest => exact h.2.2

/-- Later ranges of an ascending list lie above the first. -/
theorem Ascending.lt_low {r : Nat × Nat} {rest : List (Nat × Nat)} (h : Ascending (r :: rest)) :
    ∀ s ∈ rest, r.1 < s.1 := by
  induction rest generalizing r with
  | nil => intro s hs; cases hs
  | cons t rest ih =>
    intro s hs
    have ht : r.1 < t.1 := Nat.lt_of_le_of_lt h.1 h.2.1
    rcases List.mem_cons.mp hs with rfl | hs
    · exact ht
    · exact Nat.lt_trans ht (ih h.2.2 s hs)

/-- On an ascending list the walk decides membership in one of the ranges. -/
theorem covers_iff {ranges : List (Nat × Nat)} (h : Ascending ranges) (n : Nat) :
    covers ranges n = true ↔ ∃ r ∈ ranges, r.1 ≤ n ∧ n ≤ r.2 := by
  induction ranges with
  | nil => simp [covers]
  | cons r rest ih =>
    obtain ⟨low, high⟩ := r
    unfold covers
    by_cases hlow : n < low
    · rw [if_pos hlow]
      constructor
      · intro hf; cases hf
      · rintro ⟨s, hs, hle, _⟩
        rcases List.mem_cons.mp hs with rfl | hs
        · exact absurd hle (Nat.not_le_of_lt hlow)
        · exact absurd (Nat.lt_of_lt_of_le (h.lt_low s hs) hle) (Nat.not_lt_of_gt hlow)
    · rw [if_neg hlow, Bool.or_eq_true, decide_eq_true_eq, ih h.tail]
      constructor
      · rintro (hhigh | ⟨s, hs, hin⟩)
        · exact ⟨(low, high), List.mem_cons_self, Nat.le_of_not_lt hlow, hhigh⟩
        · exact ⟨s, List.mem_cons_of_mem _ hs, hin⟩
      · rintro ⟨s, hs, hle, hge⟩
        rcases List.mem_cons.mp hs with rfl | hs
        · exact .inl hge
        · exact .inr ⟨s, hs, hle, hge⟩

end Parley.Text

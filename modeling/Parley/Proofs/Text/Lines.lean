import Parley.Proofs.Text.Rows

/-! The lines of longer texts.

A text that ends a line can be followed by another: the lines are those of the one and those of the other
(`lines_append`). Apart from empty lines, the lines are what stands between single line breaks (`filter_lines`), and
which breaks they are does not matter (`lines_unifyBreaks`). -/
namespace Parley.Text

/-- A text ends in a line break, and what follows is not the rest of that break. -/
def EndsLine (s rest : List Char) : Prop :=
  ∃ front c, s = front ++ [c] ∧ isBreak c = true ∧ ¬(c = '\r' ∧ rest.head? = some '\n')

/-! ### One character -/

theorem lines_crlf (s : List Char) : lines ('\r' :: '\n' :: s) = [] :: lines s := rfl

theorem lines_break {c : Char} {s : List Char} (hc : isBreak c = true) (h : ¬(c = '\r' ∧ s.head? = some '\n')) :
    lines (c :: s) = [] :: lines s := by
  rw [lines.eq_3 c s, if_pos hc]
  rintro tail rfl rfl
  exact h ⟨rfl, rfl⟩

theorem lines_cons {c : Char} (hc : isBreak c = false) (s : List Char) : lines (c :: s) = consLine c (lines s) := by
  rw [lines.eq_3 c s, if_neg (by simp [hc])]
  rintro tail rfl
  exact absurd hc (by decide)

theorem lines_ne_nil {s : List Char} (h : s ≠ []) : lines s ≠ [] := by
  cases s using lines.fun_cases with
  | case1 => exact absurd rfl h
  | case2 s => simp [lines_crlf]
  | case3 c s hcrlf hc => simp [lines.eq_3 c s hcrlf, hc]
  | case4 c s hcrlf hc =>
    rw [lines.eq_3 c s hcrlf, if_neg hc]
    cases lines s <;> simp [consLine]

theorem consLine_append (c : Char) {a : List (List Char)} (h : a ≠ []) (b : List (List Char)) :
    consLine c (a ++ b) = consLine c a ++ b := by
  cases a with
  | nil => exact absurd rfl h
  | cons row rest => rfl

/-! ### One text after the other -/

/-- The lines of a text go on after the end of a line. -/
theorem lines_append {s rest : List Char} (h : EndsLine s rest) : lines (s ++ rest) = lines s ++ lines rest := by
  obtain ⟨front, c, rfl, hc, hrest⟩ := h
  rw [List.append_assoc, List.singleton_append]
  induction front using lines.induct with
  | case1 =>
    rw [List.nil_append, List.nil_append, lines_break hc hrest, lines_break hc (by simp)]
    rfl
  | case2 front ih => exact congrArg ([] :: ·) ih
  | case3 d front hcrlf hd ih =>
    -- a carriage return may be the whole front, with the line feed of its break after it
    by_cases hjoin : d = '\r' ∧ (front ++ [c]).head? = some '\n'
    · obtain ⟨rfl, hfeed⟩ := hjoin
      cases front with
      | nil =>
        obtain rfl : c = '\n' := by simpa using hfeed
        rfl
      | cons e front =>
        obtain rfl : e = '\n' := by simpa using hfeed
        exact absurd rfl (hcrlf front rfl)
    · have hhead : (front ++ c :: rest).head? = (front ++ [c]).head? := by cases front <;> rfl
      rw [List.cons_append, List.cons_append, lines_break hd hjoin, lines_break hd (hhead ▸ hjoin), ih]
      rfl
  | case4 d front hcrlf hd ih =>
    have hd : isBreak d = false := by simpa using hd
    rw [List.cons_append, List.cons_append, lines_cons hd, lines_cons hd, ih,
      consLine_append d (lines_ne_nil (by simp))]

/-! ### What stands between breaks -/

/-- A text broken at every single break begins with its first line. -/
theorem split_lines (s : List Char) : s = [] ∨ ∃ row rest others, lines s = row :: rest ∧
    s.splitOnP isBreak = row :: others ∧ rest.filter (!·.isEmpty) = others.filter (!·.isEmpty) := by
  induction s using lines.induct with
  | case1 => exact .inl rfl
  | case2 s ih =>
    have hsplit : ('\r' :: '\n' :: s).splitOnP isBreak = [] :: [] :: s.splitOnP isBreak := by
      simp [List.splitOnP_cons_eq_if_modifyHead, isBreak]
    refine .inr ⟨[], lines s, [] :: s.splitOnP isBreak, rfl, hsplit, ?_⟩
    rcases ih with rfl | ⟨row, rest, others, hlines, hothers, hrest⟩
    · rfl
    · simp [hlines, hothers, List.filter_cons, hrest]
  | case3 c s hcrlf hc ih =>
    have hsplit : (c :: s).splitOnP isBreak = [] :: s.splitOnP isBreak := by
      simp [List.splitOnP_cons_eq_if_modifyHead, hc]
    refine .inr ⟨[], lines s, s.splitOnP isBreak, ?_, hsplit, ?_⟩
    · rw [lines.eq_3 c s hcrlf, if_pos hc]
    · rcases ih with rfl | ⟨row, rest, others, hlines, hothers, hrest⟩
      · rfl
      · simp [hlines, hothers, List.filter_cons, hrest]
  | case4 c s hcrlf hc ih =>
    have hc : isBreak c = false := by simpa using hc
    rw [lines_cons hc, List.splitOnP_cons_eq_if_modifyHead, hc]
    rcases ih with rfl | ⟨row, rest, others, hlines, hothers, hrest⟩
    · exact .inr ⟨[c], [], [], rfl, rfl, rfl⟩
    · rw [hlines, hothers]
      exact .inr ⟨c :: row, rest, others, rfl, rfl, hrest⟩

/-- Apart from empty ones, the lines are what stands between breaks. -/
theorem filter_lines (s : List Char) :
    (lines s).filter (!·.isEmpty) = (s.splitOnP isBreak).filter (!·.isEmpty) := by
  rcases split_lines s with rfl | ⟨row, rest, others, hlines, hothers, hrest⟩
  · rfl
  · simp [hlines, hothers, List.filter_cons, hrest]

/-! ### Unified breaks -/

/-- A text with all its breaks made line feeds has the same lines. -/
theorem lines_unifyBreaks (s : List Char) : lines (unifyBreaks s) = lines s := by
  have hfeed : ∀ rest, lines ('\n' :: rest) = [] :: lines rest :=
    fun rest => lines_break (by decide) fun h => absurd h.1 (by decide)
  induction s using unifyBreaks.induct with
  | case1 => rfl
  | case2 s ih => rw [unifyBreaks, hfeed, lines_crlf, ih]
  | case3 s hcrlf ih =>
    have hreturn : ¬('\r' = '\r' ∧ s.head? = some '\n') := by
      rintro ⟨-, hhead⟩
      obtain ⟨tail, rfl⟩ := List.head?_eq_some_iff.mp hhead
      exact hcrlf tail rfl
    rw [unifyBreaks.eq_3 s hcrlf, hfeed, lines_break (by decide) hreturn, ih]
  | case4 c s hcrlf hcr ih =>
    have hreturn : c ≠ '\r' := hcr
    rw [unifyBreaks.eq_4 c s hcrlf hcr]
    cases hc : isBreak c with
    | false => rw [lines_cons hc, lines_cons hc, ih]
    | true => rw [lines_break hc fun h => hreturn h.1, lines_break hc fun h => hreturn h.1, ih]

end Parley.Text

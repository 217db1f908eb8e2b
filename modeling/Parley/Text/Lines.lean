/-! Text broken into lines.

A line ends at a line feed, a carriage return (with a line feed right after it, the two are one
break), a vertical tab, a form feed, one of the three larger information separators, the next-line
character, or a line or paragraph separator. A break ends the line before it; nothing after the last
break is no line. -/
namespace Parley.Text

/-- The characters that end a line. -/
def isBreak (c : Char) : Bool :=
  let n := c.toNat
  (0xA ≤ n && n ≤ 0xD) || (0x1C ≤ n && n ≤ 0x1E) || n == 0x85 || n == 0x2028 || n == 0x2029

/-- A character put in front of the first line. -/
def consLine (c : Char) : List (List Char) → List (List Char)
  | [] => [[c]]
  | l :: rest => (c :: l) :: rest

/-- The lines of a text, without their breaks. -/
def lines : List Char → List (List Char)
  | [] => []
  | '\r' :: '\n' :: s => [] :: lines s
  | c :: s => if isBreak c then [] :: lines s else consLine c (lines s)

/-- A text with every carriage return, and every carriage return and line feed, made one line feed. -/
def unifyBreaks : List Char → List Char
  | [] => []
  | '\r' :: '\n' :: s => '\n' :: unifyBreaks s
  | '\r' :: s => '\n' :: unifyBreaks s
  | c :: s => c :: unifyBreaks s

/-- No line holds a break. -/
theorem not_isBreak_of_mem_lines {s l : List Char} (h : l ∈ lines s) : ∀ c ∈ l, isBreak c = false := by
  induction s using lines.induct generalizing l with
  | case1 => simp [lines] at h
  | case2 s ih =>
    simp only [lines, List.mem_cons] at h
    rcases h with rfl | h
    · intro c hc; cases hc
    · exact ih h
  | case3 c s hcrlf hbreak ih =>
    rw [lines.eq_3 c s hcrlf, if_pos hbreak] at h
    rcases List.mem_cons.mp h with rfl | h
    · intro c hc; cases hc
    · exact ih h
  | case4 c s hcrlf hbreak ih =>
    rw [lines.eq_3 c s hcrlf, if_neg hbreak] at h
    have hc : isBreak c = false := by simpa using hbreak
    cases hls : lines s with
    | nil =>
      rw [hls] at h
      cases List.mem_singleton.mp h
      intro d hd
      cases List.mem_singleton.mp hd
      exact hc
    | cons l' rest =>
      rw [hls] at h ih
      rcases List.mem_cons.mp h with rfl | h
      · intro d hd
        rcases List.mem_cons.mp hd with rfl | hd
        · exact hc
        · exact ih List.mem_cons_self d hd
      · exact ih (List.mem_cons_of_mem _ h)

end Parley.Text

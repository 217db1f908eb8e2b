import Parley.Proofs.Text.Blank

/-! Rows: lines that end in a line feed. -/
namespace Parley.Text

/-- A text that holds no line break. -/
def Unbroken (s : List Char) : Prop := ∀ c ∈ s, isBreak c = false

instance (s : List Char) : Decidable (Unbroken s) :=
  decidable_of_iff (s.all (!isBreak ·) = true) (by simp [Unbroken])

theorem unbroken_append {a b : List Char} : Unbroken (a ++ b) ↔ Unbroken a ∧ Unbroken b :=
  List.forall_mem_append

theorem unbroken_of_no_blank {s : List Char} (h : ∀ c ∈ s, isBlank c = false) : Unbroken s :=
  fun c hc => isBreak_of_not_blank (h c hc)

/-- A row is the first line of a text that begins with it. -/
theorem lines_row {row : List Char} (h : Unbroken row) (s : List Char) :
    lines (row ++ '\n' :: s) = row :: lines s := by
  induction row with
  | nil =>
    have hbreak : isBreak '\n' = true := by decide
    rw [List.nil_append, lines.eq_3 _ _ (fun _ hr => absurd hr (by decide)), if_pos hbreak]
  | cons c row ih =>
    have hc : isBreak c = false := h c List.mem_cons_self
    -- a carriage return is a break, so this is not one before a line feed
    have hcrlf : ∀ tail, c = '\r' → row ++ '\n' :: s = '\n' :: tail → False := by
      rintro tail rfl
      exact absurd hc (by decide)
    have hrow : Unbroken row := fun d hd => h d (List.mem_cons_of_mem _ hd)
    rw [List.cons_append, lines.eq_3 _ _ hcrlf, hc, ih hrow]
    rfl

/-- The lines of a text of rows are its rows. -/
theorem lines_rows {rows : List (List Char)} (h : ∀ row ∈ rows, Unbroken row) :
    lines (rows.flatMap (· ++ ['\n'])) = rows := by
  induction rows with
  | nil => rfl
  | cons row rest ih =>
    obtain ⟨hrow, hrest⟩ := List.forall_mem_cons.mp h
    rw [List.flatMap_cons, List.append_assoc, List.singleton_append, lines_row hrow, ih hrest]

end Parley.Text

import Parley.Proofs.Text.Blank
import Parley.Text.Shell

/-! Quoting words for a command line.

A quoted word stands between single quotes, and each single quote in it is written by closing them, a single
quote between double quotes, and opening them again. Quoted words are read back as they were, whatever is in
them (`words_quoted`). -/
namespace Parley.Text.Shell

/-- A character between single quotes. -/
def quoteChar (c : Char) : List Char := if c = '\'' then ['\'', '"', '\'', '"', '\''] else [c]

/-- A word between single quotes. -/
def quote (word : List Char) : List Char := '\'' :: word.flatMap quoteChar ++ ['\'']

/-- A command line: a name, and quoted words after it. -/
def line (name : List Char) (arguments : List (List Char)) : List Char :=
  name ++ arguments.flatMap fun argument => ' ' :: quote argument

variable {word rest : List Char}

/-- Between single quotes, what is quoted goes to the end of the word. -/
theorem wordsFrom_quoted (read : List Char) (s rest : List Char) :
    wordsFrom (.single read) (s.flatMap quoteChar ++ '\'' :: rest) = wordsFrom (.bare (read ++ s)) rest := by
  induction s generalizing read with
  | nil => simp [wordsFrom]
  | cons c s ih =>
    rw [List.flatMap_cons, List.append_assoc]
    by_cases hc : c = '\''
    · -- the quote is read between double quotes, outside the single ones
      subst hc
      have hread := ih (read ++ ['\''])
      rw [List.append_assoc] at hread
      simpa [quoteChar, wordsFrom, outside, isGap] using hread
    · have hread := ih (read ++ [c])
      rw [List.append_assoc] at hread
      simpa [quoteChar, hc, wordsFrom] using hread

/-- The words after a word are read between them. -/
theorem wordsFrom_arguments (read : List Char) (arguments : List (List Char)) :
    wordsFrom (.bare read) (arguments.flatMap fun argument => ' ' :: quote argument) =
      .ok (read :: arguments) := by
  induction arguments generalizing read with
  | nil => rfl
  | cons argument rest ih =>
    have hquoted := wordsFrom_quoted [] argument (rest.flatMap fun argument => ' ' :: quote argument)
    rw [List.nil_append, ih argument] at hquoted
    have hrow : (argument :: rest).flatMap (fun argument => ' ' :: quote argument) =
        ' ' :: '\'' :: (argument.flatMap quoteChar ++
          '\'' :: rest.flatMap fun argument => ' ' :: quote argument) := by
      simp [quote]
    rw [hrow]
    -- the space ends the word before, and the quote opens the next
    show Except.map (read :: ·) (wordsFrom (.single []) _) = _
    rw [hquoted]
    rfl

/-- Whether a character stands for itself outside quotes. -/
def isBare (c : Char) : Bool := !isGap c && c != '\'' && c != '"' && c != '\\'

theorem outside_of_isBare {c : Char} (h : isBare c = true) (read : List Char) :
    outside read c = .bare (read ++ [c]) := by
  simp only [isBare, Bool.and_eq_true, bne_iff_ne] at h
  obtain ⟨⟨⟨-, hsingle⟩, hdouble⟩, hescape⟩ := h
  simp [outside, hsingle, hdouble, hescape]

theorem not_gap_of_isBare {c : Char} (h : isBare c = true) : isGap c = false := by
  simp only [isBare, Bool.and_eq_true, Bool.not_eq_true'] at h
  exact h.1.1.1

theorem wordsFrom_bare (read : List Char) (h : ∀ c ∈ word, isBare c = true) :
    wordsFrom (.bare read) (word ++ rest) = wordsFrom (.bare (read ++ word)) rest := by
  induction word generalizing read with
  | nil => simp
  | cons c word ih =>
    obtain ⟨hc, hword⟩ := List.forall_mem_cons.mp h
    have hread := ih (read ++ [c]) hword
    rw [List.append_assoc] at hread
    rw [List.cons_append, wordsFrom, not_gap_of_isBare hc, outside_of_isBare hc]
    exact hread

/-- **A command line gives the words that it is made of.** -/
theorem words_line {name : List Char} (hne : name ≠ []) (hname : ∀ c ∈ name, isBare c = true)
    (arguments : List (List Char)) : words (line name arguments) = .ok (name :: arguments) := by
  cases name with
  | nil => exact absurd rfl hne
  | cons c name =>
    obtain ⟨hc, hname⟩ := List.forall_mem_cons.mp hname
    rw [words, line, List.cons_append, wordsFrom, not_gap_of_isBare hc, outside_of_isBare hc]
    exact (wordsFrom_bare [c] hname).trans (wordsFrom_arguments (c :: name) arguments)

/-- A word character stands for itself. -/
theorem isBare_of_isWord {c : Char} (h : isWord c = true) : isBare c = true := by
  have hblank : isBlank c = false := isBlank_of_isWord h
  have hne : ∀ d, isWord d = false → c ≠ d := fun d hd => ne_of_isWord h hd
  have hgap : isGap c = false := by
    simp only [isGap, Bool.or_eq_false_iff, beq_eq_false_iff_ne]
    exact ⟨⟨⟨hne ' ' (by decide), hne '\t' (by decide)⟩, hne '\r' (by decide)⟩, hne '\n' (by decide)⟩
  simp only [isBare, hgap, Bool.not_false, Bool.true_and, Bool.and_eq_true, bne_iff_ne]
  exact ⟨⟨hne '\'' (by decide), hne '"' (by decide)⟩, hne '\\' (by decide)⟩

end Parley.Text.Shell

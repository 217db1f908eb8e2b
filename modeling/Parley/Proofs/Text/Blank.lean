import Parley.Text.Blank
import Parley.Text.Lines
import Parley.Text.Word

/-! Blanks at the ends of a text.

No word character is a blank (`isBlank_of_isWord`), and every character that ends a line is one
(`isBlank_of_isBreak`). A text is trimmed exactly if neither its first nor its last character is a blank
(`trim_eq_self_iff`). -/
namespace Parley.Text

/-! ### Runs of characters -/

section Runs

variable {α : Type} {p : α → Bool} {body rest : List α}

/-- A run goes up to the first member outside the class. -/
theorem takeWhile_run (hbody : ∀ a ∈ body, p a = true) (hrest : ∀ a ∈ rest.head?, p a = false) :
    (body ++ rest).takeWhile p = body := by
  rw [List.takeWhile_append_of_pos hbody]
  cases rest with
  | nil => exact List.append_nil body
  | cons a rest =>
    have ha : p a = false := hrest a rfl
    rw [List.takeWhile_cons, ha]
    exact List.append_nil body

theorem dropWhile_run (hbody : ∀ a ∈ body, p a = true) (hrest : ∀ a ∈ rest.head?, p a = false) :
    (body ++ rest).dropWhile p = rest := by
  rw [List.dropWhile_append_of_pos hbody]
  cases rest with
  | nil => rfl
  | cons a rest =>
    have ha : p a = false := hrest a rfl
    rw [List.dropWhile_cons, ha]
    rfl

/-- What holds of a member holds of whatever it is the first or the last of. -/
theorem forall_of_some {P : α → Prop} {a : α} (h : P a) : ∀ b ∈ some a, P b := by
  intro b hb
  cases hb
  exact h

/-- What holds of the first member of a list that is not empty holds of it in a longer one. -/
theorem forall_head_append {P : α → Prop} (hne : body ≠ []) (h : ∀ a ∈ body.head?, P a) :
    ∀ a ∈ (body ++ rest).head?, P a := by
  cases body with
  | nil => exact absurd rfl hne
  | cons a body => exact h

theorem forall_last_append {P : α → Prop} (hne : rest ≠ []) (h : ∀ a ∈ rest.getLast?, P a) :
    ∀ a ∈ (body ++ rest).getLast?, P a := by
  rw [← List.head?_reverse, List.reverse_append]
  rw [← List.head?_reverse] at h
  exact forall_head_append (fun hnil => hne (List.reverse_eq_nil_iff.mp hnil)) h

end Runs

/-! ### Classes of characters -/

/-- The blanks, one by one. -/
def blankCodes : List Nat := blankRanges.flatMap fun r => List.range' r.1 (r.2 + 1 - r.1)

theorem mem_blankCodes {c : Char} (h : isBlank c = true) : c.toNat ∈ blankCodes := by
  obtain ⟨r, hr, hlow, hhigh⟩ := (covers_iff blankRanges_ascending c.toNat).mp h
  refine List.mem_flatMap.mpr ⟨r, hr, List.mem_range'_1.mpr ⟨hlow, ?_⟩⟩
  omega

theorem not_word_of_blankCode : ∀ n ∈ blankCodes, covers wordRanges n = false := by decide +kernel

theorem isWord_of_isBlank {c : Char} (h : isBlank c = true) : isWord c = false :=
  not_word_of_blankCode c.toNat (mem_blankCodes h)

theorem isBlank_of_isWord {c : Char} (h : isWord c = true) : isBlank c = false := by
  cases hblank : isBlank c with
  | false => rfl
  | true =>
    rw [isWord_of_isBlank hblank] at h
    nomatch h

theorem ne_of_isWord {c d : Char} (hc : isWord c = true) (hd : isWord d = false) : c ≠ d := by
  rintro rfl
  rw [hc] at hd
  nomatch hd

/-- The characters that end a line are blanks. -/
theorem isBlank_of_isBreak {c : Char} (h : isBreak c = true) : isBlank c = true := by
  refine (covers_iff blankRanges_ascending c.toNat).mpr ?_
  simp only [isBreak, Bool.or_eq_true, Bool.and_eq_true, decide_eq_true_eq, beq_iff_eq] at h
  rcases h with (((h | h) | h) | h) | h
  · exact ⟨(0x9, 0xD), by decide, by omega, h.2⟩
  · exact ⟨(0x1C, 0x20), by decide, h.1, by omega⟩
  · exact ⟨(0x85, 0x85), by decide, by omega, by omega⟩
  · exact ⟨(0x2028, 0x2029), by decide, by omega, by omega⟩
  · exact ⟨(0x2028, 0x2029), by decide, by omega, by omega⟩

theorem isBreak_of_not_blank {c : Char} (h : isBlank c = false) : isBreak c = false := by
  cases hbreak : isBreak c with
  | false => rfl
  | true =>
    rw [isBlank_of_isBreak hbreak] at h
    nomatch h

/-! ### Trimming -/

theorem trimStart_of_head {s : List Char} (h : ∀ c ∈ s.head?, isBlank c = false) : trimStart s = s := by
  show ([] ++ s).dropWhile isBlank = s
  exact dropWhile_run (fun _ hc => nomatch hc) h

theorem trimStart_append {gap : List Char} (s : List Char) (h : ∀ c ∈ gap, isBlank c = true) :
    trimStart (gap ++ s) = trimStart s :=
  List.dropWhile_append_of_pos h

theorem head_trimStart (s : List Char) : ∀ c ∈ (trimStart s).head?, isBlank c = false := by
  induction s with
  | nil => exact fun _ hc => nomatch hc
  | cons c s ih =>
    cases hc : isBlank c with
    | true =>
      have hgap : ∀ d ∈ [c], isBlank d = true := fun d hd => List.mem_singleton.mp hd ▸ hc
      have hdrop : trimStart (c :: s) = trimStart s := trimStart_append s hgap
      rw [hdrop]
      exact ih
    | false =>
      have hhead : ∀ d ∈ (c :: s).head?, isBlank d = false := by simpa using hc
      rw [trimStart_of_head hhead]
      exact hhead

theorem trimEnd_eq (s : List Char) : trimEnd s = (trimStart s.reverse).reverse := rfl

theorem trimEnd_of_last {s : List Char} (h : ∀ c ∈ s.getLast?, isBlank c = false) : trimEnd s = s := by
  rw [trimEnd_eq, trimStart_of_head, List.reverse_reverse]
  rw [List.head?_reverse]
  exact h

theorem trimEnd_append {gap : List Char} (s : List Char) (h : ∀ c ∈ gap, isBlank c = true) :
    trimEnd (s ++ gap) = trimEnd s := by
  rw [trimEnd_eq, List.reverse_append, trimStart_append, ← trimEnd_eq]
  intro c hc
  exact h c (List.mem_reverse.mp hc)

theorem last_trimEnd (s : List Char) : ∀ c ∈ (trimEnd s).getLast?, isBlank c = false := by
  rw [trimEnd_eq, List.getLast?_reverse]
  exact head_trimStart s.reverse

/-- What is trimmed off at the front is blank. -/
theorem exists_lead (s : List Char) : ∃ gap, s = gap ++ trimStart s ∧ ∀ c ∈ gap, isBlank c = true :=
  ⟨s.takeWhile isBlank, List.takeWhile_append_dropWhile.symm, List.all_eq_true.mp List.all_takeWhile⟩

/-- What is trimmed off at the end is blank. -/
theorem exists_gap (s : List Char) : ∃ gap, s = trimEnd s ++ gap ∧ ∀ c ∈ gap, isBlank c = true := by
  obtain ⟨lead, hlead, hblank⟩ := exists_lead s.reverse
  refine ⟨lead.reverse, ?_, fun c hc => hblank c (List.mem_reverse.mp hc)⟩
  rw [trimEnd_eq, ← List.reverse_append, ← hlead, List.reverse_reverse]

theorem blank_space : ∀ c ∈ [' '], isBlank c = true :=
  List.forall_mem_singleton.mpr (by decide)

@[simp] theorem trimStart_space (s : List Char) : trimStart (' ' :: s) = trimStart s :=
  trimStart_append s blank_space

@[simp] theorem trimEnd_space (s : List Char) : trimEnd (s ++ [' ']) = trimEnd s :=
  trimEnd_append s blank_space

theorem trim_of_ends {s : List Char} (hhead : ∀ c ∈ s.head?, isBlank c = false)
    (hlast : ∀ c ∈ s.getLast?, isBlank c = false) : trim s = s := by
  rw [trim, trimStart_of_head hhead, trimEnd_of_last hlast]

theorem length_trimStart_le (s : List Char) : (trimStart s).length ≤ s.length :=
  (List.dropWhile_sublist _).length_le

/-- A trimmed text has no blank at either end. -/
theorem trim_eq_self_iff {s : List Char} :
    trim s = s ↔ (∀ c ∈ s.head?, isBlank c = false) ∧ ∀ c ∈ s.getLast?, isBlank c = false := by
  refine ⟨fun h => ?_, fun h => trim_of_ends h.1 h.2⟩
  have hlast : ∀ c ∈ s.getLast?, isBlank c = false := by
    have hends := last_trimEnd (trimStart s)
    rw [← trim, h] at hends
    exact hends
  -- trimming the end cannot give back what trimming the start has dropped
  have hsame : trimStart s = s := by
    refine (List.dropWhile_sublist _).eq_of_length_le ?_
    have hlength := congrArg List.length h
    have hend : (trimEnd (trimStart s)).length ≤ (trimStart s).length := by
      rw [trimEnd_eq, List.length_reverse]
      exact Nat.le_trans (length_trimStart_le _) (Nat.le_of_eq List.length_reverse)
    rw [trim] at hlength
    exact Nat.le_trans (Nat.le_of_eq hlength.symm) hend
  have hhead := head_trimStart s
  rw [hsame] at hhead
  exact ⟨hhead, hlast⟩

theorem trim_trim (s : List Char) : trim (trim s) = trim s := by
  refine trim_of_ends (fun c hc => head_trimStart s c ?_) (last_trimEnd _)
  obtain ⟨gap, hgap, -⟩ := exists_gap (trimStart s)
  rw [hgap, List.head?_append, ← trim, Option.mem_def.mp hc]
  rfl

theorem trim_append {a b : List Char} (ha : a ≠ []) (hb : b ≠ []) (hhead : ∀ c ∈ a.head?, isBlank c = false)
    (hlast : ∀ c ∈ b.getLast?, isBlank c = false) : trim (a ++ b) = a ++ b :=
  trim_of_ends (forall_head_append ha hhead) (forall_last_append hb hlast)

/-- A token is trimmed. -/
theorem trim_of_no_blank {s : List Char} (h : ∀ c ∈ s, isBlank c = false) : trim s = s :=
  trim_of_ends (fun c hc => h c (List.mem_of_mem_head? hc)) fun c hc => h c (List.mem_of_getLast? hc)

/-! ### Cutting words -/

theorem cutWord?_of_head {β : Type} {accept : List Char → Option β} {s : List Char}
    (h : ∀ c ∈ s.head?, isWord c = false) : cutWord? accept s = none := by
  cases s with
  | nil => rfl
  | cons c s =>
    have hc : ¬isWord c = true := by simpa using h c rfl
    unfold cutWord?
    rw [if_neg hc]

/-- A word is cut off before what is accepted if no longer one is. -/
theorem cutWord?_longest {β : Type} {accept : List Char → Option β} {word rest : List Char} {found : β}
    (hne : word ≠ []) (hword : ∀ c ∈ word, isWord c = true) (hlonger : cutWord? accept rest = none)
    (haccept : accept rest = some found) : cutWord? accept (word ++ rest) = some (word, found) := by
  induction word with
  | nil => exact absurd rfl hne
  | cons c word ih =>
    have hc : isWord c = true := hword c List.mem_cons_self
    rw [List.cons_append, cutWord?, if_pos hc]
    cases word with
    | nil =>
      rw [List.nil_append, hlonger, haccept]
      rfl
    | cons d word =>
      rw [ih (List.cons_ne_nil _ _) fun e he => hword e (List.mem_cons_of_mem _ he)]

/-- A whole word is cut off if what follows it is accepted. -/
theorem cutWord?_run {β : Type} {accept : List Char → Option β} {word rest : List Char} {found : β}
    (hne : word ≠ []) (hword : ∀ c ∈ word, isWord c = true) (hrest : ∀ c ∈ rest.head?, isWord c = false)
    (haccept : accept rest = some found) : cutWord? accept (word ++ rest) = some (word, found) :=
  cutWord?_longest hne hword (cutWord?_of_head hrest) haccept

end Parley.Text

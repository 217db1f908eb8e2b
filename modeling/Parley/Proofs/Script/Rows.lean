import Parley.Proofs.Script.Option

/-! The rows of lines matter as they stand.

A row of a body is taken as it is if it is trimmed, on one line, no comment and not the edge of a body
(`BodyRow`). Every row of a line is one (`Line.Printable.bodyRow`). -/
namespace Parley

open Script Text

variable {ι : Type}

namespace Script

/-! ### Rows that matter -/

/-- A row of a body as it stands: trimmed, on one line, no comment, and not the edge of a body. -/
structure BodyRow (row : List Char) : Prop where
  ne : row ≠ []
  trimmed : trim row = row
  unbroken : Unbroken row
  not_comment : ¬['/', '/'] <+: row
  not_opening : row ≠ ['-', '-', '-']
  not_closing : row ≠ ['=', '=', '=']

theorem bodyRow_bracketed {inner : List Char} (h : Unbroken inner) : BodyRow (bracketed inner) where
  ne := List.cons_ne_nil _ _
  trimmed := by
    show trim (['<', '<'] ++ (inner ++ ['>', '>'])) = ['<', '<'] ++ (inner ++ ['>', '>'])
    exact trim_append (List.cons_ne_nil _ _) (List.append_ne_nil_of_right_ne_nil _ (List.cons_ne_nil _ _))
      (forall_of_some (by decide)) (forall_last_append (List.cons_ne_nil _ _) (forall_of_some (by decide)))
  unbroken := by
    show Unbroken (['<', '<'] ++ (inner ++ ['>', '>']))
    have hopen : Unbroken ['<', '<'] := by decide
    have hclose : Unbroken ['>', '>'] := by decide
    exact unbroken_append.mpr ⟨hopen, unbroken_append.mpr ⟨h, hclose⟩⟩
  not_comment := fun hfront => absurd (List.cons_prefix_cons.mp hfront).1 (by decide)
  not_opening := fun heq => absurd (List.cons.inj heq).1 (by decide)
  not_closing := fun heq => absurd (List.cons.inj heq).1 (by decide)

theorem unbroken_truthWord (value : Bool) : Unbroken (truthWord value) := by
  cases value with
  | false => decide
  | true => decide

theorem unbroken_of_isWordText {s : List Char} (h : isWordText s = true) : Unbroken s :=
  unbroken_of_no_blank (not_blank_of_isWordText h)

theorem bodyRow_assignRow {variableName : String} (h : isWordText variableName.toList = true) (value : Bool) :
    BodyRow (assignRow variableName value) := by
  have hset : Unbroken ['s', 'e', 't', ' ', '$'] := by decide
  have hto : Unbroken [' ', 't', 'o', ' '] := by decide
  exact bodyRow_bracketed (unbroken_append.mpr ⟨hset, unbroken_append.mpr
    ⟨unbroken_of_isWordText h, unbroken_append.mpr ⟨hto, unbroken_truthWord value⟩⟩⟩)

theorem bodyRow_jumpRow {target : String} (h : isTitle target.toList = true) : BodyRow (jumpRow target) := by
  have hjump : Unbroken ['j', 'u', 'm', 'p', ' '] := by decide
  exact bodyRow_bracketed (unbroken_append.mpr ⟨hjump, unbroken_of_no_blank (not_blank_of_isTitle h)⟩)

theorem unbroken_quote {word : List Char} (h : Unbroken word) : Unbroken (Shell.quote word) := by
  have hquote : Unbroken ['\''] := by decide
  have hword : Unbroken (word.flatMap Shell.quoteChar) := by
    intro c hc
    obtain ⟨d, hd, hquoted⟩ := List.mem_flatMap.mp hc
    unfold Shell.quoteChar at hquoted
    split at hquoted
    · have hall : Unbroken ['\'', '"', '\'', '"', '\''] := by decide
      exact hall c hquoted
    · rw [List.mem_singleton.mp hquoted]
      exact h d hd
  exact unbroken_append.mpr ⟨unbroken_append.mpr ⟨hquote, hword⟩, hquote⟩

theorem bodyRow_commandRow {name : String} {arguments : List String} (h : isWordText name.toList = true)
    (harguments : ∀ argument ∈ arguments, Unbroken argument.toList) : BodyRow (commandRow name arguments) := by
  refine bodyRow_bracketed (unbroken_append.mpr ⟨unbroken_of_isWordText h, ?_⟩)
  intro c hc
  obtain ⟨word, hword, hquote⟩ := List.mem_flatMap.mp hc
  obtain ⟨argument, hargument, rfl⟩ := List.mem_map.mp hword
  rcases List.mem_cons.mp hquote with rfl | hquote
  · decide
  · exact unbroken_quote (harguments argument hargument) c hquote

theorem unbroken_question {guard : Guard} (h : isWordText guard.variableName.toList = true) :
    Unbroken guard.question := by
  have hopen : Unbroken [' ', '$'] := by decide
  have hspace : Unbroken [' '] := by decide
  have hsign : Unbroken guard.comparison.sign.toList := by
    cases guard.comparison with
    | equal => decide
    | notEqual => decide
  have hvalue : Unbroken ([' '] ++ truthWord guard.value) :=
    unbroken_append.mpr ⟨hspace, unbroken_truthWord _⟩
  have hsigned : Unbroken ([' '] ++ (guard.comparison.sign.toList ++ ([' '] ++ truthWord guard.value))) :=
    unbroken_append.mpr ⟨hspace, unbroken_append.mpr ⟨hsign, hvalue⟩⟩
  exact unbroken_append.mpr ⟨hopen, unbroken_append.mpr ⟨unbroken_of_isWordText h, hsigned⟩⟩

/-- The row of a guard would do as a row of a body. -/
theorem bodyRow_guard {guard : Guard} (h : isWordText guard.variableName.toList = true) :
    BodyRow guard.printed := by
  have hif : Unbroken ['i', 'f'] := by decide
  exact bodyRow_bracketed (unbroken_append.mpr ⟨hif, unbroken_question h⟩)

theorem bodyRow_choice {choice : Choice ι} {speaker : String} (hspeaker : CanSpeak speaker)
    (h : choice.Printable) : BodyRow (choice.row speaker) := by
  have hspeaks : Speaks speaker choice.text := ⟨hspeaker, h.text⟩
  have hspace : Unbroken [' '] := by decide
  have harrow : Unbroken ['-', '>', ' '] := by decide
  have hends : (∀ c ∈ (offered speaker choice.text choice.guard).getLast?, isBlank c = false) ∧
      Unbroken (offered speaker choice.text choice.guard) := by
    unfold offered
    cases hguard : choice.guard with
    | none =>
      rw [Option.elim_none, List.append_nil]
      exact ⟨hspeaks.last, hspeaks.unbroken⟩
    | some guard =>
      have hrow := bodyRow_guard (h.guard guard hguard)
      have hlast : ∀ c ∈ ([' '] ++ guard.printed).getLast?, isBlank c = false :=
        forall_last_append hrow.ne (trim_eq_self_iff.mp hrow.trimmed).2
      refine ⟨forall_last_append (List.cons_ne_nil _ _) hlast, unbroken_append.mpr ⟨hspeaks.unbroken, ?_⟩⟩
      exact unbroken_append.mpr ⟨hspace, hrow.unbroken⟩
  have hne : offered speaker choice.text choice.guard ≠ [] :=
    List.append_ne_nil_of_left_ne_nil hspeaks.spoken_ne _
  refine ⟨List.cons_ne_nil _ _, ?_, unbroken_append.mpr ⟨harrow, hends.2⟩, ?_, ?_, ?_⟩
  · exact trim_append (List.cons_ne_nil _ _) hne (forall_of_some (by decide)) hends.1
  · exact fun hfront => absurd (List.cons_prefix_cons.mp hfront).1 (by decide)
  · exact fun heq => absurd (List.cons.inj (List.cons.inj heq).2).1 (by decide)
  · exact fun heq => absurd (List.cons.inj heq).1 (by decide)

/-! ### Plain speech -/

theorem plain_of_head {s : List Char} (hne : s ≠ []) (h : ∀ c ∈ s.head?, isWord c = true) : Plain s := by
  cases s with
  | nil => exact absurd rfl hne
  | cons c s =>
    have hc : isWord c = true := h c rfl
    have hother : ∀ d, isWord d = false → d ≠ c := fun d hd => (ne_of_isWord hc hd).symm
    refine ⟨?_, ?_, ?_, ?_⟩
    · exact fun hfront => hother '-' (by decide) (List.cons_prefix_cons.mp hfront).1
    · exact fun hfront => hother '/' (by decide) (List.cons_prefix_cons.mp hfront).1
    · exact fun heq => hother '-' (by decide) (List.cons.inj heq).1.symm
    · exact fun heq => hother '=' (by decide) (List.cons.inj heq).1.symm

/-- Nothing that a plain text goes on with after a space makes it less plain. -/
theorem plain_append {s rest : List Char} (h : Plain s) (hne : s ≠ []) (hrest : ∀ c ∈ rest.head?, c = ' ') :
    Plain (s ++ rest) := by
  have hedge : ∀ edge : List Char, ' ' ∉ edge → s ≠ edge → s ++ rest ≠ edge := by
    intro edge hspace hs heq
    cases rest with
    | nil => exact hs (by rw [← heq, List.append_nil])
    | cons c rest =>
      rw [← heq, hrest c rfl] at hspace
      exact hspace (List.mem_append_right _ List.mem_cons_self)
  refine ⟨?_, ?_, ?_, ?_⟩
  · exact fun hfront => h.not_option (pair_at_front hne (by decide) hrest hfront)
  · exact fun hfront => h.not_comment (pair_at_front hne (by decide) hrest hfront)
  · exact hedge _ (by decide) h.not_opening
  · exact hedge _ (by decide) h.not_closing

theorem plain_sayRow {speaker text : String} (h : Speaks speaker text)
    (hplain : speaker = "" → Plain text.toList) (tags : List Tag) : Plain (sayRow speaker text tags) := by
  refine plain_append ?_ h.spoken_ne (head_tags tags)
  unfold spoken
  split
  · rename_i hempty
    exact hplain hempty
  · rename_i hne
    have hspeaker := (h.speaker hne).1
    refine plain_of_head (List.append_ne_nil_of_left_ne_nil (ne_nil_of_isSpeaker hspeaker) _) ?_
    refine forall_head_append (ne_nil_of_isSpeaker hspeaker) fun c hc => ?_
    exact isWord_of_isNameStart (head_of_isSpeaker hspeaker c hc)

theorem last_tags {s : List Char} (h : ∀ c ∈ s.getLast?, isBlank c = false) {tags : List Tag}
    (htags : ∀ tag ∈ tags, tag.Printable) :
    ∀ c ∈ (s ++ tags.flatMap fun tag => ' ' :: tag.printed).getLast?, isBlank c = false := by
  induction tags generalizing s with
  | nil =>
    rw [List.flatMap_nil, List.append_nil]
    exact h
  | cons tag rest ih =>
    obtain ⟨htag, hrest⟩ := List.forall_mem_cons.mp htags
    have hrow := ih (last_tag s htag) hrest
    rw [List.append_assoc] at hrow
    exact hrow

theorem bodyRow_sayRow {speaker text : String} (h : Speaks speaker text)
    (hplain : speaker = "" → Plain text.toList) {tags : List Tag} (htags : ∀ tag ∈ tags, tag.Printable) :
    BodyRow (sayRow speaker text tags) := by
  have hrow := plain_sayRow h hplain tags
  have hunbroken : Unbroken (tags.flatMap fun tag => ' ' :: tag.printed) := by
    intro c hc
    obtain ⟨tag, htag, hprinted⟩ := List.mem_flatMap.mp hc
    rcases List.mem_cons.mp hprinted with rfl | hprinted
    · decide
    · exact isBreak_of_not_blank (not_blank_printed (htags tag htag).formed c hprinted)
  refine ⟨List.append_ne_nil_of_left_ne_nil h.spoken_ne _, ?_, ?_, ?_, ?_, ?_⟩
  · exact trim_of_ends (forall_head_append h.spoken_ne h.head) (last_tags h.last htags)
  · exact unbroken_append.mpr ⟨h.unbroken, hunbroken⟩
  · exact hrow.not_comment
  · exact hrow.not_opening
  · exact hrow.not_closing

/-! ### Rows of lines -/

theorem bodyRow_choiceRows {speaker : String} {choices : List (Choice ι)} (hspeaker : CanSpeak speaker)
    (h : ChoicesPrintable speaker choices) : ∀ row ∈ choiceRows speaker choices, BodyRow row := by
  induction choices generalizing speaker with
  | nil => exact fun row hrow => nomatch hrow
  | cons choice rest ih =>
    obtain ⟨hchoice, -, hrest⟩ := h
    intro row hrow
    rcases List.mem_append.mp hrow with hrow | hrow
    · rcases List.mem_cons.mp hrow with rfl | hrow
      · exact bodyRow_choice hspeaker hchoice
      · rw [List.mem_singleton.mp hrow]
        exact bodyRow_jumpRow hchoice.target
    · exact ih canSpeak_nobody hrest row hrow

end Script

/-- Every row of a line that can be printed matters as it stands. -/
theorem Line.Printable.bodyRow {line : Line ι} (h : line.Printable) : ∀ row ∈ line.rows, BodyRow row := by
  cases line with
  | assign variableName value => exact List.forall_mem_singleton.mpr (bodyRow_assignRow h value)
  | command name arguments => exact List.forall_mem_singleton.mpr (bodyRow_commandRow h.1 h.2.2)
  | say speaker text tags =>
    obtain ⟨hspeaker, htext, htags, halone⟩ := h
    exact List.forall_mem_singleton.mpr
      (bodyRow_sayRow ⟨hspeaker, htext⟩ (fun hempty => (halone hempty).2) htags)
  | jump target index => exact List.forall_mem_singleton.mpr (bodyRow_jumpRow h)
  | offer menu => exact bodyRow_choiceRows h.1 h.2

end Parley

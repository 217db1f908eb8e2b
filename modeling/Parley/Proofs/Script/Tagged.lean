import Parley.Proofs.Script.Guarded

/-! Texts that end in a tag.

The last word of a text is a tag exactly if the text ends in a tag (`lastTag?_eq_some_iff`), so a text from which the
tags have been taken off ends in none (`not_endsTagged_splitTags`). What stands before a blank has no part in it
(`endsTagged_append_iff`), nor has the speaker (`endsTagged_splitSpeaker_iff`). -/
namespace Parley.Script

open Text

variable {s front text : List Char}

/-- A tag stands at the end of a text: it begins the text or follows a blank. -/
def EndsTagged (s : List Char) : Prop :=
  ∃ (front : List Char) (tag : Tag), s = front ++ tag.printed ∧ (∀ c ∈ front.getLast?, isBlank c = true) ∧ tag.Formed

/-! ### Last words -/

theorem not_blank_lastWord (s : List Char) : ∀ c ∈ lastWord s, isBlank c = false := by
  intro c hc
  simpa using List.all_eq_true.mp List.all_takeWhile c (List.mem_reverse.mp hc)

theorem last_beforeLastWord (s : List Char) : ∀ c ∈ (beforeLastWord s).getLast?, isBlank c = true := by
  intro c hc
  have hhead := List.head?_dropWhile_not (!isBlank ·) s.reverse
  rw [beforeLastWord, List.getLast?_reverse] at hc
  rw [Option.mem_def.mp hc] at hhead
  simpa using hhead

/-- What stands before a blank has no part in the last word. -/
theorem lastWord_append_of_blank (hfront : ∀ c ∈ front.getLast?, isBlank c = true) (text : List Char) :
    lastWord (front ++ text) = lastWord text := by
  have hbefore : ∀ c ∈ (front ++ beforeLastWord text).getLast?, isBlank c = true := by
    rw [List.getLast?_append]
    intro c hc
    rcases Option.or_eq_some_iff.mp hc with hlast | ⟨-, hlast⟩
    · exact last_beforeLastWord text c hlast
    · exact hfront c hlast
  have hwords := (lastWord_append hbefore (not_blank_lastWord text)).1
  rwa [List.append_assoc, beforeLastWord_append_lastWord] at hwords

/-! ### Tags at the end -/

/-- The tag that is taken off stands at the end, and what is before it is trimmed at its end. -/
theorem lastTag?_eq_some_iff {rest : List Char} {tag : Tag} :
    lastTag? s = some (rest, tag) ↔
      ∃ front, s = front ++ tag.printed ∧ (∀ c ∈ front.getLast?, isBlank c = true) ∧ tag.Formed ∧
        rest = trimEnd front := by
  constructor
  · intro h
    obtain ⟨found, htag, heq⟩ := Option.map_eq_some_iff.mp h
    cases heq
    obtain ⟨hword, hname, hvalue⟩ := tag?_eq_some_iff.mp htag
    refine ⟨beforeLastWord s, ?_, last_beforeLastWord s, ⟨hname, isToken_of_no_blank hvalue fun c hc => ?_⟩, rfl⟩
    · rw [← hword, beforeLastWord_append_lastWord]
    · apply not_blank_lastWord s c
      rw [hword, Tag.printed]
      exact List.mem_cons_of_mem _ (List.mem_append_right _ (List.mem_cons_of_mem _ hc))
  · intro h
    obtain ⟨front, hs, hfront, hformed, hrest⟩ := h
    rw [hs, hrest, lastTag?_printed hfront hformed]

/-- A tag is taken off exactly where one stands at the end. -/
theorem isSome_lastTag?_iff : (lastTag? s).isSome = true ↔ EndsTagged s := by
  rw [Option.isSome_iff_exists]
  constructor
  · intro h
    obtain ⟨⟨rest, tag⟩, hfound⟩ := h
    obtain ⟨front, hs, hfront, hformed, -⟩ := lastTag?_eq_some_iff.mp hfound
    exact ⟨front, tag, hs, hfront, hformed⟩
  · intro h
    obtain ⟨front, tag, hs, hfront, hformed⟩ := h
    exact ⟨_, lastTag?_eq_some_iff.mpr ⟨front, hs, hfront, hformed, rfl⟩⟩

instance (s : List Char) : Decidable (EndsTagged s) := decidable_of_iff _ isSome_lastTag?_iff

theorem endsTagged_append_iff (hfront : ∀ c ∈ front.getLast?, isBlank c = true) :
    EndsTagged (front ++ text) ↔ EndsTagged text := by
  rw [← isSome_lastTag?_iff, ← isSome_lastTag?_iff, lastTag?, lastTag?, lastWord_append_of_blank hfront,
    Option.isSome_map, Option.isSome_map]

/-- Once the tags are taken off, no tag stands at the end. -/
theorem not_endsTagged_splitTags (s : List Char) : ¬EndsTagged (splitTags s).1 := by
  induction s using splitTags.induct with
  | case1 s hnone =>
    rw [splitTags_of_none hnone, ← isSome_lastTag?_iff, hnone, Option.isSome_none]
    exact Bool.false_ne_true
  | case2 s rest tag hsome text tags hrest ih =>
    rw [splitTags_of_some hsome]
    exact ih

/-! ### Speakers -/

/-- What is said ends in a tag if the line does. -/
theorem endsTagged_splitSpeaker_iff (hlast : ∀ c ∈ s.getLast?, isBlank c = false) (hsaid : (splitSpeaker s).2 ≠ []) :
    EndsTagged (splitSpeaker s).2 ↔ EndsTagged s := by
  obtain ⟨front, hfront, hblank⟩ := splitSpeaker_append hlast
  have happend : EndsTagged (front ++ (splitSpeaker s).2) ↔ EndsTagged (splitSpeaker s).2 :=
    endsTagged_append_iff (hblank hsaid)
  rw [← hfront] at happend
  exact happend.symm

end Parley.Script

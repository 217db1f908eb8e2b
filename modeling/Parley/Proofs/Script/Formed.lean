import Parley.Proofs.Script.Guarded

/-! The form of lines.

What is cut out of a trimmed line is trimmed again: the text before its tags (`trim_splitTags`), the text before its
guard (`trim_of_cutGuard`), and the text after its speaker (`trim_splitSpeaker`). So every line that is read has its
form (`formed_of_readLine`), and so has every entry of a menu (`formed_of_readEntry`). -/
namespace Parley

open Script Text

/-- A text that is shown: not empty, and without blanks around it. -/
def Shown (text : String) : Prop := text ≠ "" ∧ trim text.toList = text.toList

/-- The form of an entry of a menu. -/
structure Choice.Formed (choice : Choice (Option Int)) : Prop where
  text : Shown choice.text
  target : isTitle choice.target.toList = true
  index : choice.index = none
  guard : ∀ guard ∈ choice.guard, isWordText guard.variableName.toList = true

/-- The form of a line: names are words, titles are titles, no reference has an index, and what is said or offered is
shown, by a speaker or by nobody. -/
def Line.Formed : Line (Option Int) → Prop
  | .assign variableName _ => isWordText variableName.toList = true
  | .command name _ => isWordText name.toList = true
  | .say speaker text _ => CanSpeak speaker ∧ Shown text
  | .jump target index => isTitle target.toList = true ∧ index = none
  | .offer menu => CanSpeak menu.speaker ∧ menu.choices ≠ [] ∧ ∀ choice ∈ menu.choices, choice.Formed

namespace Script

variable {s : List Char}

/-! ### Beginnings of trimmed texts -/

/-- A beginning of a trimmed text is trimmed if it does not end in a blank. -/
theorem trim_of_front {front : List Char} (h : trim s = s) (hfront : front <+: s)
    (hlast : ∀ c ∈ front.getLast?, isBlank c = false) : trim front = front := by
  obtain ⟨rest, rfl⟩ := hfront
  cases front with
  | nil => rfl
  | cons c front => exact trim_of_ends (trim_eq_self_iff.mp h).1 hlast

/-- A beginning of a trimmed text is trimmed by its end. -/
theorem trim_trimEnd_of_front {front : List Char} (h : trim s = s) (hfront : front <+: s) :
    trim (trimEnd front) = trimEnd front := by
  obtain ⟨gap, hgap, -⟩ := exists_gap front
  exact trim_of_front h (List.IsPrefix.trans ⟨gap, hgap.symm⟩ hfront) (last_trimEnd front)

/-- What follows the beginning of a trimmed text is trimmed by its start. -/
theorem trim_trimStart_of_back {front rest : List Char} (h : trim (front ++ rest) = front ++ rest) :
    trim (trimStart rest) = trimStart rest := by
  refine trim_of_ends (head_trimStart rest) fun c hc => (trim_eq_self_iff.mp h).2 c ?_
  obtain ⟨gap, hgap, -⟩ := exists_lead rest
  rw [hgap, ← List.append_assoc, List.getLast?_append, Option.mem_def.mp hc]
  rfl

/-- What follows the arrow of a trimmed line is trimmed by its start. -/
theorem trim_of_arrow? {said : List Char} (h : trim s = s) (harrow : arrow? s = some said) :
    trim (trimStart said) = trimStart said := by
  rw [after?_eq_some_iff.mp harrow] at h
  exact trim_trimStart_of_back h

/-! ### Tags, guards and speakers -/

theorem trim_splitTags (h : trim s = s) : trim (splitTags s).1 = (splitTags s).1 := by
  induction s using splitTags.induct with
  | case1 s hnone => rwa [splitTags_of_none hnone]
  | case2 s rest tag hsome text tags hrest ih =>
    rw [splitTags_of_some hsome]
    refine ih ?_
    obtain ⟨_, _, heq⟩ := Option.map_eq_some_iff.mp hsome
    cases heq
    exact trim_trimEnd_of_front h ⟨lastWord s, beforeLastWord_append_lastWord s⟩

theorem front_of_splitGuard? {before condition : List Char} (h : splitGuard? s = some (before, condition)) :
    before <+: s := by
  obtain ⟨opening, hs, -⟩ := splitGuard?_first h
  exact ⟨_, hs.symm⟩

theorem trim_of_cutGuard {said : List Char} {guard : Option Guard} (htrim : trim s = s)
    (h : cutGuard s = .ok (said, guard)) :
    trim said = said ∧ ∀ g ∈ guard, isWordText g.variableName.toList = true := by
  unfold cutGuard at h
  split at h
  · cases h
    exact ⟨htrim, fun _ hg => nomatch hg⟩
  · rename_i hguard
    obtain ⟨found, hcondition, heq⟩ := map_eq_ok_iff.mp h
    cases heq
    refine ⟨trim_trimEnd_of_front htrim (front_of_splitGuard? hguard), fun g hg => ?_⟩
    cases hg
    exact isWordText_of_readCondition hcondition

/-- Who speaks is a speaker or nobody, and what is said is trimmed. -/
theorem trim_splitSpeaker (h : trim s = s) :
    CanSpeak (String.ofList (splitSpeaker s).1) ∧ trim (splitSpeaker s).2 = (splitSpeaker s).2 := by
  unfold splitSpeaker
  cases hsplit : splitSpeaker? s with
  | none => exact ⟨canSpeak_nobody, h⟩
  | some parts =>
    obtain ⟨rest, -, hparts⟩ := Option.bind_eq_some_iff.mp hsplit
    split at hparts
    · rename_i hspeaker
      cases hparts
      refine ⟨fun _ => ?_, trim_trim rest⟩
      rw [Option.getD_some, String.toList_ofList]
      refine ⟨(Bool.and_eq_true_iff.mp hspeaker).1, fun c hc hspace => ?_⟩
      have hblank := last_trimEnd _ c hc
      rw [hspace] at hblank
      exact absurd hblank (by decide)
    · cases hparts

theorem shown_ofList (hempty : ¬s.isEmpty = true) (h : trim s = s) : Shown (String.ofList s) :=
  ⟨ofList_ne (mt List.isEmpty_iff.mpr hempty), by rw [String.toList_ofList, h]⟩

/-! ### Lines -/

theorem Stated.formed {line : Line (Option Int)} (h : Stated line) :
    line.Formed ∧ ∀ menu, line ≠ .offer menu := by
  cases line with
  | offer menu => exact h.elim
  | say speaker text tags => exact h.elim
  | _ => exact ⟨h, fun _ heq => nomatch heq⟩

/-- A line that is read has its form, and is no menu. -/
theorem formed_of_readLine {line : Line (Option Int)} (htrim : trim s = s) (h : readLine s = .ok line) :
    line.Formed ∧ ∀ menu, line ≠ .offer menu := by
  rcases readLine_cases h with hstatement | ⟨-, hspeech⟩
  · exact (stated_of_readStatement hstatement).formed
  · obtain ⟨hsaid, rfl⟩ := readSpeech_eq_ok_iff.mp hspeech
    obtain ⟨hspeaker, htext⟩ := trim_splitSpeaker (trim_splitTags htrim)
    exact ⟨⟨hspeaker, shown_ofList (mt List.isEmpty_iff.mp hsaid) htext⟩, fun _ h => nomatch h⟩

/-- An entry with its target has its form, after a speaker or nobody. -/
theorem formed_of_readEntry {option target : List Char} {entry : Entry} (htrim : trim s = s)
    (harrow : arrow? s = some option) (h : readEntry option = .ok entry) (htarget : isTitle target = true) :
    (entry.choice target).Formed ∧ CanSpeak (String.ofList entry.speaker) := by
  have hoption := trim_of_arrow? htrim harrow
  obtain ⟨⟨said, guard⟩, hcut, h⟩ := bind_eq_ok_iff.mp h
  obtain ⟨hsaid, hguard⟩ := trim_of_cutGuard (trim_splitTags hoption) hcut
  obtain ⟨hspeaker, htext⟩ := trim_splitSpeaker hsaid
  dsimp only at h
  split at h
  · cases h
  · rename_i hempty
    cases h
    refine ⟨⟨shown_ofList hempty htext, ?_, rfl, hguard⟩, hspeaker⟩
    show isTitle (String.ofList target).toList = true
    rw [String.toList_ofList, htarget]

end Script

end Parley

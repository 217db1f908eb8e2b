import Parley.Proofs.Script.Bracket

/-! Speech is read back as it was printed.

The tags are taken off from the end (`splitTags_tags`), and then the speaker from the front
(`splitSpeaker_spoken`). No guard begins in the row of a speech (`unguarded_sayRow`). -/
namespace Parley

open Script Text

/-- The form of a tag: its name is a word, and its value a token. -/
structure Tag.Formed (tag : Tag) : Prop where
  name : isWordText tag.name.toList = true
  value : isToken tag.value.toList = true

theorem Tag.Printable.formed {tag : Tag} (h : tag.Printable) : tag.Formed := ⟨h.name, h.value⟩

namespace Script

/-! ### Tags -/

theorem not_mem_of_isWordText {s : List Char} (h : isWordText s = true) {c : Char} (hc : isWord c = false) :
    c ∉ s := by
  intro hmem
  exact ne_of_isWord (forall_of_isWordText h c hmem) hc rfl

/-- A token is a tag exactly if it is written as one. -/
theorem tag?_eq_some_iff {token : List Char} {tag : Tag} :
    tag? token = some tag ↔
      token = tag.printed ∧ isWordText tag.name.toList = true ∧ tag.value.toList ≠ [] := by
  constructor
  · intro h
    obtain ⟨rest, hrest, h⟩ := Option.bind_eq_some_iff.mp h
    obtain ⟨value, hvalue, h⟩ := Option.bind_eq_some_iff.mp h
    split at h
    · cases h
    · rename_i hne
      rw [Bool.or_eq_true, not_or, Bool.not_eq_true, Bool.not_eq_true] at hne
      cases h
      simp only [Tag.printed, String.toList_ofList]
      refine ⟨?_, ?_, List.isEmpty_eq_false_iff.mp hne.2⟩
      · have hcolon : rest.dropWhile isWord = ':' :: value := after?_eq_some_iff.mp hvalue
        rw [← hcolon, List.takeWhile_append_dropWhile]
        exact after?_eq_some_iff.mp hrest
      · rw [isWordText, hne.1, List.all_takeWhile]
        rfl
  · rintro ⟨rfl, hname, hvalue⟩
    have hcolon : ∀ c ∈ (':' :: tag.value.toList).head?, isWord c = false := forall_of_some (by decide)
    have hword := takeWhile_run (forall_of_isWordText hname) hcolon
    have hrest := dropWhile_run (forall_of_isWordText hname) hcolon
    have hname_ne : tag.name.toList.isEmpty = false := List.isEmpty_eq_false_iff.mpr (ne_nil_of_isWordText hname)
    have hvalue_ne : tag.value.toList.isEmpty = false := List.isEmpty_eq_false_iff.mpr hvalue
    rw [tag?]
    show (after? ['#'] (['#'] ++ (tag.name.toList ++ ':' :: tag.value.toList))).bind _ = _
    rw [after?_lead, Option.bind_some, hword, hrest]
    show (after? [':'] ([':'] ++ tag.value.toList)).bind _ = _
    rw [after?_lead, Option.bind_some, hname_ne, hvalue_ne]
    simp [String.ofList_toList]

theorem tag?_printed {tag : Tag} (h : tag.Formed) : tag? tag.printed = some tag :=
  tag?_eq_some_iff.mpr ⟨rfl, h.name, ne_nil_of_isToken h.value⟩

theorem not_blank_printed {tag : Tag} (h : tag.Formed) : ∀ c ∈ tag.printed, isBlank c = false := by
  intro c hc
  rcases List.mem_cons.mp hc with rfl | hc
  · decide
  · rcases List.mem_append.mp hc with hc | hc
    · exact not_blank_of_isWordText h.name c hc
    · rcases List.mem_cons.mp hc with rfl | hc
      · decide
      · exact not_blank_of_isToken h.value c hc

theorem last_tag (s : List Char) {tag : Tag} (h : tag.Printable) :
    ∀ c ∈ (s ++ ' ' :: tag.printed).getLast?, isBlank c = false := by
  refine forall_last_append (List.cons_ne_nil _ _) ?_
  show ∀ c ∈ ([' '] ++ tag.printed).getLast?, isBlank c = false
  exact forall_last_append (List.cons_ne_nil _ _) (not_blank_last (not_blank_printed h.formed))

/-- The last word goes back to the last blank. -/
theorem lastWord_append {front word : List Char} (hfront : ∀ c ∈ front.getLast?, isBlank c = true)
    (hword : ∀ c ∈ word, isBlank c = false) :
    lastWord (front ++ word) = word ∧ beforeLastWord (front ++ word) = front := by
  have hrun : ∀ c ∈ word.reverse, (!isBlank c) = true := by
    intro c hc
    rw [hword c (List.mem_reverse.mp hc)]
    rfl
  have hstop : ∀ c ∈ front.reverse.head?, (!isBlank c) = false := by
    intro c hc
    rw [List.head?_reverse] at hc
    rw [hfront c hc]
    rfl
  refine ⟨?_, ?_⟩
  · rw [lastWord, List.reverse_append, takeWhile_run hrun hstop, List.reverse_reverse]
  · rw [beforeLastWord, List.reverse_append, dropWhile_run hrun hstop, List.reverse_reverse]

/-- A tag is taken off where it stands behind a blank, or at the beginning. -/
theorem lastTag?_printed {front : List Char} (hfront : ∀ c ∈ front.getLast?, isBlank c = true) {tag : Tag}
    (h : tag.Formed) : lastTag? (front ++ tag.printed) = some (trimEnd front, tag) := by
  obtain ⟨hword, hbefore⟩ := lastWord_append hfront (not_blank_printed h)
  rw [lastTag?, hword, hbefore, tag?_printed h, Option.map_some]

theorem lastTag?_tag {s : List Char} (hlast : ∀ c ∈ s.getLast?, isBlank c = false) {tag : Tag}
    (h : tag.Printable) : lastTag? (s ++ ' ' :: tag.printed) = some (s, tag) := by
  have hspace : ∀ c ∈ (s ++ [' ']).getLast?, isBlank c = true := by
    rw [List.getLast?_concat]
    exact forall_of_some (by decide)
  rw [List.append_cons, lastTag?_printed hspace h.formed, trimEnd_space, trimEnd_of_last hlast]

theorem lastTag?_untagged {s : List Char} (h : '#' ∉ s) : lastTag? s = none := by
  have hlead : after? ['#'] (lastWord s) = none := by
    refine after?_eq_none fun hfront => h ?_
    rw [← beforeLastWord_append_lastWord s]
    exact List.mem_append_right _ (hfront.subset List.mem_cons_self)
  rw [lastTag?, tag?, hlead]
  rfl

theorem splitTags_of_none {s : List Char} (h : lastTag? s = none) : splitTags s = (s, []) := by
  rw [splitTags]
  split
  · rfl
  · rename_i hsome
    exact absurd (h.symm.trans hsome) (Option.some_ne_none _).symm

theorem splitTags_of_some {s rest : List Char} {tag : Tag} (h : lastTag? s = some (rest, tag)) :
    splitTags s = ((splitTags rest).1, (splitTags rest).2 ++ [tag]) := by
  rw [splitTags]
  split
  · rename_i hnone
    exact absurd (h.symm.trans hnone) (Option.some_ne_none _)
  · rename_i hsome
    cases h.symm.trans hsome
    rfl

/-- Tags printed after a text are taken off it in order. -/
theorem splitTags_append {s : List Char} (hlast : ∀ c ∈ s.getLast?, isBlank c = false) {tags : List Tag}
    (htags : ∀ tag ∈ tags, tag.Printable) :
    splitTags (s ++ tags.flatMap fun tag => ' ' :: tag.printed) =
      ((splitTags s).1, (splitTags s).2 ++ tags) := by
  induction tags generalizing s with
  | nil => simp
  | cons tag rest ih =>
    obtain ⟨htag, hrest⟩ := List.forall_mem_cons.mp htags
    have hsplit := ih (last_tag s htag) hrest
    rw [splitTags_of_some (lastTag?_tag hlast htag), List.append_assoc, List.append_assoc] at hsplit
    exact hsplit

theorem splitTags_untagged {s : List Char} (h : '#' ∉ s) : splitTags s = (s, []) :=
  splitTags_of_none (lastTag?_untagged h)

theorem splitTags_tags {s : List Char} (h : '#' ∉ s) (hlast : ∀ c ∈ s.getLast?, isBlank c = false)
    {tags : List Tag} (htags : ∀ tag ∈ tags, tag.Printable) :
    splitTags (s ++ tags.flatMap fun tag => ' ' :: tag.printed) = (s, tags) := by
  rw [splitTags_append hlast htags, splitTags_untagged h]
  rfl

/-! ### Speakers -/

theorem isWord_of_isNameStart {c : Char} (h : isNameStart c = true) : isWord c = true := by
  have hcode : ∀ n < 123, (65 ≤ n ∧ n ≤ 90) ∨ n = 95 ∨ 97 ≤ n → covers wordRanges n = true := by
    decide +kernel
  change ((decide ('A'.val ≤ c.val ∧ c.val ≤ 'Z'.val) ||
    (decide ('a'.val ≤ c.val) && decide (c.val ≤ 'z'.val))) || c == '_') = true at h
  simp only [Bool.or_eq_true, Bool.and_eq_true, decide_eq_true_eq, beq_iff_eq] at h
  rcases h with (⟨hlow, hhigh⟩ | ⟨hlow, hhigh⟩) | rfl
  · have hlow : 65 ≤ c.toNat := hlow
    have hhigh : c.toNat ≤ 90 := hhigh
    exact hcode c.toNat (by omega) (.inl ⟨hlow, hhigh⟩)
  · have hlow : 97 ≤ c.toNat := hlow
    have hhigh : c.toNat ≤ 122 := hhigh
    exact hcode c.toNat (by omega) (.inr (.inr hlow))
  · exact hcode 95 (by omega) (.inr (.inl rfl))

theorem forall_of_isSpeaker {s : List Char} (h : isSpeaker s = true) :
    ∀ c ∈ s, isWord c = true ∨ c = ' ' := by
  cases s with
  | nil => exact fun c hc => nomatch hc
  | cons c s =>
    rw [isSpeaker, Bool.and_eq_true] at h
    intro d hd
    rcases List.mem_cons.mp hd with rfl | hd
    · exact .inl (isWord_of_isNameStart h.1)
    · simpa using List.all_eq_true.mp h.2 d hd

theorem not_mem_of_isSpeaker {s : List Char} (h : isSpeaker s = true) {c : Char} (hc : isWord c = false)
    (hspace : c ≠ ' ') : c ∉ s := by
  intro hmem
  rcases forall_of_isSpeaker h c hmem with hword | heq
  · exact ne_of_isWord hword hc rfl
  · exact hspace heq

theorem head_of_isSpeaker {s : List Char} (h : isSpeaker s = true) : ∀ c ∈ s.head?, isNameStart c = true := by
  cases s with
  | nil => exact fun c hc => nomatch hc
  | cons c s =>
    rw [isSpeaker, Bool.and_eq_true] at h
    intro d hd
    cases hd
    exact h.1

theorem ne_nil_of_isSpeaker {s : List Char} (h : isSpeaker s = true) : s ≠ [] := by
  rintro rfl
  nomatch h

theorem splitSpeaker_speaker {speaker text : List Char} (h : isSpeaker speaker = true)
    (hlast : ∀ c ∈ speaker.getLast?, c ≠ ' ') (htext : trim text = text) :
    splitSpeaker (speaker ++ ':' :: ' ' :: text) = (speaker, text) := by
  have hcolon : ':' ∉ speaker := not_mem_of_isSpeaker h (by decide) (by decide)
  have hname : ∀ c ∈ speaker, (c != ':') = true := by
    intro c hc
    exact bne_iff_ne.mpr fun heq => hcolon (heq ▸ hc)
  have hstop : ∀ c ∈ (':' :: ' ' :: text).head?, (c != ':') = false := forall_of_some rfl
  have hend : trimEnd speaker = speaker := by
    refine trimEnd_of_last fun c hc => ?_
    rcases forall_of_isSpeaker h c (List.mem_of_getLast? hc) with hword | heq
    · exact isBlank_of_isWord hword
    · exact absurd heq (hlast c hc)
  have hspace : isBlank ' ' = true := by decide
  have htrim : trim (' ' :: text) = text := by
    rw [trim, trimStart_space]
    exact htext
  rw [splitSpeaker, splitSpeaker?, takeWhile_run hname hstop, dropWhile_run hname hstop, hend]
  show ((after? [':'] ([':'] ++ ' ' :: text)).bind _).getD _ = _
  rw [after?_lead, Option.bind_some, htrim]
  simp [h, hspace]

/-- What is left of a name when it is trimmed at the end is a name. -/
theorem isSpeaker_trimEnd {s : List Char} (h : isSpeaker s = true) : isSpeaker (trimEnd s) = true := by
  obtain ⟨gap, hgap, hblank⟩ := exists_gap s
  cases htrim : trimEnd s with
  | nil =>
    -- a name does not begin with a blank
    rw [htrim, List.nil_append] at hgap
    cases s with
    | nil => nomatch h
    | cons c s =>
      have hword := isBlank_of_isWord (isWord_of_isNameStart (head_of_isSpeaker h c rfl))
      rw [hblank c (hgap ▸ List.mem_cons_self)] at hword
      nomatch hword
  | cons d rest =>
    rw [htrim] at hgap
    rw [hgap, List.cons_append, isSpeaker, Bool.and_eq_true, List.all_append, Bool.and_eq_true] at h
    rw [isSpeaker, Bool.and_eq_true]
    exact ⟨h.1, h.2.1⟩

/-- A speaker is split off exactly where someone is addressed. -/
theorem isSome_splitSpeaker?_iff {s : List Char} : (splitSpeaker? s).isSome = true ↔ Addressed s := by
  refine ⟨fun hsome => ?_, ?_⟩
  · obtain ⟨parts, hparts⟩ := Option.isSome_iff_exists.mp hsome
    rw [splitSpeaker?, Option.bind_eq_some_iff] at hparts
    obtain ⟨rest, hrest, hparts⟩ := hparts
    split at hparts
    · rename_i hboth
      rw [Bool.and_eq_true] at hboth
      obtain ⟨gap, hgap, hblank⟩ := exists_gap (s.takeWhile (· != ':'))
      refine ⟨trimEnd (s.takeWhile (· != ':')), gap, rest, ?_, hboth.1, hblank, ?_⟩
      · have hdrop : s.dropWhile (· != ':') = ':' :: rest := after?_eq_some_iff.mp hrest
        rw [← List.append_assoc, ← hgap, ← hdrop, List.takeWhile_append_dropWhile]
      · intro c hc
        rw [hc] at hboth
        exact hboth.2
    · nomatch hparts
  · rintro ⟨name, gap, rest, rfl, hname, hblank, hrest⟩
    have hcolon : ':' ∉ name := not_mem_of_isSpeaker hname (by decide) (by decide)
    have hrun : ∀ c ∈ name ++ gap, (c != ':') = true := by
      intro c hc
      refine bne_iff_ne.mpr fun heq => ?_
      rcases List.mem_append.mp hc with hc | hc
      · exact hcolon (heq ▸ hc)
      · rw [heq] at hc
        exact absurd (hblank ':' hc) (by decide)
    have hstop : ∀ c ∈ (':' :: rest).head?, (c != ':') = false := forall_of_some rfl
    have hhead : rest.head?.all isBlank = true := by
      cases rest with
      | nil => rfl
      | cons c rest => exact hrest c rfl
    rw [← List.append_assoc, splitSpeaker?, takeWhile_run hrun hstop, dropWhile_run hrun hstop,
      trimEnd_append name hblank]
    show ((after? [':'] ([':'] ++ rest)).bind _).isSome = true
    rw [after?_lead, Option.bind_some, isSpeaker_trimEnd hname, hhead]
    rfl

instance (s : List Char) : Decidable (Addressed s) := decidable_of_iff _ isSome_splitSpeaker?_iff

/-- Where nobody is addressed there is no speaker. -/
theorem splitSpeaker_not_addressed {s : List Char} (h : ¬Addressed s) : splitSpeaker s = ([], s) := by
  rw [← isSome_splitSpeaker?_iff, Bool.not_eq_true, Option.isSome_eq_false_iff, Option.isNone_iff_eq_none] at h
  rw [splitSpeaker, h]
  rfl

/-! ### What is said, after its speaker -/

/-- What a speaker, if there is one, and a text make. -/
structure Speaks (speaker text : String) : Prop where
  speaker : CanSpeak speaker
  text : Sayable text

theorem canSpeak_nobody : CanSpeak "" := fun hne => absurd rfl hne

namespace Speaks

variable {speaker text : String} (h : Speaks speaker text)

include h

theorem text_ne : text.toList ≠ [] := by
  intro hnil
  exact h.text.ne (String.toList_eq_nil_iff.mp hnil)

theorem spoken_ne : spoken speaker text ≠ [] := by
  unfold spoken
  split
  · exact h.text_ne
  · exact List.append_ne_nil_of_right_ne_nil _ (List.cons_ne_nil _ _)

theorem head : ∀ c ∈ (spoken speaker text).head?, isBlank c = false := by
  unfold spoken
  split
  · exact (trim_eq_self_iff.mp h.text.trimmed).1
  · rename_i hne
    have hspeaker := (h.speaker hne).1
    refine forall_head_append (ne_nil_of_isSpeaker hspeaker) fun c hc => ?_
    exact isBlank_of_isWord (isWord_of_isNameStart (head_of_isSpeaker hspeaker c hc))

theorem last : ∀ c ∈ (spoken speaker text).getLast?, isBlank c = false := by
  have htext := (trim_eq_self_iff.mp h.text.trimmed).2
  unfold spoken
  split
  · exact htext
  · refine forall_last_append (List.cons_ne_nil _ _) ?_
    show ∀ c ∈ ([':', ' '] ++ text.toList).getLast?, isBlank c = false
    exact forall_last_append h.text_ne htext

theorem untagged : '#' ∉ spoken speaker text := by
  unfold spoken
  split
  · exact h.text.untagged
  · rename_i hne
    have hspeaker : '#' ∉ speaker.toList := not_mem_of_isSpeaker (h.speaker hne).1 (by decide) (by decide)
    have htext := h.text.untagged
    simp [hspeaker, htext]

theorem unbracketed : Unbracketed (spoken speaker text) := by
  unfold spoken
  split
  · exact h.text.unbracketed
  · rename_i hne
    have hspeaker : '<' ∉ speaker.toList := not_mem_of_isSpeaker (h.speaker hne).1 (by decide) (by decide)
    have htext : Unbracketed (':' :: ' ' :: text.toList) :=
      unbracketed_cons (by decide) (unbracketed_cons (by decide) h.text.unbracketed)
    exact unbracketed_append (unbracketed_of_not_mem hspeaker) htext (forall_of_some (by decide))

theorem unbroken : Unbroken (spoken speaker text) := by
  unfold spoken
  split
  · exact h.text.unbroken
  · rename_i hne
    refine unbroken_append.mpr ⟨?_, ?_⟩
    · intro c hc
      rcases forall_of_isSpeaker (h.speaker hne).1 c hc with hword | rfl
      · exact isBreak_of_not_blank (isBlank_of_isWord hword)
      · decide
    · have hcolon : Unbroken [':', ' '] := by decide
      exact unbroken_append.mpr ⟨hcolon, h.text.unbroken⟩

theorem splitSpeaker_spoken (haddressed : speaker = "" → ¬Addressed text.toList) :
    splitSpeaker (spoken speaker text) = (speaker.toList, text.toList) := by
  unfold spoken
  split
  · rename_i hempty
    rw [splitSpeaker_not_addressed (haddressed hempty), hempty]
    rfl
  · rename_i hne
    obtain ⟨hspeaker, hlast⟩ := h.speaker hne
    exact splitSpeaker_speaker hspeaker hlast h.text.trimmed

end Speaks

/-! ### Lines of speech -/

theorem head_tags (tags : List Tag) : ∀ c ∈ (tags.flatMap fun tag => ' ' :: tag.printed).head?, c = ' ' := by
  cases tags with
  | nil => exact fun c hc => nomatch hc
  | cons tag rest => exact forall_of_some rfl

/-- After the blanks before tags comes what begins a tag. -/
theorem trimStart_tags (tags : List Tag) :
    ∀ c ∈ (trimStart (tags.flatMap fun tag => ' ' :: tag.printed)).head?, c = '#' := by
  cases tags with
  | nil => exact fun c hc => nomatch hc
  | cons tag rest =>
    have htrim : trimStart ((tag :: rest).flatMap fun tag => ' ' :: tag.printed) =
        tag.printed ++ rest.flatMap fun tag => ' ' :: tag.printed :=
      (trimStart_space _).trans (trimStart_of_head (forall_of_some (by decide)))
    rw [htrim]
    exact forall_of_some rfl

/-- Tags after a text without a guard do not make one. -/
theorem unguarded_append_tags {s : List Char} (h : Unguarded s) {tags : List Tag}
    (htags : Unguarded (tags.flatMap fun tag => ' ' :: tag.printed)) :
    Unguarded (s ++ tags.flatMap fun tag => ' ' :: tag.printed) := by
  refine unguarded_append h htags (head_tags tags) fun c hc => ?_
  rw [trimStart_tags tags c hc]
  decide

theorem unguarded_tags {tags : List Tag} (h : ∀ tag ∈ tags, tag.Printable) :
    Unguarded (tags.flatMap fun tag => ' ' :: tag.printed) := by
  induction tags with
  | nil => exact unguarded_nil
  | cons tag rest ih =>
    obtain ⟨htag, hrest⟩ := List.forall_mem_cons.mp h
    have hname : '<' ∉ tag.name.toList := not_mem_of_isWordText htag.name (by decide)
    have hfront : '<' ∉ [' ', '#'] ++ (tag.name.toList ++ [':']) := by simp [hname]
    have hrow : (tag :: rest).flatMap (fun tag => ' ' :: tag.printed) =
        ([' ', '#'] ++ (tag.name.toList ++ [':'])) ++
          (tag.value.toList ++ rest.flatMap fun tag => ' ' :: tag.printed) := by
      simp [Tag.printed]
    rw [hrow]
    exact unguarded_append_of_not_mem hfront (unguarded_append_tags htag.unguarded (ih hrest))

theorem unguarded_sayRow {speaker text : String} (h : Speaks speaker text) {tags : List Tag}
    (htags : ∀ tag ∈ tags, tag.Printable) : Unguarded (sayRow speaker text tags) :=
  unguarded_append_tags (unguarded_of_unbracketed h.unbracketed) (unguarded_tags htags)

theorem readLine_sayRow {speaker text : String} (h : Speaks speaker text) {tags : List Tag}
    (htags : ∀ tag ∈ tags, tag.Printable) (haddressed : speaker = "" → ¬Addressed text.toList) :
    readLine (sayRow speaker text tags) = .ok (.say speaker text tags) := by
  have hopen : after? ['<', '<'] (sayRow speaker text tags) = none := by
    refine after?_eq_none fun hfront => h.unbracketed ?_
    exact (pair_at_front h.spoken_ne (by decide) (head_tags tags) hfront).isInfix
  have htext : text.toList.isEmpty = false := List.isEmpty_eq_false_iff.mpr h.text_ne
  rw [readLine, hopen, splitGuard?_unguarded (unguarded_sayRow h htags)]
  show readSpeech (sayRow speaker text tags) = _
  rw [readSpeech, sayRow, splitTags_tags h.untagged h.last htags]
  simp only [h.splitSpeaker_spoken haddressed, htext, String.ofList_toList]
  rfl

end Script

end Parley

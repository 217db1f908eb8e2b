import Mathlib.Data.List.Induction
import Mathlib.Logic.Relation
import Parley.Proofs.Script.Formed
import Parley.Proofs.Script.Misplaced
import Parley.Proofs.Script.Tagged

/-! The one way to split tags off.

A text can be written in just one way as a text that does not end in a tag, and then tags, each behind blanks
(`splits_iff`). Tags are taken off in rounds, the last one first: a round takes any tag that it finds at the end, with
the blanks before it (`Round`). No round changes what is split off in the end (`whollySplit_of_round`), and every round
makes the text shorter (`length_of_round`), so all rounds come to the same, and come to an end. What is said in a script
ends in no tag either (`splits_in_one_way`). -/
namespace Parley.Script

open Text

variable {s front text : List Char} {tags : List Tag}

/-- Tags stand after a text, each behind blanks. Only the first may stand behind none, if there is nothing before it. -/
inductive Tagging (text : List Char) : List Tag → List Char → Prop where
  | none : Tagging text [] text
  | tag {tags : List Tag} {s gap : List Char} {tag : Tag} (before : Tagging text tags s)
      (blank : ∀ c ∈ gap, isBlank c = true) (apart : gap ≠ [] ∨ (text = [] ∧ tags = [])) (formed : tag.Formed) :
      Tagging text (tags ++ [tag]) (s ++ (gap ++ tag.printed))

/-- A text is split into a text and the tags after it: no blank is left before the tags, and no tag in the text. -/
structure Splits (s text : List Char) (tags : List Tag) : Prop where
  tagging : Tagging text tags s
  trimmed : tags ≠ [] → ∀ c ∈ text.getLast?, isBlank c = false
  untagged : ¬EndsTagged text

/-- A text, and the tags that have been taken off after it. -/
abbrev Parted := List Char × List Tag

/-- One round: a tag is found at the end of the text, at the beginning or behind a blank. It goes before the tags that
have been taken off, and what stands before it is trimmed at its end. -/
inductive Round : Parted → Parted → Prop where
  | atBeginning {tag : Tag} {tags : List Tag} (formed : tag.Formed) : Round (tag.printed, tags) ([], tag :: tags)
  | behindBlank {front : List Char} {c : Char} {tag : Tag} {tags : List Tag} (blank : isBlank c = true)
      (formed : tag.Formed) : Round (front ++ c :: tag.printed, tags) (trimEnd front, tag :: tags)

/-! ### Splitting -/

/-- What a text without a blank at its end is tagged with does not end in a blank. -/
theorem Tagging.last (h : Tagging text tags s) (hlast : ∀ c ∈ text.getLast?, isBlank c = false) :
    ∀ c ∈ s.getLast?, isBlank c = false := by
  cases h with
  | none => exact hlast
  | tag _ _ _ formed =>
    have hprinted := not_blank_last (not_blank_printed formed)
    exact forall_last_append (by simp [Tag.printed]) (forall_last_append (List.cons_ne_nil _ _) hprinted)

theorem Tagging.eq_of_nil (h : Tagging text [] s) : s = text := by
  generalize htags : ([] : List Tag) = tags at h
  cases h with
  | none => rfl
  | tag => exact absurd htags.symm (List.append_ne_nil_of_right_ne_nil _ (List.cons_ne_nil _ _))

/-- The last of the tags is taken off first. -/
theorem Tagging.lastTag?_eq {gap : List Char} {tag : Tag} (before : Tagging text tags s)
    (hlast : ∀ c ∈ text.getLast?, isBlank c = false) (blank : ∀ c ∈ gap, isBlank c = true)
    (apart : gap ≠ [] ∨ (text = [] ∧ tags = [])) (formed : tag.Formed) :
    lastTag? (s ++ (gap ++ tag.printed)) = some (s, tag) := by
  have hfront : ∀ c ∈ (s ++ gap).getLast?, isBlank c = true := by
    rcases apart with hgap | ⟨rfl, rfl⟩
    · exact forall_last_append hgap fun c hc => blank c (List.mem_of_getLast? hc)
    · rw [before.eq_of_nil, List.nil_append]
      exact fun c hc => blank c (List.mem_of_getLast? hc)
  rw [← List.append_assoc, lastTag?_printed hfront formed, trimEnd_append s blank, trimEnd_of_last (before.last hlast)]

/-- Tags after a text that does not end in a blank are taken off it in order. -/
theorem Tagging.splitTags_eq (h : Tagging text tags s) (hlast : ∀ c ∈ text.getLast?, isBlank c = false) :
    splitTags s = ((splitTags text).1, (splitTags text).2 ++ tags) := by
  induction h with
  | none => simp
  | tag before blank apart formed ih =>
    rw [splitTags_of_some (before.lastTag?_eq hlast blank apart formed), ih, List.append_assoc]

theorem splitTags_of_not_endsTagged (h : ¬EndsTagged s) : splitTags s = (s, []) := by
  apply splitTags_of_none
  rwa [← isSome_lastTag?_iff, Option.not_isSome_iff_eq_none] at h

/-- What ends in a blank has blanks to trim off, and what does not end at all is empty. -/
theorem exists_gap_of_last (hfront : ∀ c ∈ front.getLast?, isBlank c = true) :
    ∃ gap, front = trimEnd front ++ gap ∧ (∀ c ∈ gap, isBlank c = true) ∧ (gap ≠ [] ∨ front = []) := by
  obtain ⟨gap, hgap, hblank⟩ := exists_gap front
  refine ⟨gap, hgap, hblank, ?_⟩
  by_cases hnil : gap = []
  · right
    rw [hnil, List.append_nil] at hgap
    have hnone : ∀ c, c ∉ front.getLast? := by
      intro c hc
      have htrimmed : isBlank c = false := last_trimEnd front c (by rwa [← hgap])
      rw [hfront c hc] at htrimmed
      cases htrimmed
    exact List.getLast?_eq_none_iff.mp (Option.eq_none_iff_forall_not_mem.mpr hnone)
  · exact .inl hnil

theorem tagging_splitTags (s : List Char) : Tagging (splitTags s).1 (splitTags s).2 s := by
  induction s using splitTags.induct with
  | case1 s hnone =>
    rw [splitTags_of_none hnone]
    exact .none
  | case2 s rest tag hsome _ _ _ ih =>
    rw [splitTags_of_some hsome]
    obtain ⟨front, hs, hfront, hformed, rfl⟩ := lastTag?_eq_some_iff.mp hsome
    obtain ⟨gap, hgap, hblank, hempty⟩ := exists_gap_of_last hfront
    have happend : s = trimEnd front ++ (gap ++ tag.printed) := by rw [← List.append_assoc, ← hgap, hs]
    rw [happend]
    refine .tag ih hblank ?_ hformed
    rcases hempty with hne | rfl
    · exact .inl hne
    · have hnothing : splitTags (trimEnd []) = ([], []) := splitTags_untagged List.not_mem_nil
      rw [hnothing]
      exact .inr ⟨rfl, rfl⟩

/-- What is left when a tag has been taken off does not end in a blank. -/
theorem last_splitTags (s : List Char) (h : (splitTags s).2 ≠ []) :
    ∀ c ∈ (splitTags s).1.getLast?, isBlank c = false := by
  induction s using splitTags.induct with
  | case1 s hnone =>
    rw [splitTags_of_none hnone] at h
    exact absurd rfl h
  | case2 s rest tag hsome text tags hrest ih =>
    rw [splitTags_of_some hsome]
    by_cases hmore : (splitTags rest).2 = []
    · obtain ⟨front, -, -, -, rfl⟩ := lastTag?_eq_some_iff.mp hsome
      rw [splitTags_eq_self hmore]
      exact last_trimEnd front
    · exact ih hmore

/-- A text is split in one way only. -/
theorem splits_iff : Splits s text tags ↔ splitTags s = (text, tags) := by
  constructor
  · intro h
    have huntagged := splitTags_of_not_endsTagged h.untagged
    by_cases hnone : tags = []
    · have htagging := h.tagging
      rw [hnone] at htagging
      rw [htagging.eq_of_nil, huntagged, hnone]
    · rw [h.tagging.splitTags_eq (h.trimmed hnone), huntagged, List.nil_append]
  · intro h
    obtain ⟨rfl, rfl⟩ := Prod.mk.inj h
    exact ⟨tagging_splitTags s, last_splitTags s, not_endsTagged_splitTags s⟩

/-! ### Rounds -/

/-- What the rest of the rounds come to: the tags that are still to be taken off stand before the others. -/
def whollySplit (parted : Parted) : Parted := ((splitTags parted.1).1, (splitTags parted.1).2 ++ parted.2)

theorem round_iff {next : Parted} :
    Round (s, tags) next ↔ ∃ rest tag, lastTag? s = some (rest, tag) ∧ next = (rest, tag :: tags) := by
  constructor
  · intro h
    cases h with
    | @atBeginning tag tags formed =>
      have hnothing : ∀ c ∈ ([] : List Char).getLast?, isBlank c = true := fun _ hc => nomatch hc
      exact ⟨[], tag, lastTag?_printed hnothing formed, rfl⟩
    | @behindBlank front c tag tags blank formed =>
      have hfront : ∀ d ∈ (front ++ [c]).getLast?, isBlank d = true := by
        rw [List.getLast?_concat]
        exact forall_of_some blank
      have htrim : trimEnd (front ++ [c]) = trimEnd front := trimEnd_append front (List.forall_mem_singleton.mpr blank)
      refine ⟨_, tag, ?_, rfl⟩
      rw [List.append_cons, lastTag?_printed hfront formed, htrim]
  · intro h
    obtain ⟨rest, tag, htag, hnext⟩ := h
    obtain ⟨front, hs, hfront, hformed, hrest⟩ := lastTag?_eq_some_iff.mp htag
    rw [hnext, hs, hrest]
    cases front using List.reverseRecOn with
    | nil => exact .atBeginning hformed
    | append_singleton front c =>
      have hblank : isBlank c = true := hfront c (by rw [List.getLast?_concat]; rfl)
      rw [trimEnd_append front (List.forall_mem_singleton.mpr hblank), ← List.append_cons]
      exact .behindBlank hblank hformed

/-- A round does not change what the rounds come to. -/
theorem whollySplit_of_round {parted next : Parted} (h : Round parted next) :
    whollySplit next = whollySplit parted := by
  obtain ⟨s, tags⟩ := parted
  obtain ⟨rest, tag, htag, rfl⟩ := round_iff.mp h
  simp only [whollySplit, splitTags_of_some htag, List.append_assoc, List.cons_append, List.nil_append]

/-- A round takes one tag off, and makes the text shorter. -/
theorem length_of_round {parted next : Parted} (h : Round parted next) :
    next.2.length = parted.2.length + 1 ∧ next.1.length < parted.1.length := by
  obtain ⟨s, tags⟩ := parted
  obtain ⟨rest, tag, htag, rfl⟩ := round_iff.mp h
  exact ⟨rfl, length_lt_of_lastTag? htag⟩

theorem whollySplit_of_rounds {parted next : Parted} (h : Relation.ReflTransGen Round parted next) :
    whollySplit next = whollySplit parted := by
  induction h with
  | refl => rfl
  | tail _ hround ih => rw [whollySplit_of_round hround, ih]

theorem length_of_rounds {parted next : Parted} (h : Relation.ReflTransGen Round parted next) :
    next.2.length + next.1.length ≤ parted.2.length + parted.1.length := by
  induction h with
  | refl => exact Nat.le_refl _
  | tail _ hround ih =>
    have := length_of_round hround
    omega

/-- There is no round to go on with exactly when what the rounds come to is there. -/
theorem no_round_iff {parted : Parted} : (¬∃ next, Round parted next) ↔ whollySplit parted = parted := by
  obtain ⟨s, tags⟩ := parted
  simp only [round_iff]
  cases htag : lastTag? s with
  | none => simp [whollySplit, splitTags_of_none htag]
  | some found =>
    obtain ⟨rest, tag⟩ := found
    have hlength : (whollySplit (s, tags)).2.length ≠ tags.length := by
      simp only [whollySplit, splitTags_of_some htag, List.length_append, List.length_cons]
      omega
    refine iff_of_false (fun h => h ⟨_, rest, tag, rfl, rfl⟩) fun h => hlength ?_
    rw [h]

/-- Rounds can go on to what they come to. -/
theorem rounds_to_whollySplit (s : List Char) (tags : List Tag) :
    Relation.ReflTransGen Round (s, tags) (whollySplit (s, tags)) := by
  induction s using splitTags.induct generalizing tags with
  | case1 s hnone =>
    rw [whollySplit, splitTags_of_none hnone]
    exact .refl
  | case2 s rest tag hsome _ _ _ ih =>
    have hround : Round (s, tags) (rest, tag :: tags) := round_iff.mpr ⟨rest, tag, hsome, rfl⟩
    rw [← whollySplit_of_round hround]
    exact (ih (tag :: tags)).head hround

/-! ### Speeches -/

/-- What a speech says does not end in a tag. -/
theorem not_endsTagged_of_readSpeech (htrim : trim s = s) {line : Line (Option Int)} (h : readSpeech s = .ok line) :
    ∃ speaker text, line = .say speaker text (splitTags s).2 ∧ ¬EndsTagged text.toList := by
  obtain ⟨hsaid, hline⟩ := readSpeech_eq_ok_iff.mp h
  have hlast := (trim_eq_self_iff.mp (trim_splitTags htrim)).2
  refine ⟨_, _, hline, ?_⟩
  rw [String.toList_ofList, endsTagged_splitSpeaker_iff hlast hsaid]
  exact not_endsTagged_splitTags s

/-- What is said in a script does not end in a tag. -/
theorem not_endsTagged_of_read {source : String} {nodes : List (Node (Option Int))} (h : read source = .ok nodes)
    {node : Node (Option Int)} (hnode : node ∈ nodes) {speaker text : String}
    (hsaid : .say speaker text tags ∈ node.lines) : ¬EndsTagged text.toList := by
  obtain ⟨line, hline, hread⟩ := exists_line_of_read h hnode hsaid fun _ heq => nomatch heq
  have htrim := trim_of_mem_sourceLines (mem_of_mem_bodyLines hline)
  rcases readLine_cases hread with hstatement | ⟨-, hspeech⟩
  · exact absurd hstatement readStatement_ne_say
  · obtain ⟨_, _, heq, huntagged⟩ := not_endsTagged_of_readSpeech htrim hspeech
    cases heq
    exact huntagged

/-- **Tags are split off in one way.** Rounds that take a tag off the end of a trimmed text, wherever they find one,
are no more than the text has characters, and there is no further round exactly when the text is split. The split is
the only one there is: a text that does not end in a tag, and after it the tags, in order, each behind blanks. So there
is nothing to split off what is left of the text. What a speech says does not end in a tag either, in whatever script it
stands. -/
theorem splits_in_one_way {s : List Char} (htrim : trim s = s) :
    (∀ parted, Relation.ReflTransGen Round (s, []) parted →
      parted.2.length ≤ s.length ∧ ((¬∃ next, Round parted next) ↔ splitTags s = parted)) ∧
    Relation.ReflTransGen Round (s, []) (splitTags s) ∧
    (∀ text tags, Splits s text tags ↔ splitTags s = (text, tags)) ∧
    splitTags (splitTags s).1 = ((splitTags s).1, []) ∧
    (∀ line, readSpeech s = .ok line →
      ∃ speaker text, line = .say speaker text (splitTags s).2 ∧ ¬EndsTagged text.toList) ∧
    ∀ source nodes, read source = .ok nodes → ∀ node ∈ nodes, ∀ speaker text tags,
      .say speaker text tags ∈ node.lines → ¬EndsTagged text.toList := by
  have hwhole : whollySplit (s, []) = splitTags s := by rw [whollySplit, List.append_nil]
  refine ⟨fun parted hrounds => ⟨?_, ?_⟩, ?_, fun text tags => splits_iff, ?_, fun line => ?_, ?_⟩
  · have := length_of_rounds hrounds
    simp only [List.length_nil] at this
    omega
  · rw [no_round_iff, whollySplit_of_rounds hrounds, hwhole]
  · rw [← hwhole]
    exact rounds_to_whollySplit s []
  · exact splitTags_of_not_endsTagged (not_endsTagged_splitTags s)
  · exact not_endsTagged_of_readSpeech htrim
  · intro source nodes hread node hnode speaker text tags hsaid
    exact not_endsTagged_of_read hread hnode hsaid

/-- A speech with two tags, whose values look like tags themselves. -/
def hail : List Char := "Bob: Ahoy #mood:calm#b:c  #to:#d:e".toList

def hailTags : List Tag := [⟨"mood", "calm#b:c"⟩, ⟨"to", "#d:e"⟩]

theorem splits_in_one_way_hail :
    trim hail = hail ∧ Relation.ReflTransGen Round (hail, []) ("Bob: Ahoy".toList, hailTags) ∧
      (¬∃ next, Round ("Bob: Ahoy".toList, hailTags) next) ∧ Splits hail "Bob: Ahoy".toList hailTags ∧
      splitTags "Bob: Ahoy".toList = ("Bob: Ahoy".toList, []) ∧
      readSpeech hail = .ok (.say "Bob" "Ahoy" hailTags) ∧
      (∃ nodes, read (solitary hail) = .ok nodes ∧ ∃ node ∈ nodes, .say "Bob" "Ahoy" hailTags ∈ node.lines) ∧
      ¬EndsTagged "Ahoy".toList := by
  have htrim : trim hail = hail := by decide
  have hsplit : splitTags hail = ("Bob: Ahoy".toList, hailTags) := by cbv
  have hread : readSpeech hail = .ok (.say "Bob" "Ahoy" hailTags) := by
    rw [readSpeech, hsplit]
    decide +kernel
  have hrow : BodyRow hail := ⟨by decide, htrim, by decide, by decide, by decide, by decide⟩
  have hline : rowLine 3 hail ∈ bodyLinesOf (solitary hail) := by
    rw [bodyLinesOf_solitary hrow]
    exact List.mem_cons_self
  have hsaid : readLine hail = .ok (.say "Bob" "Ahoy" hailTags) := hread
  obtain ⟨nodes, hnodes⟩ := (read_solitary_iff hrow rfl).mpr ⟨_, hsaid⟩
  obtain ⟨node, hnode, hmem⟩ : ∃ node ∈ nodes, .say "Bob" "Ahoy" hailTags ∈ node.lines := by
    apply exists_node_of_readLine hnodes hline rfl hsaid
    · intro target index h
      cases h
    · intro menu h
      cases h
  obtain ⟨hrounds, hreach, hsplits, hagain, -, hscript⟩ := splits_in_one_way htrim
  rw [hsplit] at hreach hagain
  exact ⟨htrim, hreach, (hrounds _ hreach).2.mpr hsplit, (hsplits _ _).mpr hsplit, hagain, hread,
    ⟨nodes, hnodes, node, hnode, hmem⟩, hscript _ _ hnodes _ hnode _ _ _ hmem⟩

end Parley.Script

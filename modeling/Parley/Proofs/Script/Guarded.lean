import Parley.Proofs.Script.Names
import Parley.Proofs.Script.Speech

/-! Lines that end in a guard and are no option.

A guard is looked for at the end of a line before its tags are taken off, and in a statement only at its front.
So a line that ends in a guard is refused (`readLine_guarded_iff`), but for two ways to slip through: a speech
whose tags stand after the guard, and a command with the guard among its words. -/
namespace Parley.Script

open Text

/-- A guard stands at the end of a text. -/
def EndsGuarded (s : List Char) : Prop :=
  ∃ before opening, s = before ++ (opening ++ ['>', '>']) ∧ Opens opening

/-- A guard stands at the end of a line, before its tags. -/
def Guarded (s : List Char) : Prop := EndsGuarded (splitTags s).1

/-- A statement that is read as a command, by its words. -/
def ReadsAsCommand (s : List Char) : Prop :=
  ∃ inner name arguments, statement? s = some inner ∧
    (firstWord inner ≠ "set".toList ∧ firstWord inner ≠ "jump".toList ∧ firstWord inner ≠ "if".toList) ∧
    Shell.words inner = .ok (name :: arguments) ∧ isWordText name = true

/-- How a line that ends in a guard, tags aside, escapes the search for guards: it is no statement and does not
itself end as one, or it is a command. -/
def Slips (s : List Char) : Prop :=
  (¬['<', '<'] <+: s ∧ ¬['>', '>'] <:+ s) ∨ ReadsAsCommand s

/-! ### Guards at the end -/

theorem dropClosing?_eq_some_iff {s inner : List Char} :
    dropClosing? s = some inner ↔ s = inner ++ ['>', '>'] := by
  refine ⟨fun h => ?_, fun h => h ▸ dropClosing?_append inner⟩
  obtain ⟨reversed, hafter, rfl⟩ := Option.map_eq_some_iff.mp h
  have heq := congrArg List.reverse (after?_eq_some_iff.mp hafter)
  rw [List.reverse_reverse, List.reverse_append] at heq
  exact heq

/-- A guard is split off exactly where one stands at the end. -/
theorem isSome_splitGuard?_iff {s : List Char} : (splitGuard? s).isSome = true ↔ EndsGuarded s := by
  rw [splitGuard?, Option.isSome_bind, Option.any_eq_true]
  have hopening : ∀ {inner : List Char}, (splitOpening? inner).isSome = true ↔ ∃ t, t <:+ inner ∧ Opens t := by
    intro inner
    rw [Option.isSome_iff_ne_none, Ne, splitOpening?_eq_none_iff]
    simp [Unguarded]
  constructor
  · intro h
    obtain ⟨inner, hinner, hsome⟩ := h
    obtain ⟨opening, ⟨before, rfl⟩, hopens⟩ := hopening.mp hsome
    exact ⟨before, opening, by rw [dropClosing?_eq_some_iff.mp hinner, List.append_assoc], hopens⟩
  · intro h
    obtain ⟨before, opening, hs, hopens⟩ := h
    rw [← List.append_assoc] at hs
    exact ⟨_, dropClosing?_eq_some_iff.mpr hs, hopening.mpr ⟨opening, List.suffix_append _ _, hopens⟩⟩

instance (s : List Char) : Decidable (EndsGuarded s) := decidable_of_iff _ isSome_splitGuard?_iff

theorem EndsGuarded.of_suffix {s t : List Char} (h : EndsGuarded t) (ht : t <:+ s) : EndsGuarded s := by
  obtain ⟨before, opening, rfl, hopens⟩ := h
  obtain ⟨front, rfl⟩ := ht
  exact ⟨front ++ before, opening, by rw [List.append_assoc], hopens⟩

/-- The guard that is split off is the first that begins. -/
theorem splitGuard?_first {s before condition : List Char} (h : splitGuard? s = some (before, condition)) :
    ∃ opening, s = before ++ (opening ++ ['>', '>']) ∧ guardOpening? opening = some condition ∧
      ∀ t, t <:+ before ++ opening → Opens t → t <:+ opening := by
  obtain ⟨inner, hinner, hopening⟩ := Option.bind_eq_some_iff.mp h
  obtain ⟨opening, rfl, hcondition, hfirst⟩ := splitOpening?_first hopening
  refine ⟨opening, ?_, hcondition, hfirst⟩
  rw [dropClosing?_eq_some_iff.mp hinner, List.append_assoc]

/-- Tags are taken off the end. -/
theorem splitTags_front (s : List Char) : (splitTags s).1 <+: s := by
  induction s using splitTags.induct with
  | case1 s hnone =>
    exact ⟨[], by rw [splitTags_of_none hnone, List.append_nil]⟩
  | case2 s rest tag hsome text tags hrest ih =>
    rw [splitTags_of_some hsome]
    refine ih.trans ?_
    obtain ⟨_, _, heq⟩ := Option.map_eq_some_iff.mp hsome
    cases heq
    obtain ⟨gap, hgap, _⟩ := exists_gap (beforeLastWord s)
    refine List.IsPrefix.trans ⟨gap, hgap.symm⟩ ⟨lastWord s, ?_⟩
    exact beforeLastWord_append_lastWord s

/-- A guard before the tags of a line stands at its end, if the line ends as a guard does. -/
theorem endsGuarded_of_closed {s said : List Char} (hsaid : said <+: s) (h : EndsGuarded said)
    (hclosed : ['>', '>'] <:+ s) : EndsGuarded s := by
  obtain ⟨before, opening, rfl, hopens⟩ := h
  obtain ⟨tail, hs⟩ := hsaid
  obtain ⟨inner, hinner⟩ := hclosed
  have hfront : before ++ opening <+: inner := by
    refine List.prefix_of_prefix_length_le ⟨['>', '>'] ++ tail, ?_⟩ ⟨['>', '>'], hinner⟩ ?_
    · simpa using hs
    · have hlength := congrArg List.length (hs.trans hinner.symm)
      simp only [List.length_append, List.length_cons, List.length_nil] at hlength ⊢
      omega
  obtain ⟨more, rfl⟩ := hfront
  have hmore : more ++ ['>', '>'] = ['>', '>'] ++ tail := by
    have hsame := hinner.trans hs.symm
    simp only [List.append_assoc] at hsame
    exact List.append_cancel_left (List.append_cancel_left hsame)
  refine ⟨before, opening ++ more, by simp [← hinner], opens_append hopens fun c hc => ?_⟩
  cases more with
  | nil => nomatch hc
  | cons d more =>
    cases hc
    rw [(List.cons.inj hmore).1]
    decide

/-! ### Statements without a bracket -/

/-- Trimming takes away blanks only. -/
theorem mem_trimStart {s : List Char} {c : Char} (hc : isBlank c = false) (h : c ∈ s) : c ∈ trimStart s := by
  obtain ⟨gap, hgap, hblank⟩ := exists_lead s
  rw [hgap] at h
  refine (List.mem_append.mp h).resolve_left fun hmem => ?_
  rw [hblank c hmem] at hc
  cases hc

theorem mem_trim {s : List Char} {c : Char} (hc : isBlank c = false) (h : c ∈ s) : c ∈ trim s := by
  obtain ⟨gap, hgap, hblank⟩ := exists_gap (trimStart s)
  have hstart := mem_trimStart hc h
  rw [hgap] at hstart
  refine (List.mem_append.mp hstart).resolve_right fun hmem => ?_
  rw [hblank c hmem] at hc
  cases hc

theorem not_mem_of_trimStart {s : List Char} (h : '<' ∉ trimStart s) : '<' ∉ s :=
  fun hmem => h (mem_trimStart (by decide) hmem)

theorem not_mem_of_after? {lead s rest : List Char} (h : after? lead s = some rest) (hlead : '<' ∉ lead)
    (hrest : '<' ∉ rest) : '<' ∉ s := by
  rw [after?_eq_some_iff.mp h, List.mem_append, not_or]
  exact ⟨hlead, hrest⟩

theorem not_mem_of_afterWord? {word s rest : List Char} (h : afterWord? word s = some rest) (hword : '<' ∉ word)
    (hrest : '<' ∉ rest) : '<' ∉ s := by
  obtain ⟨found, hfound, h⟩ := Option.bind_eq_some_iff.mp h
  split at h
  · cases h
    exact not_mem_of_after? hfound hword (not_mem_of_trimStart hrest)
  · cases h

theorem not_mem_of_jumpTarget? {s target : List Char} (h : jumpTarget? s = some target) : '<' ∉ s := by
  have htitle := isTitle_of_jumpTarget? h
  rw [isTitle, Bool.and_eq_true, List.all_eq_true] at htitle
  obtain ⟨found, hfound, h⟩ := Option.bind_eq_some_iff.mp h
  split at h
  · cases h
    exact not_mem_of_afterWord? hfound (by decide) fun hmem => absurd (htitle.2 '<' hmem) (by decide +kernel)
  · cases h

theorem not_mem_of_truth {token : List Char} {value : Bool} (h : truth token = .ok value) : '<' ∉ token := by
  unfold truth at h
  split at h
  · rename_i htrue
    rw [htrue]
    decide
  · split at h
    · rename_i hfalse
      rw [hfalse]
      decide
    · cases h

theorem not_mem_of_assigned? {s value : List Char} (h : assigned? s = some value) (hvalue : '<' ∉ value) :
    '<' ∉ s := by
  obtain ⟨found, hfound, h⟩ := Option.bind_eq_some_iff.mp h
  dsimp only at h
  split at h
  · cases h
    refine not_mem_of_trimStart ?_
    rcases Option.or_eq_some_iff.mp hfound with hto | ⟨-, hequals⟩
    · exact not_mem_of_after? hto (by decide) (not_mem_of_trimStart hvalue)
    · exact not_mem_of_after? hequals (by decide) (not_mem_of_trimStart hvalue)
  · cases h

theorem not_mem_of_assignment? {s name value : List Char} (h : assignment? s = some (name, value))
    (hvalue : '<' ∉ value) : '<' ∉ s := by
  obtain ⟨rest, hrest, h⟩ := Option.bind_eq_some_iff.mp h
  obtain ⟨found, hfound, h⟩ := Option.bind_eq_some_iff.mp h
  obtain ⟨hname, after, rfl, hassigned⟩ := of_cutWord? h
  refine not_mem_of_afterWord? hrest (by decide) (not_mem_of_after? hfound (by decide) ?_)
  rw [List.mem_append, not_or]
  exact ⟨not_mem_of_isWordText hname (by decide), not_mem_of_assigned? hassigned hvalue⟩

/-! ### Guarded statements -/

/-- What a text begins with when it is trimmed, it begins with also before more. -/
theorem head_trimStart_append {s : List Char} {c : Char} (hc : c ∈ (trim s).head?) (more : List Char) :
    c ∈ (trimStart (s ++ more)).head? := by
  obtain ⟨gap, hgap, -⟩ := exists_gap (trimStart s)
  cases htrim : trim s with
  | nil =>
    rw [htrim] at hc
    cases hc
  | cons d rest =>
    rw [htrim] at hc
    have hstart : trimStart s = d :: rest ++ gap := by rw [← htrim]; exact hgap
    have hne : (trimStart s).isEmpty = false := by rw [hstart]; rfl
    rw [trimStart, List.dropWhile_append, if_neg (by rw [← trimStart, hne]; decide), ← trimStart, hstart]
    exact hc

/-- A statement with a guard at its end, tags aside, is a guard itself, or has a bracket inside. -/
theorem head_or_mem_of_guarded {s said inner : List Char} (hstatement : statement? s = some inner)
    (hsaid : said <+: s) (h : EndsGuarded said) : (∀ c ∈ inner.head?, c = 'i') ∨ '<' ∈ inner := by
  obtain ⟨before, opening, rfl, gap, rest, rfl, hblank, -⟩ := h
  obtain ⟨tail, htail⟩ := hsaid
  obtain ⟨middle, hmiddle, rfl⟩ := Option.map_eq_some_iff.mp hstatement
  obtain ⟨closed, hclosed, hdrop⟩ := Option.bind_eq_some_iff.mp hmiddle
  rw [after?_eq_some_iff.mp hclosed, dropClosing?_eq_some_iff.mp hdrop] at htail
  have hmem : '<' ∈ middle ++ ['>', '>'] → '<' ∈ trim middle := by
    intro h
    exact mem_trim (by decide) ((List.mem_append.mp h).resolve_right (by decide))
  -- the guard begins where the statement does, at its second bracket, or after both
  match before with
  | [] =>
    simp only [List.nil_append, List.append_assoc, List.append_cancel_left_eq] at htail
    refine .inl fun c hc => ?_
    have hclosing : c ∈ (trimStart (middle ++ ['>', '>'])).head? := head_trimStart_append hc _
    rw [← htail, trimStart_append _ hblank] at hclosing
    cases hclosing
    rfl
  | [_] =>
    simp only [List.cons_append, List.nil_append, List.cons.injEq, true_and] at htail
    exact .inr (hmem (htail.2 ▸ List.mem_cons_self))
  | _ :: _ :: before =>
    simp only [List.cons_append, List.nil_append, List.cons.injEq] at htail
    exact .inr (hmem (htail.2.2 ▸ by simp))

theorem prefix_of_afterWord? {word s rest : List Char} (h : afterWord? word s = some rest) : word <+: s := by
  obtain ⟨found, hfound, -⟩ := Option.bind_eq_some_iff.mp h
  exact ⟨found, (after?_eq_some_iff.mp hfound).symm⟩

/-- An assignment or a jump has no guard at its end. -/
theorem not_guarded_of_lead {s said inner word : List Char} {c : Char} (hstatement : statement? s = some inner)
    (hsaid : said <+: s) (hword : word <+: inner) (hc : c ∈ word.head?) (hne : c ≠ 'i') (hinner : '<' ∉ inner) :
    ¬EndsGuarded said := by
  intro h
  obtain ⟨rest, rfl⟩ := hword
  rcases head_or_mem_of_guarded hstatement hsaid h with hfirst | hmem
  · refine hne (hfirst c ?_)
    rw [List.head?_append, Option.mem_def.mp hc]
    rfl
  · exact hinner hmem

/-- A statement with a guard at its end, tags aside, is read as a command or not at all. -/
theorem readStatement_guarded_iff {s said : List Char} (hsaid : said <+: s) (h : EndsGuarded said) :
    (∃ line, readStatement s = .ok line) ↔ ReadsAsCommand s := by
  constructor
  · intro ⟨line, hline⟩
    unfold readStatement at hline
    split at hline
    · cases hline
    rename_i inner hstatement
    dsimp only at hline
    split at hline
    · split at hline
      · cases hline
      · rename_i hassignment
        obtain ⟨value, htruth, -⟩ := map_eq_ok_iff.mp hline
        have hinner := not_mem_of_assignment? hassignment (not_mem_of_truth htruth)
        obtain ⟨rest, hrest, -⟩ := Option.bind_eq_some_iff.mp hassignment
        exact absurd h (not_guarded_of_lead hstatement hsaid (prefix_of_afterWord? hrest) rfl (by decide) hinner)
    rename_i hset
    split at hline
    · split at hline
      · cases hline
      · rename_i hjump
        have hinner := not_mem_of_jumpTarget? hjump
        obtain ⟨rest, hrest, -⟩ := Option.bind_eq_some_iff.mp hjump
        exact absurd h (not_guarded_of_lead hstatement hsaid (prefix_of_afterWord? hrest) rfl (by decide) hinner)
    rename_i hjump
    split at hline
    · cases hline
    rename_i hif
    unfold readCommand at hline
    split at hline
    · cases hline
    · cases hline
    · rename_i name arguments hwords
      split at hline
      · rename_i hname
        exact ⟨inner, name, arguments, hstatement, ⟨hset, hjump, hif⟩, hwords, hname⟩
      · cases hline
  · intro ⟨inner, name, arguments, hstatement, ⟨hset, hjump, hif⟩, hwords, hname⟩
    refine ⟨.command (String.ofList name) (arguments.map String.ofList), ?_⟩
    unfold readStatement readCommand
    simp only [hstatement, if_neg hset, if_neg hjump, if_neg hif, hwords, hname, if_true]

/-! ### Guarded speeches -/

/-- Either nobody speaks, or what is said stands after a colon and a blank. -/
theorem splitSpeaker_eq_or (s : List Char) :
    splitSpeaker s = ([], s) ∨ ∃ front rest, s = front ++ ':' :: rest ∧ (∀ c ∈ rest.head?, isBlank c = true) ∧
      (splitSpeaker s).2 = trim rest := by
  unfold splitSpeaker
  cases hsplit : splitSpeaker? s with
  | none => exact .inl rfl
  | some parts =>
    obtain ⟨rest, hrest, h⟩ := Option.bind_eq_some_iff.mp hsplit
    split at h
    · rename_i hspeaker
      cases h
      refine .inr ⟨s.takeWhile (· != ':'), rest, ?_, fun c hc => ?_, rfl⟩
      · have hdrop : s.dropWhile (· != ':') = ':' :: rest := after?_eq_some_iff.mp hrest
        rw [← hdrop, List.takeWhile_append_dropWhile]
      · rw [hc] at hspeaker
        exact (Bool.and_eq_true_iff.mp hspeaker).2
    · cases h

/-- What is said stands at the end of a line that does not end in a blank, after a blank if someone says it. -/
theorem splitSpeaker_append {s : List Char} (hlast : ∀ c ∈ s.getLast?, isBlank c = false) :
    ∃ front, s = front ++ (splitSpeaker s).2 ∧
      ((splitSpeaker s).2 ≠ [] → ∀ c ∈ front.getLast?, isBlank c = true) := by
  rcases splitSpeaker_eq_or s with hnobody | ⟨front, rest, rfl, hblank, hsaid⟩
  · exact ⟨[], by rw [hnobody, List.nil_append], fun _ _ hc => nomatch hc⟩
  · obtain ⟨gap, hgap, hgapBlank⟩ := exists_lead rest
    have hend : trim rest = trimStart rest := by
      refine trimEnd_of_last fun c hc => hlast c ?_
      have hsuffix : trimStart rest <:+ front ++ ':' :: rest :=
        ((List.dropWhile_suffix _).trans (List.suffix_cons ':' rest)).trans (List.suffix_append front _)
      obtain ⟨more, hmore⟩ := hsuffix
      rw [← hmore, List.getLast?_append, Option.mem_def.mp hc]
      rfl
    rw [hsaid, hend]
    refine ⟨(front ++ [':']) ++ gap, ?_, fun hne => ?_⟩
    · rw [List.append_assoc, ← hgap, ← List.append_cons]
    · cases gap with
      | nil =>
        -- without a blank after the colon nobody would speak
        obtain ⟨d, said, hrest⟩ := List.exists_cons_of_ne_nil hne
        rw [hrest] at hgap
        have hd := head_trimStart rest d (by rw [hrest]; rfl)
        rw [hblank d (by rw [hgap]; rfl)] at hd
        nomatch hd
      | cons d gap =>
        rw [List.getLast?_append_of_ne_nil _ (List.cons_ne_nil d gap)]
        exact fun c hc => hgapBlank c (List.mem_of_getLast? hc)

theorem splitSpeaker_suffix {s : List Char} (hlast : ∀ c ∈ s.getLast?, isBlank c = false) :
    (splitSpeaker s).2 <:+ s := by
  obtain ⟨front, hfront, -⟩ := splitSpeaker_append hlast
  exact ⟨front, hfront.symm⟩

/-- Something is said in a line with a guard at its end. -/
theorem said_ne_nil {s : List Char} (h : EndsGuarded s) : (splitSpeaker s).2 ≠ [] := by
  obtain ⟨before, opening, hs, -⟩ := h
  have hlast : s.getLast? = some '>' := by
    rw [hs, ← List.append_assoc, List.getLast?_append]
    rfl
  rcases splitSpeaker_eq_or s with hnobody | ⟨front, rest, hparts, -, hsaid⟩
  · rw [hnobody]
    intro hnil
    have hempty : s = [] := hnil
    rw [hempty] at hlast
    cases hlast
  · rw [hsaid]
    have hmem : '>' ∈ rest := by
      rw [hparts, List.getLast?_append, List.getLast?_cons, Option.some_or, Option.some.injEq] at hlast
      cases hrest : rest.getLast? with
      | none =>
        rw [hrest] at hlast
        cases hlast
      | some c =>
        rw [hrest] at hlast
        cases hlast
        exact List.mem_of_getLast? hrest
    exact List.ne_nil_of_mem (mem_trim (by decide) hmem)

/-! ### Guarded lines -/

/-- A line that ends in a guard, tags aside, is read exactly if it slips through. -/
theorem readLine_guarded_iff {s : List Char} (h : Guarded s) : (∃ line, readLine s = .ok line) ↔ Slips s := by
  unfold readLine
  cases hopen : after? ['<', '<'] s with
  | some rest =>
    have hfront : ['<', '<'] <+: s := ⟨rest, (after?_eq_some_iff.mp hopen).symm⟩
    refine (readStatement_guarded_iff (splitTags_front s) h).trans ?_
    exact ⟨.inr, fun hslips => hslips.resolve_left fun hspeech => hspeech.1 hfront⟩
  | none =>
    have hfront : ¬['<', '<'] <+: s := by
      intro ⟨rest, hrest⟩
      rw [← hrest, after?_lead] at hopen
      cases hopen
    rw [Option.isSome_none, if_neg Bool.false_ne_true]
    constructor
    · intro ⟨line, hline⟩
      split at hline
      · cases hline
      · rename_i hguard
        refine .inl ⟨hfront, fun hclosed => hguard (isSome_splitGuard?_iff.mpr ?_)⟩
        exact endsGuarded_of_closed (splitTags_front s) h hclosed
    · intro hslips
      rcases hslips with ⟨-, hclosed⟩ | ⟨inner, _, _, hstatement, -⟩
      · have hguard : ¬(splitGuard? s).isSome = true := by
          rw [isSome_splitGuard?_iff]
          intro ⟨before, opening, hs, _⟩
          exact hclosed ⟨before ++ opening, by simp [hs]⟩
        have hsaid : ¬(splitSpeaker (splitTags s).1).2.isEmpty = true := by
          rw [List.isEmpty_iff]
          exact said_ne_nil h
        rw [if_neg hguard]
        exact ⟨_, if_neg hsaid⟩
      · rw [statement?, hopen] at hstatement
        cases hstatement

end Parley.Script

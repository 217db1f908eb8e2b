import Parley.Proofs.Script.Speech

/-! Options are read back as they were printed.

The guard of an entry begins at the first two brackets in a row, since there are none in what is said before it
(`splitGuard?_guard`), and it asks what was printed (`readCondition_question`). -/
namespace Parley.Script

open Text

/-! ### Guards -/

/-- What follows the variable in a guard. -/
def asked (comparison : Comparison) (value : Bool) : List Char :=
  ' ' :: (comparison.sign.toList ++ ' ' :: truthWord value)

theorem compared?_asked (comparison : Comparison) (value : Bool) :
    compared? (asked comparison value) = some (comparison.sign.toList, truthWord value) := by
  cases comparison with
  | equal =>
    cases value with
    | false => decide
    | true => decide
  | notEqual =>
    cases value with
    | false => decide
    | true => decide

@[simp] theorem ofOperator?_sign (comparison : Comparison) :
    Comparison.ofOperator? comparison.sign.toList = some comparison := by
  cases comparison with
  | equal => decide
  | notEqual => decide

variable {guard : Guard}

theorem condition?_question (h : isWordText guard.variableName.toList = true) :
    condition? guard.question =
      some (guard.variableName.toList, guard.comparison.sign.toList, truthWord guard.value) := by
  have hspace : ∀ c ∈ (asked guard.comparison guard.value).head?, isWord c = false :=
    forall_of_some (by decide)
  have hcut : cutWord? compared? (guard.variableName.toList ++ asked guard.comparison guard.value) =
      some (guard.variableName.toList, guard.comparison.sign.toList, truthWord guard.value) :=
    cutWord?_run (ne_nil_of_isWordText h) (forall_of_isWordText h) hspace (compared?_asked _ _)
  have htrim : trimStart guard.question =
      ['$'] ++ (guard.variableName.toList ++ asked guard.comparison guard.value) :=
    (trimStart_space _).trans (trimStart_of_head (forall_of_some (by decide)))
  rw [condition?, htrim, after?_lead, Option.bind_some, hcut]

/-- A guard asks what was printed. -/
theorem readCondition_question (h : isWordText guard.variableName.toList = true) :
    readCondition guard.question = .ok guard := by
  rw [readCondition, condition?_question h]
  simp only [ofOperator?_sign, truth_truthWord, String.ofList_toList]
  rfl

/-- The first guard that begins after a text without brackets is the one that was printed. -/
theorem splitOpening?_opening {said : List Char} (h : Unbracketed said) (rest : List Char) :
    splitOpening? (said ++ ' ' :: '<' :: '<' :: 'i' :: 'f' :: ' ' :: rest) = some (said ++ [' '], ' ' :: rest) := by
  induction said with
  | nil => rfl
  | cons c said ih =>
    have hspace : ∀ d ∈ (' ' :: '<' :: '<' :: 'i' :: 'f' :: ' ' :: rest).head?, d = ' ' := forall_of_some rfl
    have hhere : guardOpening? (c :: (said ++ ' ' :: '<' :: '<' :: 'i' :: 'f' :: ' ' :: rest)) = none := by
      refine guardOpening?_eq_none_iff.mpr (not_opens_of_not_front fun hfront => h ?_)
      exact (pair_at_front (List.cons_ne_nil c said) (by decide) hspace hfront).isInfix
    have hrest : Unbracketed said := unbracketed_of_part h (List.infix_cons (List.infix_refl said))
    rw [List.cons_append, splitOpening?, hhere, ih hrest]
    rfl

/-- The guard after a text without brackets is the one that was printed. -/
theorem splitGuard?_guard {said : List Char} (h : Unbracketed said) :
    splitGuard? (said ++ ' ' :: guard.printed) = some (said ++ [' '], guard.question) := by
  have hclosing : said ++ ' ' :: guard.printed =
      (said ++ ' ' :: '<' :: '<' :: 'i' :: 'f' :: guard.question) ++ ['>', '>'] := by
    simp [Guard.printed, bracketed]
  rw [splitGuard?, hclosing, dropClosing?_append, Option.bind_some]
  exact splitOpening?_opening h _

/-! ### Entries -/

/-- What a row says after its arrow. -/
def offered (speaker text : String) (guard : Option Guard) : List Char :=
  spoken speaker text ++ guard.elim [] fun guard => ' ' :: guard.printed

theorem untagged_printed (h : isWordText guard.variableName.toList = true) : '#' ∉ guard.printed := by
  have hname : '#' ∉ guard.variableName.toList := not_mem_of_isWordText h (by decide)
  have hsign : ∀ comparison : Comparison, '#' ∉ comparison.sign.toList := by
    intro comparison
    cases comparison with
    | equal => decide
    | notEqual => decide
  have hvalue : ∀ value, '#' ∉ truthWord value := by decide
  simp [Guard.printed, Guard.question, bracketed, hname, hsign, hvalue]

theorem untagged_offered {speaker text : String} (h : Speaks speaker text) {guard : Option Guard}
    (hguard : ∀ g ∈ guard, isWordText g.variableName.toList = true) : '#' ∉ offered speaker text guard := by
  intro hmem
  rcases List.mem_append.mp hmem with hmem | hmem
  · exact h.untagged hmem
  · cases guard with
    | none => nomatch hmem
    | some g =>
      rcases List.mem_cons.mp hmem with heq | hmem
      · exact absurd heq (by decide)
      · exact untagged_printed (hguard g rfl) hmem

theorem cutGuard_offered {speaker text : String} (h : Speaks speaker text) {guard : Option Guard}
    (hguard : ∀ g ∈ guard, isWordText g.variableName.toList = true) :
    cutGuard (offered speaker text guard) = .ok (spoken speaker text, guard) := by
  cases guard with
  | none =>
    have hsame : offered speaker text none = spoken speaker text := List.append_nil _
    rw [hsame, cutGuard, splitGuard?_unguarded (unguarded_of_unbracketed h.unbracketed)]
  | some g =>
    have hsplit : splitGuard? (offered speaker text (some g)) = some (spoken speaker text ++ [' '], g.question) :=
      splitGuard?_guard h.unbracketed
    simp only [cutGuard, hsplit, readCondition_question (hguard g rfl), trimEnd_space, trimEnd_of_last h.last]
    rfl

variable {ι : Type} {choice : Choice ι} {speaker : String}

theorem arrow?_row (speaker : String) (choice : Choice ι) :
    arrow? (choice.row speaker) = some (' ' :: offered speaker choice.text choice.guard) := rfl

/-- An entry is read back with its speaker. -/
theorem readEntry_offered (hspeaker : CanSpeak speaker) (h : choice.Printable)
    (haddressed : speaker = "" → ¬Addressed choice.text.toList) :
    readEntry (' ' :: offered speaker choice.text choice.guard) =
      .ok ⟨speaker.toList, choice.text.toList, choice.guard⟩ := by
  have hspeaks : Speaks speaker choice.text := ⟨hspeaker, h.text⟩
  have htrim : trimStart (' ' :: offered speaker choice.text choice.guard) =
      offered speaker choice.text choice.guard :=
    (trimStart_space _).trans (trimStart_of_head (forall_head_append hspeaks.spoken_ne hspeaks.head))
  have htext : choice.text.toList.isEmpty = false := List.isEmpty_eq_false_iff.mpr hspeaks.text_ne
  rw [readEntry, htrim, splitTags_untagged (untagged_offered hspeaks h.guard), cutGuard_offered hspeaks h.guard]
  have hsaid := hspeaks.splitSpeaker_spoken haddressed
  show (if (splitSpeaker (spoken speaker choice.text)).2.isEmpty then .error .optionWithoutText
    else .ok ⟨(splitSpeaker (spoken speaker choice.text)).1, (splitSpeaker (spoken speaker choice.text)).2,
      choice.guard⟩ : Except Reason Entry) = _
  rw [hsaid]
  simp only [htext]
  rfl

end Parley.Script

import Mathlib
import Parley.Proofs.Script.Assignment

/-! Conditions.

A condition is `$` and the name of a variable, an operator, and a truth value. The operator is a sign, with blanks
around it or none, or a word between blanks (`Compares`). A word could be cut in many places, but the longest name is
taken first, and then the longest operator: what is cut short leaves an operator or a value that is none. So a text is
read as a guard exactly if it asks what the guard does (`condition_read`). -/
namespace Parley

namespace Text

variable {β : Type} {accept : List Char → Option β} {word rest : List Char} {found : β}

/-- If a word can be cut off before what is accepted, some word is. -/
theorem exists_cutWord? (hword : isWordText word = true) (haccept : accept rest = some found) :
    ∃ longest, cutWord? accept (word ++ rest) = some longest := by
  induction word with
  | nil => cases hword
  | cons c word ih =>
    simp only [isWordText, Bool.and_eq_true, List.all_cons] at hword
    obtain ⟨-, hc, hword⟩ := hword
    rw [List.cons_append, cutWord?, if_pos hc]
    cases word with
    | nil =>
      rw [List.nil_append, haccept]
      cases cutWord? accept rest <;> exact ⟨_, rfl⟩
    | cons d word =>
      obtain ⟨longest, hlongest⟩ := ih (by simpa [isWordText] using hword)
      rw [hlongest]
      exact ⟨_, rfl⟩

/-- No longer word can be cut off than the one that is. -/
theorem cutWord?_rest (h : cutWord? accept (word ++ rest) = some (word, found)) : cutWord? accept rest = none := by
  induction word with
  | nil => exact absurd (of_cutWord? h).1 (by decide)
  | cons c word ih =>
    rw [List.cons_append, cutWord?] at h
    split at h
    · split at h
      · rename_i hcut
        cases h
        exact ih hcut
      · rename_i hcut
        obtain ⟨_, _, heq⟩ := Option.map_eq_some_iff.mp h
        cases heq
        exact hcut
    · cases h

end Text

namespace Script

open Text

/-! ### The grammar -/

/-- A word names a comparison, in letters of either case. -/
inductive Spells : List Char → Comparison → Prop where
  | eq {word : List Char} (letters : word.map Char.toLower = "eq".toList) : Spells word .equal
  | is {word : List Char} (letters : word.map Char.toLower = "is".toList) : Spells word .equal
  | neq {word : List Char} (letters : word.map Char.toLower = "neq".toList) : Spells word .notEqual

/-- What stands between the name and the value of a condition: a sign, with blanks around it or none, or a word between
blanks. -/
inductive Compares : List Char → Comparison → Prop where
  | sign {before after : List Char} (comparison : Comparison) (before_blank : Blanks before)
      (after_blank : Blanks after) : Compares (before ++ (comparison.sign.toList ++ after)) comparison
  | word {before word after : List Char} {comparison : Comparison} (spells : Spells word comparison)
      (before_blank : Blanks before) (after_blank : Blanks after) (before_ne : before ≠ []) (after_ne : after ≠ []) :
      Compares (before ++ (word ++ after)) comparison

/-- A text asks what a guard does: blanks around it aside, it is `$`, a name that is the longest run of word characters
there, an operator, and a truth value. -/
structure Asks (s : List Char) (guard : Guard) : Prop where
  form : ∃ rest between, trim s = '$' :: rest ∧ rest.takeWhile isWord = guard.variableName.toList ∧
    rest.dropWhile isWord = between ++ truthWord guard.value ∧ Compares between guard.comparison
  named : guard.variableName ≠ ""

variable {s rest between before after gap word value name operator : List Char} {comparison : Comparison}
  {truthValue : Bool}

/-! ### Operators -/

/-- A character that is a letter in lower case is a letter. -/
theorem isWord_of_toLower {c : Char} (h : c.toLower.isAlpha = true) : isWord c = true := by
  rw [Char.isAlpha_toLower_eq_isAlpha] at h
  exact isWord_of_isNameStart (Bool.or_eq_true_iff.mpr (.inl h))

/-- A character that is no letter in lower case has no case. -/
theorem eq_of_toLower {c d : Char} (h : c.toLower = d) (hd : d.isAlpha = false) : c = d := by
  rw [← h, Char.isAlpha_toLower_eq_isAlpha] at hd
  rw [← h, Char.toLower_eq_of_not_isUpper]
  exact Bool.eq_false_iff.mp (Bool.or_eq_false_iff.mp hd).1

theorem isWordText_of_letters {letters : List Char} (h : word.map Char.toLower = letters)
    (hall : letters.all Char.isAlpha = true) (hne : letters ≠ []) : isWordText word = true := by
  subst h
  rw [isWordText, Bool.and_eq_true, List.all_eq_true]
  refine ⟨by simpa using hne, fun c hc => isWord_of_toLower ?_⟩
  exact List.all_eq_true.mp hall _ (List.mem_map_of_mem hc)

theorem Spells.isWordText (h : Spells word comparison) : isWordText word = true := by
  cases h with
  | eq letters => exact isWordText_of_letters letters (by decide) (by decide)
  | is letters => exact isWordText_of_letters letters (by decide) (by decide)
  | neq letters => exact isWordText_of_letters letters (by decide) (by decide)

/-- The words that are operators are those that name a comparison. -/
theorem ofOperator?_word_iff (hword : Text.isWordText word = true) :
    Comparison.ofOperator? word = some comparison ↔ Spells word comparison := by
  have htrim : trim word = word := trim_of_no_blank (not_blank_of_isWordText hword)
  rw [Comparison.ofOperator?, htrim]
  constructor
  · intro h
    obtain ⟨⟨sign, found⟩, hfound, rfl⟩ := Option.map_eq_some_iff.mp h
    have hsign : sign = String.ofList (word.map Char.toLower) := of_decide_eq_true (List.find?_some hfound :)
    have hletters : word.map Char.toLower = sign.toList := by rw [hsign, String.toList_ofList]
    -- what is no letter is in the word itself
    have hsame : ∀ c ∈ sign.toList, c.isAlpha = false → isWord c = true := by
      intro c hc hcase
      rw [← hletters] at hc
      obtain ⟨d, hd, hlower⟩ := List.mem_map.mp hc
      rw [← eq_of_toLower hlower hcase]
      exact forall_of_isWordText hword d hd
    have hmem := List.mem_of_find?_eq_some hfound
    simp only [Comparison.operators, List.mem_cons, Prod.mk.injEq, List.not_mem_nil, or_false] at hmem
    rcases hmem with ⟨rfl, rfl⟩ | ⟨rfl, rfl⟩ | ⟨rfl, rfl⟩ | ⟨rfl, rfl⟩ | ⟨rfl, rfl⟩
    · exact absurd (hsame '=' (by decide) (by decide)) (by decide +kernel)
    · exact .eq hletters
    · exact .is hletters
    · exact absurd (hsame '!' (by decide) (by decide)) (by decide +kernel)
    · exact .neq hletters
  · intro h
    cases h with
    | eq letters =>
      rw [letters]
      rfl
    | is letters =>
      rw [letters]
      rfl
    | neq letters =>
      rw [letters]
      rfl

/-! ### Values -/

/-- The value of a condition is a token with blanks around it or none. -/
theorem valueOf?_eq_some_iff : valueOf? s = some value ↔
    isToken value = true ∧ ∃ before after, Blanks before ∧ Blanks after ∧ s = before ++ (value ++ after) := by
  unfold valueOf?
  constructor
  · intro h
    dsimp only at h
    split at h
    · rename_i htoken
      cases h
      obtain ⟨before, hbefore, hbeforeBlank⟩ := exists_lead s
      obtain ⟨after, hafter, hafterBlank⟩ := exists_gap (trimStart s)
      exact ⟨htoken, before, after, hbeforeBlank, hafterBlank, hbefore.trans (congrArg _ hafter)⟩
    · cases h
  · rintro ⟨htoken, before, after, hbefore, hafter, rfl⟩
    have hhead : ∀ c ∈ (value ++ after).head?, isBlank c = false :=
      forall_head_append (ne_nil_of_isToken htoken) (head_of_isToken htoken)
    have htrim : trim (before ++ (value ++ after)) = value := by
      rw [trim, trimStart_append _ hbefore, trimStart_of_head hhead, trimEnd_append _ hafter,
        trimEnd_of_last (not_blank_last (not_blank_of_isToken htoken))]
    rw [htrim]
    exact if_pos htoken

theorem valueOf?_truthWord (hbefore : Blanks before) (hafter : Blanks after) (truthValue : Bool) :
    valueOf? (before ++ (truthWord truthValue ++ after)) = some (truthWord truthValue) :=
  valueOf?_eq_some_iff.mpr ⟨isToken_truthWord truthValue, before, after, hbefore, hafter, rfl⟩

/-- A truth value leaves a value when its last letter is left. -/
theorem exists_cutWord?_truthWord (hafter : Blanks after) (truthValue : Bool) :
    ∃ longest, cutWord? valueOf? (truthWord truthValue ++ after) = some longest := by
  have hlast : valueOf? ('e' :: after) = some ['e'] :=
    valueOf?_eq_some_iff.mpr ⟨by decide, [], after, List.forall_mem_nil _, hafter, rfl⟩
  obtain ⟨front, hfront, hword⟩ : ∃ front, truthWord truthValue = front ++ ['e'] ∧ isWordText front = true := by
    cases truthValue with
    | true => exact ⟨['t', 'r', 'u'], rfl, by decide⟩
    | false => exact ⟨['f', 'a', 'l', 's'], rfl, by decide⟩
  rw [hfront, List.append_assoc]
  exact exists_cutWord? hword hlast

/-! ### What stands between -/

/-- What stands between begins with no word character. -/
theorem Compares.head (h : Compares between comparison) (rest : List Char) :
    ∀ c ∈ (between ++ rest).head?, isWord c = false := by
  have hblank : ∀ {c : Char} {before more : List Char}, Blanks (c :: before) →
      ∀ d ∈ (c :: before ++ more).head?, isWord d = false :=
    fun hbefore => forall_of_some (isWord_of_isBlank (hbefore _ List.mem_cons_self))
  cases h with
  | @sign before after comparison hbefore hafter =>
    rw [List.append_assoc]
    cases before with
    | nil => cases comparison <;> exact forall_of_some (by decide)
    | cons c before => exact hblank hbefore
  | @word before word after comparison spells hbefore hafter hbeforeNe hafterNe =>
    rw [List.append_assoc]
    obtain ⟨c, before, rfl⟩ := List.exists_cons_of_ne_nil hbeforeNe
    exact hblank hbefore

theorem Compares.not_mem (h : Compares between comparison) : '<' ∉ between := by
  have hblank : ∀ {gap : List Char}, Blanks gap → '<' ∉ gap := fun hgap hmem => absurd (hgap '<' hmem) (by decide)
  cases h with
  | sign comparison hbefore hafter => cases comparison <;> simp [Comparison.sign, hblank hbefore, hblank hafter]
  | word spells hbefore hafter =>
    have hword := not_mem_of_isWordText spells.isWordText (show isWord '<' = false by decide)
    simp [hblank hbefore, hblank hafter, hword]

/-- After a sign stands the value. -/
theorem compared?_sign (hbefore : Blanks before) (comparison : Comparison) (rest : List Char) :
    compared? (before ++ (comparison.sign.toList ++ rest)) =
      (valueOf? rest).map fun value => (comparison.sign.toList, value) := by
  have htrim : trimStart (before ++ (comparison.sign.toList ++ rest)) = comparison.sign.toList ++ rest := by
    rw [trimStart_append _ hbefore]
    cases comparison <;> exact trimStart_of_head (forall_of_some (by decide))
  rw [compared?, htrim]
  cases comparison <;> rfl

/-- Where no sign stands, the operator is a word. -/
theorem compared?_word (hbefore : Blanks before) (hword : isWordText word = true) (rest : List Char) :
    compared? (before ++ (word ++ rest)) = cutWord? valueOf? (word ++ rest) := by
  obtain ⟨c, word, rfl⟩ := List.exists_cons_of_ne_nil (ne_nil_of_isWordText hword)
  have hc : isWord c = true := forall_of_isWordText hword c List.mem_cons_self
  have htrim : trimStart (before ++ (c :: word ++ rest)) = c :: word ++ rest := by
    rw [trimStart_append _ hbefore]
    exact trimStart_of_head (forall_of_some (isBlank_of_isWord hc))
  have hsign : ∀ d : Char, isWord d = false → after? [d, '='] (c :: word ++ rest) = none := by
    intro d hd
    exact after?_eq_none fun hfront => ne_of_isWord hc hd (List.cons_prefix_cons.mp hfront).1.symm
  rw [compared?, htrim, hsign '=' (by decide), hsign '!' (by decide)]

/-- What is compared stands after a sign or a word. -/
theorem compared?_cases (h : compared? s = some (operator, value)) : ∃ before, Blanks before ∧
    ((∃ (comparison : Comparison) (rest : List Char), s = before ++ (comparison.sign.toList ++ rest) ∧
        operator = comparison.sign.toList ∧ valueOf? rest = some value) ∨
      ∃ rest, s = before ++ (operator ++ rest) ∧ cutWord? valueOf? (operator ++ rest) = some (operator, value)) := by
  obtain ⟨before, hs, hbefore⟩ := exists_lead s
  refine ⟨before, hbefore, ?_⟩
  have hsign : ∀ (comparison : Comparison) (rest : List Char),
      after? comparison.sign.toList (trimStart s) = some rest →
        ((valueOf? rest).map fun value => (comparison.sign.toList, value)) = some (operator, value) →
        s = before ++ (comparison.sign.toList ++ rest) ∧ operator = comparison.sign.toList ∧
          valueOf? rest = some value := by
    intro comparison rest hafter hvalue
    obtain ⟨found, hfound, heq⟩ := Option.map_eq_some_iff.mp hvalue
    cases heq
    exact ⟨hs.trans (congrArg _ (after?_eq_some_iff.mp hafter)), rfl, hfound⟩
  unfold compared? at h
  dsimp only at h
  split at h
  · rename_i rest hafter
    exact .inl ⟨.equal, _, hsign .equal _ hafter h⟩
  · rename_i hafter
    exact .inl ⟨.notEqual, _, hsign .notEqual _ hafter h⟩
  · obtain ⟨-, rest, hrest, -⟩ := of_cutWord? h
    exact .inr ⟨rest, by rw [hrest]; exact hs, by rw [hrest]; exact h⟩

/-- What stands between a name and a truth value is found. -/
theorem compared?_between (h : Compares between comparison) (hgap : Blanks gap) (truthValue : Bool) :
    ∃ operator, compared? (between ++ (truthWord truthValue ++ gap)) = some (operator, truthWord truthValue) ∧
      Comparison.ofOperator? operator = some comparison := by
  cases h with
  | @sign before after comparison hbefore hafter =>
    refine ⟨comparison.sign.toList, ?_, ofOperator?_sign comparison⟩
    rw [List.append_assoc, List.append_assoc, compared?_sign hbefore, valueOf?_truthWord hafter hgap]
    rfl
  | @word before word after comparison spells hbefore hafter hbeforeNe hafterNe =>
    have hword := spells.isWordText
    refine ⟨word, ?_, (ofOperator?_word_iff hword).mpr spells⟩
    rw [List.append_assoc, List.append_assoc, compared?_word hbefore hword]
    obtain ⟨c, after, rfl⟩ := List.exists_cons_of_ne_nil hafterNe
    exact cutWord?_run (ne_nil_of_isWordText hword) (forall_of_isWordText hword)
      (forall_of_some (isWord_of_isBlank (hafter c List.mem_cons_self))) (valueOf?_truthWord hafter hgap truthValue)

/-- A sign or a word that is found after the longest name stands between the name and the value: a word has blanks on
both sides, or more could have been cut off. -/
theorem compares_of_compared? (h : compared? s = some (operator, truthWord truthValue))
    (hoperator : Comparison.ofOperator? operator = some comparison) (hlongest : cutWord? compared? s = none) :
    ∃ between gap, s = between ++ (truthWord truthValue ++ gap) ∧ Blanks gap ∧ Compares between comparison := by
  obtain ⟨before, hbefore, ⟨sign, rest, rfl, rfl, hvalue⟩ | ⟨rest, rfl, hcut⟩⟩ := compared?_cases h
  · obtain ⟨-, after, gap, hafter, hgap, rfl⟩ := valueOf?_eq_some_iff.mp hvalue
    cases (ofOperator?_sign _).symm.trans hoperator
    exact ⟨before ++ (comparison.sign.toList ++ after), gap, by simp, hgap, .sign comparison hbefore hafter⟩
  · obtain ⟨hword, _, hsame, hvalue⟩ := of_cutWord? hcut
    obtain rfl := List.append_cancel_left hsame
    obtain ⟨-, after, gap, hafter, hgap, rfl⟩ := valueOf?_eq_some_iff.mp hvalue
    have hmore := exists_cutWord?_truthWord hgap truthValue
    have hafterNe : after ≠ [] := by
      rintro rfl
      obtain ⟨longest, hlonger⟩ := hmore
      cases hlonger.symm.trans (cutWord?_rest hcut)
    have hbeforeNe : before ≠ [] := by
      rintro rfl
      obtain ⟨longest, hlonger⟩ := hmore
      have hvalueWord : isWordText (truthWord truthValue) = true := by cases truthValue <;> decide
      have haccept : compared? (after ++ (truthWord truthValue ++ gap)) = some longest :=
        (compared?_word hafter hvalueWord gap).trans hlonger
      obtain ⟨other, hother⟩ := exists_cutWord? hword haccept
      cases hother.symm.trans hlongest
    exact ⟨before ++ (operator ++ after), gap, by simp, hgap,
      .word ((ofOperator?_word_iff hword).mp hoperator) hbefore hafter hbeforeNe hafterNe⟩

/-! ### Conditions -/

/-- What a guard asks is found. -/
theorem condition?_of_asks {guard : Guard} (h : Asks s guard) : ∃ operator,
    condition? s = some (guard.variableName.toList, operator, truthWord guard.value) ∧
      Comparison.ofOperator? operator = some guard.comparison := by
  obtain ⟨⟨rest, between, htrim, hname, hbetween, hcompares⟩, hnamed⟩ := h
  obtain ⟨gap, hstart, hgap⟩ := exists_gap (trimStart s)
  obtain ⟨operator, hcompared, hoperator⟩ := compared?_between hcompares hgap guard.value
  have hword : isWordText guard.variableName.toList = true := by
    rw [isWordText, ← hname, List.all_takeWhile, hname]
    simpa using hnamed
  have hrest : trimStart s = ['$'] ++ (guard.variableName.toList ++ (between ++ (truthWord guard.value ++ gap))) := by
    rw [hstart, ← trim, htrim, ← List.takeWhile_append_dropWhile (p := isWord) (l := rest), hname, hbetween]
    simp
  refine ⟨operator, ?_, hoperator⟩
  rw [condition?, hrest, after?_lead, Option.bind_some]
  exact cutWord?_run (ne_nil_of_isWordText hword) (forall_of_isWordText hword) (hcompares.head _) hcompared

/-- What is found with an operator and a truth value, a guard asks. -/
theorem asks_of_condition? (h : condition? s = some (name, operator, truthWord truthValue))
    (hoperator : Comparison.ofOperator? operator = some comparison) :
    Asks s ⟨String.ofList name, comparison, truthValue⟩ := by
  obtain ⟨found, hfound, hcut⟩ := Option.bind_eq_some_iff.mp h
  obtain ⟨hname, rest, rfl, hcompared⟩ := of_cutWord? hcut
  obtain ⟨between, gap, rfl, hgap, hcompares⟩ := compares_of_compared? hcompared hoperator (cutWord?_rest hcut)
  have htruth : truthWord truthValue ≠ [] := by cases truthValue <;> decide
  have htrim : trim s = '$' :: (name ++ (between ++ truthWord truthValue)) := by
    have hstart : trimStart s = ('$' :: (name ++ (between ++ truthWord truthValue))) ++ gap := by
      rw [after?_eq_some_iff.mp hfound]
      simp
    have hlast : ∀ c ∈ ('$' :: (name ++ between) ++ truthWord truthValue).getLast?, isBlank c = false :=
      forall_last_append htruth (not_blank_last (not_blank_of_isToken (isToken_truthWord truthValue)))
    rw [trim, hstart, trimEnd_append _ hgap]
    refine trimEnd_of_last ?_
    simpa using hlast
  refine ⟨⟨_, between, htrim, ?_, ?_, hcompares⟩, by simpa using ne_nil_of_isWordText hname⟩
  · rw [String.toList_ofList]
    exact takeWhile_run (forall_of_isWordText hname) (hcompares.head _)
  · exact dropWhile_run (forall_of_isWordText hname) (hcompares.head _)

theorem readCondition_eq_ok_iff {guard : Guard} : readCondition s = .ok guard ↔ Asks s guard := by
  constructor
  · intro h
    unfold readCondition at h
    split at h
    · cases h
    · rename_i name operator value hcondition
      split at h
      · cases h
      · rename_i comparison hoperator
        obtain ⟨truthValue, htruth, rfl⟩ := map_eq_ok_iff.mp h
        rw [eq_truthWord_of_truth htruth] at hcondition
        exact asks_of_condition? hcondition hoperator
  · intro h
    obtain ⟨operator, hcondition, hoperator⟩ := condition?_of_asks h
    rw [readCondition, hcondition]
    simp only [hoperator, truth_truthWord, String.ofList_toList]
    rfl

/-- A text that asks something has no bracket. -/
theorem Asks.not_mem {guard : Guard} (h : Asks s guard) : '<' ∉ s := by
  obtain ⟨⟨rest, between, htrim, hname, hbetween, hcompares⟩, -⟩ := h
  have hword : ∀ c ∈ rest.takeWhile isWord, isWord c = true := List.all_eq_true.mp List.all_takeWhile
  intro hmem
  have hrest : '<' ∈ '$' :: (rest.takeWhile isWord ++ rest.dropWhile isWord) := by
    rw [List.takeWhile_append_dropWhile, ← htrim]
    exact mem_trim (by decide) hmem
  rcases List.mem_append.mp ((List.mem_cons.mp hrest).resolve_left (by decide)) with hfront | hback
  · exact absurd (hword '<' hfront) (by decide)
  · rw [hbetween] at hback
    rcases List.mem_append.mp hback with hmiddle | hvalue
    · exact hcompares.not_mem hmiddle
    · revert hvalue
      cases guard.value <;> decide

/-- **Conditions are read by their grammar.** A text is read as a guard exactly if it asks what the guard does: the
variable is the longest run of word characters after `$`, and a word is an operator only between blanks. Any other text
is refused: its form is none of a condition, or its operator is no operator, or its value is no truth value. -/
theorem condition_read (s : List Char) :
    (∀ guard, readCondition s = .ok guard ↔ Asks s guard) ∧
    ((¬∃ guard, Asks s guard) → ∃ reason, readCondition s = .error reason ∧
      (reason = .malformedCondition ∨ (∃ token, reason = .unknownOperator token) ∨
        ∃ token, reason = .notTruthValue token)) := by
  refine ⟨fun guard => readCondition_eq_ok_iff, fun hnone => ?_⟩
  cases hreading : readCondition s with
  | ok guard => exact absurd ⟨guard, readCondition_eq_ok_iff.mp hreading⟩ hnone
  | error reason =>
    refine ⟨reason, rfl, ?_⟩
    unfold readCondition at hreading
    split at hreading
    · cases hreading
      exact .inl rfl
    · split at hreading
      · cases hreading
        exact .inr (.inl ⟨_, rfl⟩)
      · refine .inr (.inr ?_)
        have htruth := map_eq_error_iff.mp hreading
        unfold truth at htruth
        split at htruth
        · cases htruth
        · split at htruth
          · cases htruth
          · cases htruth
            exact ⟨_, rfl⟩

/-- A word between blanks is an operator, and one that touches the name and the value is none. -/
theorem condition_of_words :
    Asks " $met NEQ false".toList ⟨"met", .notEqual, false⟩ ∧
    (¬∃ guard, Asks "$metistrue".toList guard) ∧ ∃ reason, readCondition "$metistrue".toList = .error reason := by
  have hwords : readCondition " $met NEQ false".toList = .ok ⟨"met", .notEqual, false⟩ := by decide
  have hcrammed : readCondition "$metistrue".toList = .error (.unknownOperator "u".toList) := by decide
  have hnone : ¬∃ guard, Asks "$metistrue".toList guard := by
    rintro ⟨guard, hasks⟩
    cases hcrammed.symm.trans (((condition_read _).1 guard).mpr hasks)
  obtain ⟨reason, hreason, -⟩ := (condition_read "$metistrue".toList).2 hnone
  exact ⟨((condition_read _).1 _).mp hwords, hnone, reason, hreason⟩

end Script

end Parley

import Parley.Proofs.Script.Printer

/-! Statements are read back as they were printed. -/
namespace Parley.Script

open Text

/-! ### Leads and brackets -/

@[simp] theorem after?_lead (lead s : List Char) : after? lead (lead ++ s) = some s :=
  after?_eq_some_iff.mpr rfl

theorem after?_eq_none {lead s : List Char} (h : ¬lead <+: s) : after? lead s = none := by
  cases hafter : after? lead s with
  | none => rfl
  | some rest => exact absurd ⟨rest, (after?_eq_some_iff.mp hafter).symm⟩ h

@[simp] theorem dropClosing?_append (inner : List Char) : dropClosing? (inner ++ ['>', '>']) = some inner := by
  have hreverse : (inner ++ ['>', '>']).reverse = ['>', '>'] ++ inner.reverse := by simp
  rw [dropClosing?, hreverse, after?_lead, Option.map_some, List.reverse_reverse]

theorem statement?_bracketed {inner : List Char} (h : trim inner = inner) :
    statement? (bracketed inner) = some inner := by
  have hopen : after? ['<', '<'] (bracketed inner) = some (inner ++ ['>', '>']) := after?_lead _ _
  rw [statement?, hopen, Option.bind_some, dropClosing?_append, Option.map_some, h]

/-- What stands between brackets is read as a statement. -/
theorem readLine_bracketed (inner : List Char) : readLine (bracketed inner) = readStatement (bracketed inner) := by
  have hopen : after? ['<', '<'] (bracketed inner) = some (inner ++ ['>', '>']) := after?_lead _ _
  rw [readLine, hopen]
  rfl

theorem arrow?_bracketed (inner : List Char) : arrow? (bracketed inner) = none := rfl

/-! ### Words and tokens -/

theorem forall_of_isWordText {s : List Char} (h : isWordText s = true) : ∀ c ∈ s, isWord c = true := by
  rw [isWordText, Bool.and_eq_true] at h
  exact List.all_eq_true.mp h.2

theorem ne_nil_of_isWordText {s : List Char} (h : isWordText s = true) : s ≠ [] := by
  rintro rfl
  nomatch h

theorem not_blank_of_isWordText {s : List Char} (h : isWordText s = true) : ∀ c ∈ s, isBlank c = false :=
  fun c hc => isBlank_of_isWord (forall_of_isWordText h c hc)

theorem ne_nil_of_isTitle {s : List Char} (h : isTitle s = true) : s ≠ [] := by
  rintro rfl
  nomatch h

theorem not_blank_of_isTitle {s : List Char} (h : isTitle s = true) : ∀ c ∈ s, isBlank c = false := by
  rw [isTitle, Bool.and_eq_true] at h
  intro c hc
  have htitle := List.all_eq_true.mp h.2 c hc
  simp only [isTitleChar, Bool.or_eq_true, beq_iff_eq] at htitle
  rcases htitle with (hword | rfl) | rfl
  · exact isBlank_of_isWord hword
  · decide
  · decide

theorem not_blank_of_isToken {s : List Char} (h : isToken s = true) : ∀ c ∈ s, isBlank c = false := by
  rw [isToken, Bool.and_eq_true] at h
  intro c hc
  simpa using List.all_eq_true.mp h.2 c hc

theorem ne_nil_of_isToken {s : List Char} (h : isToken s = true) : s ≠ [] := by
  rintro rfl
  nomatch h

/-- A text without a blank is a token if it is not empty. -/
theorem isToken_of_no_blank {s : List Char} (hne : s ≠ []) (h : ∀ c ∈ s, isBlank c = false) : isToken s = true := by
  rw [isToken, List.isEmpty_eq_false_iff.mpr hne, Bool.not_false, Bool.true_and, List.all_eq_true]
  intro c hc
  rw [h c hc]
  rfl

/-- The first word of a text goes up to the first blank. -/
theorem firstWord_run {word rest : List Char} (hne : word ≠ []) (hword : ∀ c ∈ word, isBlank c = false)
    (hrest : ∀ c ∈ rest.head?, isBlank c = true) : firstWord (word ++ rest) = word := by
  have hhead : ∀ c ∈ (word ++ rest).head?, isBlank c = false :=
    forall_head_append hne fun c hc => hword c (List.mem_of_mem_head? hc)
  rw [firstWord, trimStart_of_head hhead]
  refine takeWhile_run (fun c hc => ?_) fun c hc => ?_
  · rw [hword c hc]
    rfl
  · rw [hrest c hc]
    rfl

/-- What follows a word and one space. -/
theorem afterWord?_space (word : List Char) {rest : List Char} (h : ∀ c ∈ rest.head?, isBlank c = false) :
    afterWord? word (word ++ ' ' :: rest) = some rest := by
  have hspace : isBlank ' ' = true := by decide
  have htrim : trimStart (' ' :: rest) = rest := (trimStart_space rest).trans (trimStart_of_head h)
  rw [afterWord?, after?_lead, Option.bind_some, htrim]
  simp [hspace]

theorem not_blank_last {s : List Char} (h : ∀ c ∈ s, isBlank c = false) :
    ∀ c ∈ s.getLast?, isBlank c = false :=
  fun c hc => h c (List.mem_of_getLast? hc)

/-! ### Jumps -/

variable {target : String}

theorem trim_jump (h : isTitle target.toList = true) :
    trim (['j', 'u', 'm', 'p', ' '] ++ target.toList) = ['j', 'u', 'm', 'p', ' '] ++ target.toList :=
  trim_append (by decide) (ne_nil_of_isTitle h) (forall_of_some (by decide))
    (not_blank_last (not_blank_of_isTitle h))

theorem jumpTarget?_jump (h : isTitle target.toList = true) :
    jumpTarget? (['j', 'u', 'm', 'p', ' '] ++ target.toList) = some target.toList := by
  have hhead : ∀ c ∈ target.toList.head?, isBlank c = false :=
    fun c hc => not_blank_of_isTitle h c (List.mem_of_mem_head? hc)
  have hafter := afterWord?_space "jump".toList hhead
  rw [jumpTarget?]
  show (afterWord? "jump".toList ("jump".toList ++ ' ' :: target.toList)).bind _ = _
  rw [hafter, Option.bind_some, if_pos h]

theorem jumpOf?_jumpRow (h : isTitle target.toList = true) : jumpOf? (jumpRow target) = some target.toList := by
  rw [jumpOf?, jumpRow, statement?_bracketed (trim_jump h), Option.bind_some, jumpTarget?_jump h]

theorem readLine_jumpRow (h : isTitle target.toList = true) :
    readLine (jumpRow target) = .ok (.jump target none) := by
  have hword : firstWord (['j', 'u', 'm', 'p', ' '] ++ target.toList) = ['j', 'u', 'm', 'p'] := by
    show firstWord (['j', 'u', 'm', 'p'] ++ ' ' :: target.toList) = _
    exact firstWord_run (by decide) (not_blank_of_isWordText (by decide)) (forall_of_some (by decide))
  rw [jumpRow, readLine_bracketed, readStatement, statement?_bracketed (trim_jump h)]
  simp only [hword, jumpTarget?_jump h, String.ofList_toList]
  rfl

/-! ### Assignments -/

@[simp] theorem truth_truthWord (value : Bool) : truth (truthWord value) = .ok value := by
  cases value with
  | false => rfl
  | true => rfl

/-- What follows the name of a variable in an assignment. -/
def toValue (value : Bool) : List Char := [' ', 't', 'o', ' '] ++ truthWord value

theorem toValue_ne (value : Bool) : toValue value ≠ [] := List.cons_ne_nil _ _

theorem last_toValue (value : Bool) : ∀ c ∈ (toValue value).getLast?, isBlank c = false := by
  cases value with
  | false => exact forall_of_some (by decide)
  | true => exact forall_of_some (by decide)

theorem assigned?_toValue (value : Bool) : assigned? (toValue value) = some (truthWord value) := by
  cases value with
  | false => decide
  | true => decide

variable {variableName : String}

theorem assignment?_set (h : isWordText variableName.toList = true) (value : Bool) :
    assignment? (['s', 'e', 't', ' ', '$'] ++ (variableName.toList ++ toValue value)) =
      some (variableName.toList, truthWord value) := by
  have hspace : ∀ c ∈ (toValue value).head?, isWord c = false := forall_of_some (by decide)
  have hcut : cutWord? assigned? (variableName.toList ++ toValue value) =
      some (variableName.toList, truthWord value) :=
    cutWord?_run (ne_nil_of_isWordText h) (forall_of_isWordText h) hspace (assigned?_toValue value)
  have hdollar : ∀ c ∈ ('$' :: (variableName.toList ++ toValue value)).head?, isBlank c = false :=
    forall_of_some (by decide)
  have hafter := afterWord?_space "set".toList hdollar
  have hset : ['s', 'e', 't', ' ', '$'] ++ (variableName.toList ++ toValue value) =
      "set".toList ++ ' ' :: '$' :: (variableName.toList ++ toValue value) := rfl
  rw [assignment?, hset, hafter, Option.bind_some]
  show (after? ['$'] (['$'] ++ (variableName.toList ++ toValue value))).bind _ = _
  rw [after?_lead, Option.bind_some, hcut]

theorem readLine_assignRow (h : isWordText variableName.toList = true) (value : Bool) :
    readLine (assignRow variableName value) = .ok (.assign variableName value) := by
  have htrim : trim (['s', 'e', 't', ' ', '$'] ++ (variableName.toList ++ toValue value)) =
      ['s', 'e', 't', ' ', '$'] ++ (variableName.toList ++ toValue value) :=
    trim_append (by decide) (List.append_ne_nil_of_right_ne_nil _ (toValue_ne value))
      (forall_of_some (by decide)) (forall_last_append (toValue_ne value) (last_toValue value))
  have hword : firstWord (['s', 'e', 't', ' ', '$'] ++ (variableName.toList ++ toValue value)) = "set".toList := by
    show firstWord ("set".toList ++ ' ' :: '$' :: (variableName.toList ++ toValue value)) = _
    exact firstWord_run (by decide) (not_blank_of_isWordText (by decide)) (forall_of_some (by decide))
  show readLine (bracketed (['s', 'e', 't', ' ', '$'] ++ (variableName.toList ++ toValue value))) = _
  rw [readLine_bracketed, readStatement, statement?_bracketed htrim]
  simp only [hword, if_true, assignment?_set h, truth_truthWord, String.ofList_toList]
  rfl

/-! ### Commands -/

theorem last_quote (word : List Char) : ∀ c ∈ (Shell.quote word).getLast?, isBlank c = false :=
  forall_last_append (List.cons_ne_nil _ _) (forall_of_some (by decide))

/-- A command line ends in its name or in a quote. -/
theorem last_line {name : List Char} (hname : ∀ c ∈ name.getLast?, isBlank c = false)
    (arguments : List (List Char)) : ∀ c ∈ (Shell.line name arguments).getLast?, isBlank c = false := by
  induction arguments generalizing name with
  | nil =>
    rw [Shell.line, List.flatMap_nil, List.append_nil]
    exact hname
  | cons argument rest ih =>
    have hquote : ∀ c ∈ (name ++ ' ' :: Shell.quote argument).getLast?, isBlank c = false := by
      refine forall_last_append (List.cons_ne_nil _ _) ?_
      show ∀ c ∈ ([' '] ++ Shell.quote argument).getLast?, isBlank c = false
      exact forall_last_append (List.cons_ne_nil _ _) (last_quote argument)
    have hrest := ih hquote
    rw [Shell.line, List.append_assoc] at hrest
    exact hrest

theorem readLine_commandRow {name : String} {arguments : List String} (h : isWordText name.toList = true)
    (hname : name ∉ ["set", "jump", "if"]) :
    readLine (commandRow name arguments) = .ok (.command name arguments) := by
  have hbare : ∀ c ∈ name.toList, Shell.isBare c = true :=
    fun c hc => Shell.isBare_of_isWord (forall_of_isWordText h c hc)
  have hwords := Shell.words_line (ne_nil_of_isWordText h) hbare (arguments.map String.toList)
  have hhead : ∀ c ∈ (Shell.line name.toList (arguments.map String.toList)).head?, isBlank c = false :=
    forall_head_append (ne_nil_of_isWordText h)
      fun c hc => not_blank_of_isWordText h c (List.mem_of_mem_head? hc)
  have htrim := trim_of_ends hhead
    (last_line (not_blank_last (not_blank_of_isWordText h)) (arguments.map String.toList))
  have hword : firstWord (Shell.line name.toList (arguments.map String.toList)) = name.toList := by
    refine firstWord_run (ne_nil_of_isWordText h) (not_blank_of_isWordText h) ?_
    cases arguments with
    | nil => exact fun c hc => nomatch hc
    | cons argument rest => exact forall_of_some (by decide)
  have hne : ∀ keyword ∈ ["set", "jump", "if"], name.toList ≠ keyword.toList := by
    intro keyword hkeyword heq
    rw [String.toList_inj.mp heq] at hname
    exact hname hkeyword
  rw [commandRow, readLine_bracketed, readStatement, statement?_bracketed htrim]
  simp only [hword, hne "set" (by decide), hne "jump" (by decide), hne "if" (by decide), if_false, readCommand,
    hwords, h, if_true, String.ofList_toList, List.map_map]
  simp

end Parley.Script

import Mathlib.Data.List.Infix
import Parley.Proofs.Script.Misplaced

/-! Assignments.

By its grammar an assignment is `set`, blanks, `$` and the name of a variable, then `=`, with blanks around it or none,
or `to` between blanks, and a truth value (`Assigns Spaced`). What is read is this and a little more: a `to` is found
also where it touches the name or the value (`Assigns Crammed`), and from a name that it touches it takes the end. So a
statement is read by the grammar exactly if it has no such `to` (`assignment_read`). -/
namespace Parley.Script

open Text

/-- Blanks and nothing else. -/
def Blanks (s : List Char) : Prop := ∀ c ∈ s, isBlank c = true

/-- What the grammar lets stand between the name and the value of an assignment: `=`, with blanks around it or none, or
`to` between blanks. -/
inductive Spaced : List Char → Prop where
  | equals {before after : List Char} (before_blank : Blanks before) (after_blank : Blanks after) :
      Spaced (before ++ '=' :: after)
  | word {before after : List Char} (before_blank : Blanks before) (after_blank : Blanks after)
      (before_ne : before ≠ []) (after_ne : after ≠ []) : Spaced (before ++ 't' :: 'o' :: after)

/-- A `to` that touches the name or the value. -/
inductive Crammed : List Char → Prop where
  | word {before after : List Char} (before_blank : Blanks before) (after_blank : Blanks after)
      (touches : before = [] ∨ after = []) : Crammed (before ++ 't' :: 'o' :: after)

/-- `set`, blanks, `$` and a name, then what may stand between, and a truth value. -/
def Assigns (Between : List Char → Prop) (s name : List Char) (value : Bool) : Prop :=
  ∃ gap between, s = "set".toList ++ (gap ++ '$' :: (name ++ (between ++ truthWord value))) ∧
    (gap ≠ [] ∧ Blanks gap) ∧ isWordText name = true ∧ Between between

/-- What follows the first `$`. -/
def afterDollar (s : List Char) : List Char := (s.dropWhile (· != '$')).drop 1

/-- The name that a statement writes: the longest run of word characters after `$`. -/
def writtenName (s : List Char) : List Char := (afterDollar s).takeWhile isWord

/-- A row of a body that is a statement with the first word `set`. -/
structure IsAssignment (row inner : List Char) : Prop where
  statement : statement? row = some inner
  keyword : firstWord inner = "set".toList

/-- A row is read as an assignment by the grammar only, and then the whole name is the variable. Any other row is
refused. -/
structure ReadByGrammar (row inner : List Char) : Prop where
  assigns : ∀ variableName value, readLine row = .ok (.assign variableName value) →
    Assigns Spaced inner variableName.toList value ∧ variableName.toList = writtenName inner
  refuses : (¬∃ name value, Assigns Spaced inner name value) → ∃ reason, readLine row = .error reason

variable {s rest gap name between token row inner : List Char} {value : Bool}

/-! ### What stands between -/

theorem head_of_isToken (h : isToken token = true) : ∀ c ∈ token.head?, isBlank c = false :=
  fun c hc => not_blank_of_isToken h c (List.mem_of_mem_head? hc)

theorem isToken_truthWord (value : Bool) : isToken (truthWord value) = true := by
  cases value with
  | false => decide
  | true => decide

/-- Blanks before what is assigned do not matter. -/
theorem assigned?_blanks (hgap : Blanks gap) (s : List Char) : assigned? (gap ++ s) = assigned? s := by
  rw [assigned?, trimStart_append s hgap, assigned?]

/-- With or without blanks around it, `to` or `=` stands between. -/
theorem spaced_or_crammed_iff : Spaced between ∨ Crammed between ↔ ∃ before sign after,
    Blanks before ∧ Blanks after ∧ (sign = ['t', 'o'] ∨ sign = ['=']) ∧ between = before ++ (sign ++ after) := by
  constructor
  · rintro (hspaced | hcrammed)
    · cases hspaced with
      | equals hbefore hafter => exact ⟨_, _, _, hbefore, hafter, .inr rfl, rfl⟩
      | word hbefore hafter => exact ⟨_, _, _, hbefore, hafter, .inl rfl, rfl⟩
    · cases hcrammed with
      | word hbefore hafter => exact ⟨_, _, _, hbefore, hafter, .inl rfl, rfl⟩
  · rintro ⟨before, sign, after, hbefore, hafter, rfl | rfl, rfl⟩
    · by_cases htouches : before = [] ∨ after = []
      · exact .inr (.word hbefore hafter htouches)
      · obtain ⟨hbeforeNe, hafterNe⟩ := not_or.mp htouches
        exact .inl (.word hbefore hafter hbeforeNe hafterNe)
    · exact .inl (.equals hbefore hafter)

/-- A token is assigned after whatever may stand between, crammed or not. -/
theorem assigned?_eq_some_iff : assigned? s = some token ↔
    isToken token = true ∧ ∃ between, (Spaced between ∨ Crammed between) ∧ s = between ++ token := by
  simp only [spaced_or_crammed_iff]
  constructor
  · intro h
    obtain ⟨found, hfound, h⟩ := Option.bind_eq_some_iff.mp h
    obtain ⟨sign, hsign, hlead⟩ : ∃ sign, (sign = ['t', 'o'] ∨ sign = ['=']) ∧ trimStart s = sign ++ found := by
      rcases Option.or_eq_some_iff.mp hfound with hto | ⟨-, hequals⟩
      · exact ⟨_, .inl rfl, after?_eq_some_iff.mp hto⟩
      · exact ⟨_, .inr rfl, after?_eq_some_iff.mp hequals⟩
    dsimp only at h
    split at h
    · rename_i htoken
      cases h
      obtain ⟨before, hbefore, hbeforeBlank⟩ := exists_lead s
      obtain ⟨after, hafter, hafterBlank⟩ := exists_lead found
      refine ⟨htoken, before ++ (sign ++ after), ⟨before, sign, after, hbeforeBlank, hafterBlank, hsign, rfl⟩, ?_⟩
      rw [List.append_assoc, List.append_assoc, ← hafter, ← hlead, ← hbefore]
    · cases h
  · rintro ⟨htoken, between, ⟨before, sign, after, hbefore, hafter, hsign, rfl⟩, rfl⟩
    have hvalue : trimStart (after ++ token) = token :=
      (trimStart_append token hafter).trans (trimStart_of_head (head_of_isToken htoken))
    have hassigned : assigned? (sign ++ (after ++ token)) =
        if isToken (trimStart (after ++ token)) then some (trimStart (after ++ token)) else none := by
      rcases hsign with rfl | rfl <;> rfl
    rw [List.append_assoc, List.append_assoc, assigned?_blanks hbefore, hassigned, hvalue, if_pos htoken]

/-- Nothing is assigned from within `to` on, or after it. -/
theorem assigned?_suffix_eq_none (hgap : Blanks gap) (h : s <:+ 'o' :: (gap ++ truthWord value)) :
    assigned? s = none := by
  have hwithin : ∀ tail, tail <:+ truthWord value → assigned? tail = none := by
    intro tail htail
    have hall : ∀ tail ∈ (truthWord value).tails, assigned? tail = none := by
      cases value with
      | false => decide
      | true => decide
    exact hall tail ((List.mem_tails _ _).mpr htail)
  rcases List.suffix_cons_iff.mp h with rfl | ⟨front, hfront⟩
  · rfl
  · rcases List.append_eq_append_iff.mp hfront with ⟨part, hpart, rfl⟩ | ⟨part, -, hpart⟩
    · rw [assigned?_blanks fun c hc => hgap c (hpart ▸ List.mem_append_right front hc)]
      exact hwithin _ List.suffix_rfl
    · exact hwithin s ⟨part, hpart.symm⟩

/-- What stands between cannot be cut, so the whole name before it is. -/
theorem cutWord?_between (h : Spaced between ∨ Crammed between) (value : Bool) :
    cutWord? assigned? (between ++ truthWord value) = none := by
  obtain ⟨before, sign, after, hbefore, hafter, hsign, rfl⟩ := spaced_or_crammed_iff.mp h
  cases before with
  | cons c before => exact cutWord?_of_head (forall_of_some (isWord_of_isBlank (hbefore c List.mem_cons_self)))
  | nil =>
    rcases hsign with rfl | rfl
    · refine Option.eq_none_iff_forall_not_mem.mpr fun found hfound => ?_
      obtain ⟨hword, rest, hrest, haccept⟩ := of_cutWord? (Option.mem_def.mp hfound)
      obtain ⟨c, word, hcons⟩ := List.exists_cons_of_ne_nil (ne_nil_of_isWordText hword)
      rw [hcons] at hrest
      rw [assigned?_suffix_eq_none hafter ⟨word, (List.cons.inj hrest).2⟩] at haccept
      cases haccept
    · exact cutWord?_of_head (forall_of_some (by decide))

/-- What touches stands in no other way. -/
theorem not_spaced_of_crammed (h : Crammed between) : ¬Spaced between := by
  cases h with
  | @word before after hbefore hafter htouches =>
    generalize hsame : before ++ 't' :: 'o' :: after = between
    intro hspaced
    cases hspaced with
    | @equals front back hfront hback =>
      have hequals : '=' ∈ before ++ 't' :: 'o' :: after := hsame ▸ List.mem_append_right front List.mem_cons_self
      have hblank : isBlank '=' ≠ true := by decide
      simp only [List.mem_append, List.mem_cons] at hequals
      rcases hequals with hmem | heq | heq | hmem
      · exact hblank (hbefore _ hmem)
      · exact absurd heq (by decide)
      · exact absurd heq (by decide)
      · exact hblank (hafter _ hmem)
    | @word front back hfront hback hfrontNe hbackNe =>
      have htrim := congrArg trimStart hsame
      rw [trimStart_append _ hbefore, trimStart_append _ hfront] at htrim
      have hback : after = back := (List.cons.inj (List.cons.inj htrim).2).2
      subst hback
      rcases htouches with rfl | rfl
      · exact hfrontNe (List.append_cancel_right hsame).symm
      · exact hbackNe rfl

/-! ### Assignments -/

/-- After a word there are blanks, and they are passed over. -/
theorem afterWord?_eq_some_iff {word : List Char} : afterWord? word s = some rest ↔
    ∃ gap, s = word ++ (gap ++ rest) ∧ (gap ≠ [] ∧ Blanks gap) ∧ ∀ c ∈ rest.head?, isBlank c = false := by
  constructor
  · intro h
    obtain ⟨found, hfound, h⟩ := Option.bind_eq_some_iff.mp h
    split at h
    · rename_i hblank
      cases h
      obtain ⟨gap, hgap, hgapBlank⟩ := exists_lead found
      refine ⟨gap, (after?_eq_some_iff.mp hfound).trans (congrArg _ hgap), ⟨?_, hgapBlank⟩, head_trimStart found⟩
      rintro rfl
      rw [hgap, List.nil_append] at hblank
      cases hhead : (trimStart found).head? with
      | none =>
        rw [hhead] at hblank
        cases hblank
      | some c =>
        rw [hhead, Option.any_some, head_trimStart found c hhead] at hblank
        cases hblank
    · cases h
  · rintro ⟨gap, rfl, ⟨hne, hgap⟩, hrest⟩
    obtain ⟨c, tail, rfl⟩ := List.exists_cons_of_ne_nil hne
    rw [afterWord?, after?_lead, Option.bind_some, trimStart_append rest hgap, trimStart_of_head hrest]
    exact if_pos (hgap c List.mem_cons_self)

theorem eq_truthWord_of_truth (h : truth token = .ok value) : token = truthWord value := by
  unfold truth at h
  split at h
  · rename_i htrue
    cases h
    exact htrue
  · split at h
    · rename_i hfalse
      cases h
      exact hfalse
    · cases h

/-- A variable and a truth value are found exactly in an assignment, crammed or not. -/
theorem assignment?_eq_some_iff : assignment? s = some (name, truthWord value) ↔
    Assigns Spaced s name value ∨ Assigns Crammed s name value := by
  have hassigns : Assigns Spaced s name value ∨ Assigns Crammed s name value ↔
      Assigns (fun between => Spaced between ∨ Crammed between) s name value := by
    constructor
    · rintro (⟨gap, between, hs, hgap, hname, hbetween⟩ | ⟨gap, between, hs, hgap, hname, hbetween⟩)
      · exact ⟨gap, between, hs, hgap, hname, .inl hbetween⟩
      · exact ⟨gap, between, hs, hgap, hname, .inr hbetween⟩
    · rintro ⟨gap, between, hs, hgap, hname, hbetween | hbetween⟩
      · exact .inl ⟨gap, between, hs, hgap, hname, hbetween⟩
      · exact .inr ⟨gap, between, hs, hgap, hname, hbetween⟩
  rw [hassigns]
  constructor
  · intro h
    obtain ⟨rest, hrest, h⟩ := Option.bind_eq_some_iff.mp h
    obtain ⟨found, hfound, hcut⟩ := Option.bind_eq_some_iff.mp h
    obtain ⟨gap, rfl, hgap, -⟩ := afterWord?_eq_some_iff.mp hrest
    obtain ⟨hname, left, rfl, haccept⟩ := of_cutWord? hcut
    obtain ⟨-, between, hbetween, rfl⟩ := assigned?_eq_some_iff.mp haccept
    exact ⟨gap, between, by rw [after?_eq_some_iff.mp hfound]; rfl, hgap, hname, hbetween⟩
  · rintro ⟨gap, between, rfl, hgap, hname, hbetween⟩
    have hafter : afterWord? "set".toList ("set".toList ++ (gap ++ '$' :: (name ++ (between ++ truthWord value)))) =
        some ('$' :: (name ++ (between ++ truthWord value))) :=
      afterWord?_eq_some_iff.mpr ⟨gap, rfl, hgap, forall_of_some (by decide)⟩
    have hcut : cutWord? assigned? (name ++ (between ++ truthWord value)) = some (name, truthWord value) :=
      cutWord?_longest (ne_nil_of_isWordText hname) (forall_of_isWordText hname) (cutWord?_between hbetween value)
        (assigned?_eq_some_iff.mpr ⟨isToken_truthWord value, between, hbetween, rfl⟩)
    rw [assignment?, hafter, Option.bind_some]
    show (after? ['$'] (['$'] ++ (name ++ (between ++ truthWord value)))).bind _ = _
    rw [after?_lead, Option.bind_some, hcut]

theorem afterDollar_of_assigns {Between : List Char → Prop} (h : Assigns Between s name value) :
    ∃ between, afterDollar s = name ++ (between ++ truthWord value) ∧ isWordText name = true ∧ Between between := by
  obtain ⟨gap, between, rfl, ⟨-, hgap⟩, hname, hbetween⟩ := h
  refine ⟨between, ?_, hname, hbetween⟩
  have hlead : ∀ c ∈ "set".toList ++ gap, (c != '$') = true := by
    intro c hc
    rw [bne_iff_ne]
    rintro rfl
    rcases List.mem_append.mp hc with hset | hblank
    · exact absurd hset (by decide)
    · exact absurd (hgap _ hblank) (by decide)
  rw [afterDollar, ← List.append_assoc, dropWhile_run hlead (forall_of_some (by decide))]
  rfl

/-- The name of an assignment by the grammar is written as it is. -/
theorem writtenName_of_spaced (h : Assigns Spaced s name value) : writtenName s = name := by
  obtain ⟨between, hafter, hname, hbetween⟩ := afterDollar_of_assigns h
  rw [writtenName, hafter]
  refine takeWhile_run (forall_of_isWordText hname) ?_
  cases hbetween with
  | @equals before after hbefore hafter =>
    cases before with
    | nil => exact forall_of_some (by decide)
    | cons c before => exact forall_of_some (isWord_of_isBlank (hbefore c List.mem_cons_self))
  | @word before after hbefore hafter hbeforeNe hafterNe =>
    obtain ⟨c, before, rfl⟩ := List.exists_cons_of_ne_nil hbeforeNe
    exact forall_of_some (isWord_of_isBlank (hbefore c List.mem_cons_self))

/-- A crammed assignment is none by the grammar. -/
theorem not_assigns_of_crammed (h : Assigns Crammed s name value) : ¬Assigns Spaced s name value := by
  intro hspaced
  obtain ⟨between, hafter, -, hcrammed⟩ := afterDollar_of_assigns h
  obtain ⟨other, hother, -, hspaced⟩ := afterDollar_of_assigns hspaced
  rw [hafter] at hother
  have hsame := List.append_cancel_right (List.append_cancel_left hother)
  subst hsame
  exact not_spaced_of_crammed hcrammed hspaced

/-! ### Rows -/

theorem IsAssignment.opening (h : IsAssignment row inner) : (after? ['<', '<'] row).isSome = true := by
  obtain ⟨middle, hmiddle, -⟩ := Option.map_eq_some_iff.mp h.statement
  obtain ⟨closed, hclosed, -⟩ := Option.bind_eq_some_iff.mp hmiddle
  rw [hclosed]
  rfl

theorem IsAssignment.no_option (h : IsAssignment row inner) : arrow? row = none := by
  obtain ⟨closed, hclosed⟩ := Option.isSome_iff_exists.mp h.opening
  rw [after?_eq_some_iff.mp hclosed]
  rfl

/-- An assignment is read as nothing but an assignment, and as one exactly if it is by the grammar or crammed. -/
theorem IsAssignment.readLine_eq_ok_iff (h : IsAssignment row inner) (found : Line (Option Int)) :
    readLine row = .ok found ↔ ∃ variableName value, found = .assign variableName value ∧
      (Assigns Spaced inner variableName.toList value ∨ Assigns Crammed inner variableName.toList value) := by
  unfold readLine readStatement
  simp only [h.opening, if_true, h.statement, h.keyword]
  constructor
  · intro hread
    split at hread
    · cases hread
    · rename_i name token hassignment
      obtain ⟨value, htruth, rfl⟩ := map_eq_ok_iff.mp hread
      rw [eq_truthWord_of_truth htruth] at hassignment
      refine ⟨String.ofList name, value, rfl, ?_⟩
      rw [String.toList_ofList]
      exact assignment?_eq_some_iff.mp hassignment
  · rintro ⟨variableName, value, rfl, hassigns⟩
    rw [assignment?_eq_some_iff.mpr hassigns]
    show (truth (truthWord value)).map _ = _
    rw [truth_truthWord, String.ofList_toList]
    rfl

/-- An assignment is read by the grammar exactly if it is not crammed. -/
theorem IsAssignment.readByGrammar_iff (h : IsAssignment row inner) :
    ReadByGrammar row inner ↔ ¬∃ name value, Assigns Crammed inner name value := by
  constructor
  · rintro hlaw ⟨name, value, hcrammed⟩
    have hread : readLine row = .ok (.assign (String.ofList name) value) := by
      refine (h.readLine_eq_ok_iff _).mpr ⟨_, value, rfl, .inr ?_⟩
      rwa [String.toList_ofList]
    have hspaced := (hlaw.assigns _ _ hread).1
    rw [String.toList_ofList] at hspaced
    exact not_assigns_of_crammed hcrammed hspaced
  · intro hnone
    constructor
    · intro variableName value hread
      obtain ⟨_, _, heq, hassigns⟩ := (h.readLine_eq_ok_iff _).mp hread
      cases heq
      have hspaced := hassigns.resolve_right fun hcrammed => hnone ⟨_, _, hcrammed⟩
      exact ⟨hspaced, (writtenName_of_spaced hspaced).symm⟩
    · intro hgrammar
      cases hread : readLine row with
      | error reason => exact ⟨reason, rfl⟩
      | ok found =>
        obtain ⟨variableName, value, -, hspaced | hcrammed⟩ := (h.readLine_eq_ok_iff _).mp hread
        · exact absurd ⟨_, _, hspaced⟩ hgrammar
        · exact absurd ⟨_, _, hcrammed⟩ hnone

/-- Nothing else is read as an assignment. -/
theorem isAssignment_of_readLine {variableName : String}
    (h : readLine row = .ok (.assign variableName value)) : ∃ inner, IsAssignment row inner := by
  rcases readLine_cases h with hread | ⟨-, hspeech⟩
  · obtain ⟨inner, hstatement, ⟨hword, -⟩ | ⟨_, _, heq⟩ | ⟨_, _, heq⟩⟩ := readStatement_cases hread
    · exact ⟨inner, hstatement, hword⟩
    · cases heq
    · cases heq
  · obtain ⟨-, heq⟩ := readSpeech_eq_ok_iff.mp hspeech
    cases heq

/-! ### Scripts -/

/-- **Assignments are read by their grammar, but for a `to` that touches.** A statement with the first word `set` is
read as nothing but the assignment that it is, by the grammar or crammed, and is refused if it is none; the whole name
is the variable, and the grammar is kept, exactly if it is not crammed. A script with one that is refused is refused,
and the assignments of any other are those of its bodies. -/
theorem assignment_read (text : String) :
    (∀ row inner, IsAssignment row inner →
      (∀ found, readLine row = .ok found ↔ ∃ variableName value, found = .assign variableName value ∧
        (Assigns Spaced inner variableName.toList value ∨ Assigns Crammed inner variableName.toList value)) ∧
      (ReadByGrammar row inner ↔ ¬∃ name value, Assigns Crammed inner name value)) ∧
    (∀ line ∈ bodyLinesOf text, ∀ inner, IsAssignment line.text inner →
      (¬∃ name value, Assigns Spaced inner name value ∨ Assigns Crammed inner name value) →
      ∃ fault, read text = .error fault) ∧
    ∀ nodes, read text = .ok nodes → ∀ variableName value,
      (∃ node ∈ nodes, Line.assign variableName value ∈ node.lines) ↔
        ∃ line ∈ bodyLinesOf text, ∃ inner, IsAssignment line.text inner ∧
          (Assigns Spaced inner variableName.toList value ∨ Assigns Crammed inner variableName.toList value) := by
  refine ⟨?_, ?_, ?_⟩
  · intro row inner h
    exact ⟨h.readLine_eq_ok_iff, h.readByGrammar_iff⟩
  · intro line hline inner h hnone
    cases hread : read text with
    | error fault => exact ⟨fault, rfl⟩
    | ok nodes =>
      obtain ⟨found, hfound⟩ := readLine_of_read hread hline h.no_option
      obtain ⟨variableName, value, -, hassigns⟩ := (h.readLine_eq_ok_iff _).mp hfound
      exact absurd ⟨_, _, hassigns⟩ hnone
  · intro nodes hread variableName value
    constructor
    · rintro ⟨node, hnode, hmem⟩
      obtain ⟨line, hline, hfound⟩ := exists_line_of_read hread hnode hmem nofun
      obtain ⟨inner, h⟩ := isAssignment_of_readLine hfound
      obtain ⟨_, _, heq, hassigns⟩ := (h.readLine_eq_ok_iff _).mp hfound
      cases heq
      exact ⟨line, hline, inner, h, hassigns⟩
    · rintro ⟨line, hline, inner, h, hassigns⟩
      have hfound := (h.readLine_eq_ok_iff _).mpr ⟨_, _, rfl, hassigns⟩
      exact exists_node_of_readLine hread hline h.no_option hfound nofun nofun

/-- An assignment by the grammar, and one without `to`, which is refused. -/
theorem assignment_of_words :
    ReadByGrammar "<<set $x to true>>".toList "set $x to true".toList ∧
    (∃ nodes, read "title: A\n---\n<<set $x to true>>\n===\n" = .ok nodes ∧
      ∃ node ∈ nodes, Line.assign "x" true ∈ node.lines) ∧
    ∃ fault, read "title: A\n---\n<<set $x true>>\n===\n" = .error fault := by
  have hrow : BodyRow "<<set $x to true>>".toList :=
    ⟨by decide, by decide, by decide, by decide, by decide, by decide⟩
  have hother : BodyRow "<<set $x true>>".toList :=
    ⟨by decide, by decide, by decide, by decide, by decide, by decide⟩
  have htext : "title: A\n---\n<<set $x to true>>\n===\n" = solitary "<<set $x to true>>".toList := by decide
  have hotherText : "title: A\n---\n<<set $x true>>\n===\n" = solitary "<<set $x true>>".toList := by decide
  have h : IsAssignment "<<set $x to true>>".toList "set $x to true".toList := ⟨by decide, by decide⟩
  have hread : readLine "<<set $x to true>>".toList = .ok (.assign "x" true) := by decide
  have hspaced : Assigns Spaced "set $x to true".toList "x".toList true :=
    ⟨[' '], [' ', 't', 'o', ' '], by decide, ⟨by decide, blank_space⟩, by decide,
      .word blank_space blank_space (by decide) (by decide)⟩
  have htextRead : ∃ nodes, read (solitary "<<set $x to true>>".toList) = .ok nodes :=
    (read_solitary_iff hrow (by decide)).mpr ⟨_, hread⟩
  have hmem : rowLine 3 "<<set $x to true>>".toList ∈ bodyLinesOf (solitary "<<set $x to true>>".toList) := by
    rw [bodyLinesOf_solitary hrow]
    exact List.mem_cons_self
  have hotherMem : rowLine 3 "<<set $x true>>".toList ∈ bodyLinesOf (solitary "<<set $x true>>".toList) := by
    rw [bodyLinesOf_solitary hother]
    exact List.mem_cons_self
  rw [htext, hotherText]
  refine ⟨?_, ?_, ?_⟩
  · refine ((assignment_read "").1 _ _ h).2.mpr ?_
    rintro ⟨name, value, hcrammed⟩
    have hagain : readLine "<<set $x to true>>".toList = .ok (.assign (String.ofList name) value) := by
      refine (((assignment_read "").1 _ _ h).1 _).mpr ⟨_, _, rfl, .inr ?_⟩
      rw [String.toList_ofList (l := name)]
      exact hcrammed
    obtain ⟨hname, rfl⟩ := Line.assign.inj (Except.ok.inj (hread.symm.trans hagain))
    rw [hname, String.toList_ofList (l := name)] at hspaced
    exact not_assigns_of_crammed hcrammed hspaced
  · obtain ⟨nodes, hnodes⟩ := htextRead
    exact ⟨nodes, hnodes, ((assignment_read _).2.2 nodes hnodes "x" true).mpr ⟨_, hmem, _, h, .inl hspaced⟩⟩
  · have hunread : readLine "<<set $x true>>".toList = .error .malformedAssignment := by decide
    have hset : IsAssignment "<<set $x true>>".toList "set $x true".toList := ⟨by decide, by decide⟩
    refine (assignment_read _).2.1 _ hotherMem _ hset ?_
    rintro ⟨name, value, hassigns⟩
    have hagain : readLine "<<set $x true>>".toList = .ok (.assign (String.ofList name) value) := by
      refine (((assignment_read "").1 _ _ hset).1 _).mpr ⟨_, _, rfl, ?_⟩
      rw [String.toList_ofList (l := name)]
      exact hassigns
    cases hunread.symm.trans hagain

/-- A `to` that touches a name takes its end: `<<set $xtotrue>>` sets `x`. -/
theorem assignment_of_end : ∃ nodes, read "title: A\n---\n<<set $xtotrue>>\n===\n" = .ok nodes ∧
    (∃ node ∈ nodes, Line.assign "x" true ∈ node.lines) ∧
    ∃ line ∈ bodyLinesOf "title: A\n---\n<<set $xtotrue>>\n===\n", ∃ inner, IsAssignment line.text inner ∧
      ¬ReadByGrammar line.text inner ∧ "x".toList <+: writtenName inner ∧ "x".toList ≠ writtenName inner := by
  have hrow : BodyRow "<<set $xtotrue>>".toList :=
    ⟨by decide, by decide, by decide, by decide, by decide, by decide⟩
  have htext : "title: A\n---\n<<set $xtotrue>>\n===\n" = solitary "<<set $xtotrue>>".toList := by decide
  have h : IsAssignment "<<set $xtotrue>>".toList "set $xtotrue".toList := ⟨by decide, by decide⟩
  have hread : readLine "<<set $xtotrue>>".toList = .ok (.assign "x" true) := by decide
  have hmem : rowLine 3 "<<set $xtotrue>>".toList ∈ bodyLinesOf (solitary "<<set $xtotrue>>".toList) := by
    rw [bodyLinesOf_solitary hrow]
    exact List.mem_cons_self
  rw [htext]
  obtain ⟨nodes, hnodes⟩ := (read_solitary_iff hrow (by decide)).mpr ⟨_, hread⟩
  refine ⟨nodes, hnodes, exists_node_of_readLine hnodes hmem (by decide) hread nofun nofun, _, hmem, _, h, ?_, ?_⟩
  · intro hlaw
    exact absurd (hlaw.assigns "x" true hread).2 (by decide)
  · exact ⟨by decide, by decide⟩

end Parley.Script

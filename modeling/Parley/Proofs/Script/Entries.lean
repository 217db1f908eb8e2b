import Parley.Proofs.Script.Condition
import Parley.Proofs.Script.Formed
import Parley.Proofs.Script.Misplaced
import Parley.Proofs.Script.Tagged

/-! What is left of an entry.

Of an entry the tags at its end are taken off, then its guard, then its speaker, once each. The guard is taken off from
where the first one begins, so none is left (`not_endsGuarded_of_splitGuard?`), but a tag before the guard is
(`leaves_of_readEntry`). So no choice of a script ends in a tag or a guard exactly if no entry of it has a tag before
its guard (`untagged_iff_of_read`). -/
namespace Parley

open Script Text

variable {ι : Type}

/-- The choices of a menu. Any other line has none. -/
def Line.choices : Line ι → List (Choice ι)
  | .offer menu => menu.choices
  | _ => []

def Node.choices (node : Node ι) : List (Choice ι) := node.lines.flatMap Line.choices

theorem Line.choices_of_ne {line : Line ι} (h : ∀ menu, line ≠ .offer menu) : line.choices = [] := by
  cases line with
  | offer menu => exact absurd rfl (h menu)
  | _ => rfl

namespace Script

/-- What follows the arrow of a line. -/
def SourceLine.entry? (line : SourceLine) : Option (List Char) := arrow? line.text

/-- What follows the arrows in the bodies of a script. -/
def entriesOf (text : String) : List (List Char) := (bodyLinesOf text).filterMap SourceLine.entry?

/-- A tag stands before the guard of an entry: tags at its end aside, it ends in a guard, and what is before this guard
ends in a tag. -/
def TagBeforeGuard (said : List Char) : Prop :=
  ∃ before opening, (splitTags (trimStart said)).1 = before ++ (opening ++ ['>', '>']) ∧ Opens opening ∧
    EndsTagged (trimEnd before)

/-- What is left of an entry in the text of its choice: no guard, and a tag only if it stands before the guard. -/
structure Leaves (said : List Char) (choice : Choice ι) : Prop where
  not_guarded : ¬EndsGuarded choice.text.toList
  tagged_iff : EndsTagged choice.text.toList ↔ TagBeforeGuard said

variable {s said before condition : List Char}

/-! ### The guard -/

/-- What stands before the first guard does not end in one. -/
theorem not_endsGuarded_of_splitGuard? (h : splitGuard? s = some (before, condition)) :
    ¬EndsGuarded (trimEnd before) := by
  obtain ⟨opening, -, -, hfirst⟩ := splitGuard?_first h
  rintro ⟨front, earlier, hend, hopens⟩
  obtain ⟨gap, hgap, -⟩ := exists_gap before
  -- the earlier guard would have been the first
  have hearlier : earlier ++ (['>', '>'] ++ (gap ++ opening)) <:+ before ++ opening := by
    refine ⟨front, ?_⟩
    rw [hgap, hend]
    simp
  have hlength := (hfirst _ hearlier (opens_append hopens (forall_of_some (by decide)))).length_le
  simp only [List.length_append, List.length_cons] at hlength
  omega

/-- A guard whose condition has no bracket begins in one place. -/
theorem eq_of_splitGuard? {other opening : List Char} (h : splitGuard? s = some (before, condition))
    (hcondition : '<' ∉ condition) (hs : s = other ++ (opening ++ ['>', '>'])) (hopens : Opens opening) :
    other = before := by
  obtain ⟨first, hparts, hopening, hfirst⟩ := splitGuard?_first h
  have hsame : other ++ opening = before ++ first := by
    have hjoined := hs.symm.trans hparts
    rw [← List.append_assoc, ← List.append_assoc] at hjoined
    exact List.append_cancel_right hjoined
  obtain ⟨front, hfront⟩ := hfirst opening ⟨other, hsame⟩ hopens
  obtain ⟨gap, rfl, hgap, -⟩ := guardOpening?_eq_some_iff.mp hopening
  have hinner : '<' ∉ gap ++ (['i', 'f'] ++ condition) := by
    have hblank : '<' ∉ gap := fun hmem => absurd (hgap '<' hmem) (by decide)
    simp [hblank, hcondition]
  obtain ⟨inside, after, rfl, -⟩ := hopens
  -- the guard begins where the first one does, at its second bracket, or after both
  match front with
  | [] =>
    rw [List.nil_append] at hfront
    rw [hfront] at hsame
    exact List.append_cancel_right hsame
  | [_] =>
    simp only [List.cons_append, List.nil_append, List.cons.injEq, true_and] at hfront
    exact absurd (hfront.2 ▸ List.mem_cons_self) hinner
  | _ :: _ :: front =>
    simp only [List.cons_append, List.nil_append, List.cons.injEq] at hfront
    exact absurd (hfront.2.2 ▸ by simp) hinner

/-- Where the guard is cut off, no guard is left, and a tag only if it stood before the guard. -/
theorem ends_of_cutGuard {guard : Option Guard} (hs : ¬EndsTagged s) (h : cutGuard s = .ok (said, guard)) :
    ¬EndsGuarded said ∧
      (EndsTagged said ↔ ∃ before opening, s = before ++ (opening ++ ['>', '>']) ∧ Opens opening ∧
        EndsTagged (trimEnd before)) := by
  unfold cutGuard at h
  split at h
  · rename_i hnone
    cases h
    have hguarded : ¬EndsGuarded s := by
      rw [← isSome_splitGuard?_iff, hnone]
      exact Bool.false_ne_true
    refine ⟨hguarded, fun htagged => absurd htagged hs, ?_⟩
    rintro ⟨before, opening, hparts, hopens, -⟩
    exact absurd ⟨before, opening, hparts, hopens⟩ hguarded
  · rename_i before condition hguard
    obtain ⟨found, hcondition, heq⟩ := map_eq_ok_iff.mp h
    cases heq
    refine ⟨not_endsGuarded_of_splitGuard? hguard, fun htagged => ?_, ?_⟩
    · obtain ⟨opening, hparts, hopening, -⟩ := splitGuard?_first hguard
      have hopens : Opens opening := isSome_guardOpening?_iff.mp (by rw [hopening]; rfl)
      exact ⟨before, opening, hparts, hopens, htagged⟩
    · rintro ⟨other, opening, hparts, hopens, htagged⟩
      have hbracket := (readCondition_eq_ok_iff.mp hcondition).not_mem
      rwa [eq_of_splitGuard? hguard hbracket hparts hopens] at htagged

/-! ### Entries -/

/-- What is left of an entry that is read. -/
theorem leaves_of_readEntry {entry : Entry} (htrim : trim (trimStart said) = trimStart said)
    (h : readEntry said = .ok entry) (target : List Char) : Leaves said (entry.choice target) := by
  obtain ⟨⟨left, guard⟩, hcut, h⟩ := bind_eq_ok_iff.mp h
  obtain ⟨hguarded, htagged⟩ := ends_of_cutGuard (not_endsTagged_splitTags _) hcut
  have hlast := (trim_eq_self_iff.mp (trim_of_cutGuard (trim_splitTags htrim) hcut).1).2
  dsimp only at h
  split at h
  · cases h
  · rename_i hempty
    cases h
    have htext := endsTagged_splitSpeaker_iff hlast (mt List.isEmpty_iff.mpr hempty)
    constructor
    · rw [Entry.choice, String.toList_ofList]
      exact fun hends => hguarded (hends.of_suffix (splitSpeaker_suffix hlast))
    · rw [Entry.choice, String.toList_ofList]
      exact htext.trans htagged

/-- A line that an option jumps with has no arrow. -/
theorem arrow?_of_jumpOf? {s target : List Char} (h : jumpOf? s = some target) : arrow? s = none := by
  obtain ⟨inner, hstatement, -⟩ := Option.bind_eq_some_iff.mp h
  obtain ⟨middle, hmiddle, -⟩ := Option.map_eq_some_iff.mp hstatement
  obtain ⟨closed, hclosed, -⟩ := Option.bind_eq_some_iff.mp hmiddle
  rw [after?_eq_some_iff.mp hclosed]
  rfl

/-! ### Choices -/

def Item.choices : Item → List (Choice (Option Int))
  | .line read => read.choices
  | .option _ choice => [choice]

theorem choices_before (item : Item) (lines : List (Line (Option Int))) :
    (item.before lines).flatMap Line.choices = item.choices ++ lines.flatMap Line.choices := by
  unfold Item.before
  split
  · rfl
  · rfl
  · rfl

/-- The choices of a body are what is left of its entries, in order. -/
theorem leaves_of_reads {lines : List SourceLine} {items : List Item} (h : Reads lines items)
    (htrim : ∀ line ∈ lines, trim line.text = line.text) :
    List.Forall₂ Leaves (lines.filterMap SourceLine.entry?) ((gather items).flatMap Line.choices) := by
  induction h with
  | nil => exact .nil
  | @line source lines line items harrow hread _ ih =>
    obtain ⟨hsource, hrest⟩ := List.forall_mem_cons.mp htrim
    have hentry : source.entry? = none := harrow
    rw [List.filterMap_cons_none hentry]
    show List.Forall₂ Leaves _ ((Item.before (.line line) (gather items)).flatMap Line.choices)
    rw [choices_before, Item.choices, Line.choices_of_ne (formed_of_readLine hsource hread).2]
    exact ih hrest
  | @option source follower lines said target entry items harrow hread hjump _ ih =>
    obtain ⟨hsource, hrest⟩ := List.forall_mem_cons.mp htrim
    have hentry : source.entry? = some said := harrow
    have hfollower : follower.entry? = none := arrow?_of_jumpOf? hjump
    rw [List.filterMap_cons_some hentry, List.filterMap_cons_none hfollower]
    show List.Forall₂ Leaves _ ((Item.before (.option _ (entry.choice target)) (gather items)).flatMap Line.choices)
    rw [choices_before]
    exact .cons (leaves_of_readEntry (trim_of_arrow? hsource harrow) hread target)
      (ih (List.forall_mem_cons.mp hrest).2)

/-- The choices of a script are what is left of its entries, in order. -/
theorem leaves_of_read {text : String} {nodes : List (Node (Option Int))} (h : read text = .ok nodes) :
    List.Forall₂ Leaves (entriesOf text) (nodes.flatMap Node.choices) := by
  obtain ⟨parts, hparts, rfl, hbodies⟩ := bodies_of_read h
  have htrim : ∀ part ∈ parts, ∀ line ∈ part.1, trim line.text = line.text := by
    intro part hpart line hline
    have hbody : line ∈ bodyLinesOf text := by
      rw [← hbodies]
      exact List.mem_flatMap.mpr ⟨part, hpart, hline⟩
    exact trim_of_mem_sourceLines (mem_of_mem_bodyLines hbody)
  rw [entriesOf, ← hbodies, List.filterMap_flatMap, List.flatMap_map]
  clear h hbodies
  induction parts with
  | nil => exact .nil
  | cons part parts ih =>
    obtain ⟨⟨items, hitems, hlines⟩, hmakes⟩ := List.forall_mem_cons.mp hparts
    obtain ⟨hpart, hrest⟩ := List.forall_mem_cons.mp htrim
    rw [List.flatMap_cons, List.flatMap_cons]
    refine List.rel_append ?_ (ih hmakes hrest)
    rw [Node.choices, hlines]
    exact leaves_of_reads (reads_of_readItems hitems) hpart

theorem Leaves.forall_iff {entries : List (List Char)} {choices : List (Choice ι)}
    (h : List.Forall₂ Leaves entries choices) :
    (∀ choice ∈ choices, ¬EndsTagged choice.text.toList ∧ ¬EndsGuarded choice.text.toList) ↔
      ∀ said ∈ entries, ¬TagBeforeGuard said := by
  induction h with
  | nil => exact iff_of_true (List.forall_mem_nil _) (List.forall_mem_nil _)
  | cons hleaves _ ih =>
    rw [List.forall_mem_cons, List.forall_mem_cons, ih, hleaves.tagged_iff, and_iff_left hleaves.not_guarded]

/-- **No tag and no guard is left, but for a tag before a guard.** The choices of a script are what is left of its
entries, one each and in order: none ends in a guard, and one ends in a tag exactly if its entry has one before its
guard. -/
theorem untagged_iff_of_read {text : String} {nodes : List (Node (Option Int))} (h : read text = .ok nodes) :
    List.Forall₂ Leaves (entriesOf text) (nodes.flatMap Node.choices) ∧
      ((∀ choice ∈ nodes.flatMap Node.choices,
          ¬EndsTagged choice.text.toList ∧ ¬EndsGuarded choice.text.toList) ↔
        ∀ said ∈ entriesOf text, ¬TagBeforeGuard said) :=
  ⟨leaves_of_read h, Leaves.forall_iff (leaves_of_read h)⟩

/-- A node with a menu of one guarded entry. -/
def guardedNode (text : String) : Node (Option Int) where
  title := "A"
  lines := [.offer ⟨"", [⟨text, "A", none, some ⟨"x", .equal, true⟩⟩], List.cons_ne_nil _ _⟩]
  headers := .empty
  lineNumber := 1
  lines_ne := List.cons_ne_nil _ _

/-- A tag after the guard is taken off. -/
theorem untagged_after_guard :
    read "title: A\n---\n-> Go <<if $x == true>> #a:b\n<<jump A>>\n===\n" = .ok [guardedNode "Go"] ∧
      ∀ said ∈ entriesOf "title: A\n---\n-> Go <<if $x == true>> #a:b\n<<jump A>>\n===\n", ¬TagBeforeGuard said := by
  have hread : read "title: A\n---\n-> Go <<if $x == true>> #a:b\n<<jump A>>\n===\n" = .ok [guardedNode "Go"] := by
    cbv
  have hgo : ¬EndsTagged "Go".toList ∧ ¬EndsGuarded "Go".toList := by decide
  exact ⟨hread, (untagged_iff_of_read hread).2.mp (List.forall_mem_singleton.mpr hgo)⟩

/-- A tag before the guard is not. -/
theorem tagged_before_guard :
    read "title: A\n---\n-> Go #a:b <<if $x == true>>\n<<jump A>>\n===\n" = .ok [guardedNode "Go #a:b"] ∧
      ¬∀ choice ∈ [guardedNode "Go #a:b"].flatMap Node.choices,
        ¬EndsTagged choice.text.toList ∧ ¬EndsGuarded choice.text.toList := by
  have hread : read "title: A\n---\n-> Go #a:b <<if $x == true>>\n<<jump A>>\n===\n" =
      .ok [guardedNode "Go #a:b"] := by
    cbv
  have htagged : EndsTagged "Go #a:b".toList := by decide
  exact ⟨hread, fun h => (List.forall_mem_singleton.mp h).1 htagged⟩

end Script

end Parley

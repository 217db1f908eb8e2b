import Mathlib
import Parley.Proofs.Script.Faults
import Parley.Proofs.Script.Formed
import Parley.Proofs.Tables

/-! Every line of a script is in a block.

The lines that matter are blocks, one after the other: headers, `---`, a body, and `===`. Of each block one node is
made (`Block.Makes`). A line of the node takes one line of the body, and a menu takes two for each of its entries
(`Takes`), so that nothing is left out or taken twice (`blocks_of_read`). -/
namespace Parley

open Script Text

variable {ι : Type}

/-- How many lines of a body a line takes. -/
def Line.span : Line ι → Nat
  | .offer menu => 2 * menu.choices.length
  | _ => 1

/-- Of two lines one is no menu. -/
def Line.Apart (line other : Line ι) : Prop := ¬∃ menu menu', line = .offer menu ∧ other = .offer menu'

namespace Script

/-! ### What lines make -/

/-- A line gives a header: the key is a word, and blanks around the colon and at the end say nothing. -/
def Gives (line : SourceLine) (header : String × String) : Prop :=
  ∃ gap rest, line.text = header.1.toList ++ (gap ++ ':' :: rest) ∧ isWordText header.1.toList = true ∧
    (∀ c ∈ gap, isBlank c = true) ∧ header.2.toList = trim rest

/-- An entry of a menu where it stands, with the line of its jump. -/
structure Placed where
  line : SourceLine
  follower : SourceLine
  entry : Entry
  target : List Char

namespace Placed

def lines (placed : Placed) : List SourceLine := [placed.line, placed.follower]

def choice (placed : Placed) : Choice (Option Int) := placed.entry.choice placed.target

/-- The lines are an arrow with the entry and a jump to the target. -/
structure Stands (placed : Placed) : Prop where
  entry : ∃ said, arrow? placed.line.text = some said ∧ readEntry said = .ok placed.entry
  target : jumpOf? placed.follower.text = some placed.target

end Placed

/-- The first speaker of entries, empty if nobody speaks. -/
def firstSpeaker : List Placed → String
  | [] => ""
  | placed :: rest =>
    if (String.ofList placed.entry.speaker).isEmpty then firstSpeaker rest else String.ofList placed.entry.speaker

/-- The lines of a body that a line takes. -/
inductive Takes : List SourceLine → Line (Option Int) → Prop where
  /-- One for a line that is no menu. -/
  | line {source : SourceLine} {line : Line (Option Int)} (no_option : arrow? source.text = none)
      (read : readLine source.text = .ok line) (no_menu : ∀ menu, line ≠ .offer menu) : Takes [source] line
  /-- Two for each entry of a menu. -/
  | menu {entries : List Placed} {menu : Menu (Option Int)} (stand : ∀ placed ∈ entries, placed.Stands)
      (choices : menu.choices = entries.map Placed.choice) (speaker : menu.speaker = firstSpeaker entries) :
      Takes (entries.flatMap Placed.lines) (.offer menu)

/-- Lines of a script from the first header of a node to the end of its body. -/
structure Block where
  heading : List SourceLine
  opening : SourceLine
  body : List SourceLine
  closing : SourceLine

def Block.lines (block : Block) : List SourceLine := block.heading ++ block.opening :: (block.body ++ [block.closing])

/-- Lines before a body give a title, one of them the title and the others the headers, in order. -/
structure Heads (heading : List SourceLine) (title : String) (number : Int) (headers : Table String) : Prop where
  gives : ∃ before line after, heading = before ++ line :: after ∧ Gives line ("title", title) ∧
    line.number = number ∧ List.Forall₂ Gives (before ++ after) headers.entries
  title : isTitle title.toList = true
  distinct : ("title" :: headers.names).Nodup

/-- A node is made of a block: its headers and its lines are those of the block, in order. -/
structure Block.Makes (block : Block) (node : Node (Option Int)) : Prop where
  heads : Heads block.heading node.title node.lineNumber node.headers
  opening : block.opening.text = "---".toList
  closing : block.closing.text = "===".toList
  inside : ∀ line ∈ block.body, line.text ≠ "---".toList ∧ line.text ≠ "===".toList
  takes : ∃ parts, parts.flatten = block.body ∧ List.Forall₂ Takes parts node.lines
  length : block.body.length = (node.lines.map Line.span).sum
  lines : node.lines ≠ []
  apart : node.lines.IsChain Line.Apart
  formed : ∀ line ∈ node.lines, line.Formed

/-! ### Bodies -/

theorem Takes.length {part : List SourceLine} {line : Line (Option Int)} (h : Takes part line) :
    part.length = line.span := by
  cases h with
  | line _ _ no_menu =>
    cases line with
    | offer menu => exact absurd rfl (no_menu menu)
    | _ => rfl
  | @menu entries menu _ choices _ =>
    show (entries.flatMap Placed.lines).length = 2 * menu.choices.length
    rw [choices, List.length_map, List.length_flatMap]
    show (entries.map fun _ => 2).sum = 2 * entries.length
    rw [List.map_const', List.sum_replicate_nat, Nat.mul_comm]

theorem canSpeak_firstSpeaker {entries : List Placed}
    (h : ∀ placed ∈ entries, CanSpeak (String.ofList placed.entry.speaker)) : CanSpeak (firstSpeaker entries) := by
  induction entries with
  | nil => exact canSpeak_nobody
  | cons placed rest ih =>
    obtain ⟨hplaced, hrest⟩ := List.forall_mem_cons.mp h
    unfold firstSpeaker
    split
    · exact ih hrest
    · exact hplaced

/-- What is read from trimmed lines has its form. -/
theorem Takes.formed {part : List SourceLine} {line : Line (Option Int)} (h : Takes part line)
    (htrim : ∀ source ∈ part, trim source.text = source.text) : line.Formed := by
  cases h with
  | line _ read _ => exact (formed_of_readLine (htrim _ List.mem_cons_self) read).1
  | @menu entries menu stand choices speaker =>
    have hentry : ∀ placed ∈ entries, placed.choice.Formed ∧ CanSpeak (String.ofList placed.entry.speaker) := by
      intro placed hplaced
      obtain ⟨said, harrow, hread⟩ := (stand placed hplaced).entry
      obtain ⟨inner, -, htarget⟩ := Option.bind_eq_some_iff.mp (stand placed hplaced).target
      have hline : placed.line ∈ entries.flatMap Placed.lines :=
        List.mem_flatMap.mpr ⟨placed, hplaced, List.mem_cons_self⟩
      exact formed_of_readEntry (htrim _ hline) harrow hread (isTitle_of_jumpTarget? htarget)
    refine ⟨?_, menu.choices_ne, fun choice hchoice => ?_⟩
    · rw [speaker]
      exact canSpeak_firstSpeaker fun placed hplaced => (hentry placed hplaced).2
    · rw [choices] at hchoice
      obtain ⟨placed, hplaced, rfl⟩ := List.mem_map.mp hchoice
      exact (hentry placed hplaced).1

/-- An entry before lines takes its two lines, with those of the menu that the lines begin with. -/
theorem takes_before_option {placed : Placed} (hplaced : placed.Stands) {parts : List (List SourceLine)}
    {lines : List (Line (Option Int))} (h : List.Forall₂ Takes parts lines) :
    ∃ parts', parts'.flatten = placed.lines ++ parts.flatten ∧
      List.Forall₂ Takes parts' (Item.before (.option (String.ofList placed.entry.speaker) placed.choice) lines) := by
  have halone : ∀ placed' ∈ [placed], placed'.Stands := List.forall_mem_singleton.mpr hplaced
  have hspeaker : String.ofList placed.entry.speaker = firstSpeaker [placed] := by
    unfold firstSpeaker
    split
    · rename_i hempty
      exact String.isEmpty_iff.mp hempty
    · rfl
  unfold Item.before
  split
  · rename_i heq
    cases heq
  · rename_i speaker choice menu lines heq
    cases heq
    cases h with
    | @cons part _ parts _ hpart hparts =>
      cases hpart with
      | line _ _ no_menu => exact absurd rfl (no_menu menu)
      | @menu entries _ stand choices speaker =>
        refine ⟨(placed :: entries).flatMap Placed.lines :: parts, ?_, .cons (.menu ?_ ?_ ?_) hparts⟩
        · rw [List.flatten_cons, List.flatten_cons, List.flatMap_cons, List.append_assoc]
        · exact List.forall_mem_cons.mpr ⟨hplaced, stand⟩
        · exact congrArg (placed.choice :: ·) choices
        · rw [firstSpeaker, speaker]
  · rename_i heq _
    cases heq
    exact ⟨[placed].flatMap Placed.lines :: parts, rfl, .cons (.menu halone rfl hspeaker) h⟩

/-- An entry before lines goes into the menu that they begin with, so that no two menus meet. -/
theorem apart_before_option {lines : List (Line (Option Int))} (speaker : String) (choice : Choice (Option Int))
    (h : lines.IsChain Line.Apart) : (Item.before (.option speaker choice) lines).IsChain Line.Apart := by
  unfold Item.before
  split
  · rename_i heq
    cases heq
  · rename_i menu lines _
    obtain ⟨hhead, hlines⟩ := List.isChain_cons.mp h
    refine List.isChain_cons.mpr ⟨fun line hline => ?_, hlines⟩
    rintro ⟨-, menu', -, rfl⟩
    exact hhead _ hline ⟨menu, menu', rfl, rfl⟩
  · rename_i heq hmenu
    refine List.isChain_cons.mpr ⟨fun line hline => ?_, h⟩
    rintro ⟨-, menu', -, rfl⟩
    obtain ⟨rest, rfl⟩ := List.head?_eq_some_iff.mp hline
    exact hmenu menu' rest rfl

/-- The lines of a body are taken by the lines that are made of them, each once and in order, and no two menus meet. -/
theorem takes_of_readItems {lines : List SourceLine} {items : List Item}
    (htrim : ∀ line ∈ lines, trim line.text = line.text) (h : readItems lines = .ok items) :
    (∃ parts, parts.flatten = lines ∧ List.Forall₂ Takes parts (gather items)) ∧
      (gather items).IsChain Line.Apart := by
  replace h := reads_of_readItems h
  induction h with
  | nil => exact ⟨⟨[], rfl, .nil⟩, .nil⟩
  | @line line _ _ _ harrow hread _ ih =>
    obtain ⟨hline, hrest⟩ := List.forall_mem_cons.mp htrim
    obtain ⟨⟨parts, hparts, htakes⟩, hapart⟩ := ih hrest
    have hmenu := (formed_of_readLine hline hread).2
    refine ⟨⟨[line] :: parts, ?_, .cons (.line harrow hread hmenu) htakes⟩, List.isChain_cons.mpr ⟨?_, hapart⟩⟩
    · rw [List.flatten_cons, hparts]
      rfl
    · rintro other - ⟨menu, -, rfl, -⟩
      exact hmenu menu rfl
  | @option line follower rest said target entry _ harrow hentry hjump _ ih =>
    have hrest : ∀ other ∈ rest, trim other.text = other.text :=
      fun other hother => htrim other (List.mem_cons_of_mem _ (List.mem_cons_of_mem _ hother))
    obtain ⟨⟨parts, hparts, htakes⟩, hapart⟩ := ih hrest
    have hplaced : Placed.Stands ⟨line, follower, entry, target⟩ := ⟨⟨said, harrow, hentry⟩, hjump⟩
    obtain ⟨parts', hparts', htakes'⟩ := takes_before_option hplaced htakes
    refine ⟨⟨parts', ?_, htakes'⟩, apart_before_option _ _ hapart⟩
    rw [hparts', hparts]
    rfl

theorem length_of_takes {parts : List (List SourceLine)} {lines : List (Line (Option Int))}
    (h : List.Forall₂ Takes parts lines) : parts.flatten.length = (lines.map Line.span).sum := by
  induction h with
  | nil => rfl
  | cons hpart _ ih => rw [List.flatten_cons, List.length_append, hpart.length, ih, List.map_cons, List.sum_cons]

theorem formed_of_takes {parts : List (List SourceLine)} {lines : List (Line (Option Int))}
    (h : List.Forall₂ Takes parts lines) (htrim : ∀ source ∈ parts.flatten, trim source.text = source.text) :
    ∀ line ∈ lines, line.Formed := by
  induction h with
  | nil => exact List.forall_mem_nil _
  | cons hpart _ ih =>
    rw [List.flatten_cons] at htrim
    obtain ⟨hfirst, hrest⟩ := List.forall_mem_append.mp htrim
    exact List.forall_mem_cons.mpr ⟨hpart.formed hfirst, ih hrest⟩

/-! ### Headers -/

theorem gives_of_header? {line : SourceLine} {key value : List Char} (h : header? line.text = some (key, value)) :
    Gives line (String.ofList key, String.ofList value) := by
  unfold header? at h
  dsimp only at h
  split at h
  · cases h
  · rename_i hkey
    obtain ⟨rest, hrest, heq⟩ := Option.map_eq_some_iff.mp h
    cases heq
    obtain ⟨gap, hgap, hblank⟩ := exists_lead (line.text.dropWhile isWord)
    refine ⟨gap, rest, ?_, ?_, hblank, String.toList_ofList⟩
    · show line.text = (String.ofList _).toList ++ (gap ++ ([':'] ++ rest))
      rw [String.toList_ofList, ← after?_eq_some_iff.mp hrest, ← hgap, List.takeWhile_append_dropWhile]
    · show isWordText (String.ofList _).toList = true
      rw [String.toList_ofList, isWordText, List.all_takeWhile, Bool.and_true, Bool.not_eq_true']
      exact Bool.eq_false_iff.mpr hkey

/-- A new header goes to the end. -/
theorem gives_put {lines : List SourceLine} {headers : Table String} {line : SourceLine} {key value : String}
    (h : List.Forall₂ Gives lines headers.entries) (hline : Gives line (key, value))
    (hnew : headers.contains key = false) : List.Forall₂ Gives (lines ++ [line]) (headers.put key value).entries := by
  have hkey : key ∉ headers.names := fun hmem => by
    rw [(Table.contains_iff _ _).mpr hmem] at hnew
    cases hnew
  have hentries : (headers.put key value).entries = headers.entries ++ [(key, value)] := putEntry_new hkey
  rw [hentries]
  exact List.rel_append h (.cons hline .nil)

theorem distinct_put {headers : Table String} {key : String} (h : ("title" :: headers.names).Nodup)
    (hkey : key ≠ "title") (value : String) : ("title" :: (headers.put key value).names).Nodup := by
  refine List.nodup_cons.mpr ⟨fun hmem => ?_, (headers.put key value).distinct⟩
  rw [Table.names_put] at hmem
  split at hmem
  · exact (List.nodup_cons.mp h).1 hmem
  · rcases List.mem_append.mp hmem with hmem | hmem
    · exact (List.nodup_cons.mp h).1 hmem
    · exact hkey (List.mem_singleton.mp hmem).symm

/-! ### Blocks -/

/-- What a stage keeps of the lines since the last node. -/
def Stage.Holds : Stage → List SourceLine → Prop
  | .heading none headers, pending => List.Forall₂ Gives pending headers.entries ∧ ("title" :: headers.names).Nodup
  | .heading (some title) headers, pending => Heads pending title.1 title.2 headers
  | .body title number headers lines, pending => ∃ heading opening, pending = heading ++ opening :: lines ∧
    Heads heading title number headers ∧ opening.text = "---".toList ∧
    ∀ line ∈ lines, line.text ≠ "---".toList ∧ line.text ≠ "===".toList

/-- A line that completes no node is kept. -/
theorem Stage.Holds.step {stage next : Stage} {line : SourceLine} {pending : List SourceLine}
    (h : Step line stage none next) (hstage : stage.Holds pending) : next.Holds (pending ++ [line]) := by
  cases h with
  | titled hheader hnamed htitle =>
    obtain ⟨hgives, hdistinct⟩ := hstage
    have hline := gives_of_header? hheader
    rw [hnamed] at hline
    refine ⟨⟨pending, line, [], rfl, hline, rfl, ?_⟩, ?_, hdistinct⟩
    · rwa [List.append_nil]
    · rwa [String.toList_ofList]
  | @header title headers key value hheader hnamed hnew =>
    have hline := gives_of_header? hheader
    cases title with
    | none => exact ⟨gives_put hstage.1 hline hnew, distinct_put hstage.2 hnamed _⟩
    | some title =>
      obtain ⟨before, titleLine, after, rfl, htitled, hnumber, hgives⟩ := hstage.gives
      refine ⟨⟨before, titleLine, after ++ [line], ?_, htitled, hnumber, ?_⟩, hstage.title, ?_⟩
      · rw [List.append_assoc, List.cons_append]
      · rw [← List.append_assoc]
        exact gives_put hgives hline hnew
      · exact distinct_put hstage.distinct hnamed _
  | opening hopening => exact ⟨pending, line, rfl, hstage, hopening, List.forall_mem_nil _⟩
  | kept hclosing hopening =>
    obtain ⟨heading, opening, rfl, hheads, hedge, hinside⟩ := hstage
    refine ⟨heading, opening, ?_, hheads, hedge, ?_⟩
    · rw [List.append_assoc, List.cons_append]
    · exact List.forall_mem_append.mpr ⟨hinside, List.forall_mem_singleton.mpr ⟨hopening, hclosing⟩⟩

/-- A line that completes a node closes its block. -/
theorem Stage.Holds.close {stage next : Stage} {line : SourceLine} {pending : List SourceLine}
    {node : Node (Option Int)} (h : Step line stage (some node) next) (hstage : stage.Holds pending)
    (htrim : ∀ other ∈ pending, trim other.text = other.text) :
    next = .start ∧ ∃ block : Block, block.lines = pending ++ [line] ∧ block.Makes node := by
  cases h with
  | @closing _ _ _ lines _ hclosing hclose =>
    obtain ⟨heading, opening, rfl, hheads, hedge, hinside⟩ := hstage
    obtain ⟨items, hitems, hne, rfl⟩ := items_of_closeBody hclose
    have htrim : ∀ other ∈ lines, trim other.text = other.text :=
      fun other hother => htrim other (List.mem_append_right _ (List.mem_cons_of_mem _ hother))
    obtain ⟨⟨parts, rfl, htakes⟩, hapart⟩ := takes_of_readItems htrim hitems
    refine ⟨rfl, ⟨heading, opening, parts.flatten, line⟩, ?_, ?_⟩
    · rw [Block.lines, List.append_assoc, List.cons_append]
    · exact {
        heads := hheads
        opening := hedge
        closing := hclosing
        inside := hinside
        takes := ⟨parts, rfl, htakes⟩
        length := length_of_takes htakes
        lines := gather_ne_nil hne
        apart := hapart
        formed := formed_of_takes htakes htrim }

/-- The lines that are gone through are blocks, and the nodes are made of them. -/
theorem blocks_of_scan {stage : Stage} {lines pending : List SourceLine} {nodes : List (Node (Option Int))}
    (h : scan stage lines = .ok (nodes, .start)) (hstage : stage.Holds pending)
    (htrim : ∀ line ∈ pending ++ lines, trim line.text = line.text) :
    ∃ blocks : List Block, blocks.flatMap Block.lines = pending ++ lines ∧ List.Forall₂ Block.Makes blocks nodes := by
  induction lines generalizing stage pending nodes with
  | nil =>
    cases h
    -- before any header no line is pending
    obtain rfl := List.forall₂_nil_right_iff.mp hstage.1
    exact ⟨[], rfl, .nil⟩
  | cons line rest ih =>
    obtain ⟨⟨made, next⟩, hfirst, h⟩ := bind_eq_ok_iff.mp h
    obtain ⟨⟨others, final⟩, hrest, h⟩ := bind_eq_ok_iff.mp h
    cases h
    have hstep := Stage.step_cases hfirst
    cases made with
    | none =>
      rw [List.append_cons] at htrim ⊢
      exact ih hrest (hstage.step hstep) htrim
    | some node =>
      obtain ⟨hpending, hlater⟩ := List.forall_mem_append.mp htrim
      obtain ⟨rfl, block, hlines, hmakes⟩ := hstage.close hstep hpending
      obtain ⟨blocks, hblocks, hothers⟩ := ih hrest ⟨.nil, by decide⟩ (List.forall_mem_cons.mp hlater).2
      refine ⟨block :: blocks, ?_, .cons hmakes hothers⟩
      rw [List.flatMap_cons, hlines, hblocks, List.append_assoc]
      rfl

/-! ### Line numbers -/

theorem increasing_sourceLines (number : Nat) (rows : List (List Char)) :
    (sourceLines number rows).Pairwise fun line other => line.number < other.number := by
  induction rows generalizing number with
  | nil => exact .nil
  | cons row rest ih =>
    refine List.pairwise_append.mpr ⟨?_, ih (number + 1), fun line hline other hother => ?_⟩
    · cases SourceLine.ofRaw? number row with
      | none => exact .nil
      | some line => exact List.pairwise_singleton _ line
    · have hfirst : line ∈ sourceLines number [row] := List.mem_append_left _ hline
      have hline := number_of_mem_sourceLines hfirst
      have hother := number_of_mem_sourceLines hother
      rw [List.length_singleton] at hline
      omega

/-- The titles of nodes are in lines that follow one another as the nodes do. -/
theorem titles_of_makes {blocks : List Block} {nodes : List (Node (Option Int))}
    (h : List.Forall₂ Block.Makes blocks nodes) :
    ∃ titles : List SourceLine, titles.Sublist (blocks.flatMap Block.lines) ∧
      nodes.map Node.lineNumber = titles.map fun line => (line.number : Int) := by
  induction h with
  | nil => exact ⟨[], List.Sublist.refl _, rfl⟩
  | @cons block node blocks nodes hmakes _ ih =>
    obtain ⟨titles, hsublist, hnumbers⟩ := ih
    obtain ⟨before, line, after, hheading, -, hnumber, -⟩ := hmakes.heads.gives
    have hline : line ∈ block.lines := by
      rw [Block.lines, hheading]
      exact List.mem_append_left _ (List.mem_append_right _ List.mem_cons_self)
    refine ⟨line :: titles, ?_, ?_⟩
    · exact List.Sublist.append (List.singleton_sublist.mpr hline) hsublist
    · rw [List.map_cons, List.map_cons, hnumber, hnumbers]

/-! ### Scripts -/

/-- The trimmed lines of a text with their numbers, but for those that are blank or comments. -/
def significant (text : String) : List (List Char × Nat) :=
  (((lines text.toList).map trim).zipIdx 1).filter fun row => row.1 ≠ [] ∧ ¬['/', '/'] <+: row.1

theorem isSilent_iff {s : List Char} : isSilent s = true ↔ s = [] ∨ ['/', '/'] <+: s := by
  rw [isSilent, Bool.or_eq_true, List.isEmpty_iff, Option.isSome_iff_exists]
  refine or_congr_right ⟨?_, ?_⟩
  · rintro ⟨rest, hrest⟩
    exact ⟨rest, (after?_eq_some_iff.mp hrest).symm⟩
  · rintro ⟨rest, hrest⟩
    exact ⟨rest, after?_eq_some_iff.mpr hrest.symm⟩

/-- The lines of a source are those that are neither blank nor comments. -/
theorem significant_sourceLines (number : Nat) (rows : List (List Char)) :
    (sourceLines number rows).map (fun line => (line.text, line.number)) =
      ((rows.map trim).zipIdx number).filter fun row => row.1 ≠ [] ∧ ¬['/', '/'] <+: row.1 := by
  induction rows generalizing number with
  | nil => rfl
  | cons row rest ih =>
    rw [sourceLines, List.map_append, ih, List.map_cons, List.zipIdx_cons, List.filter_cons, SourceLine.ofRaw?]
    have hsilent := @isSilent_iff (trim row)
    dsimp only
    split
    · rename_i h
      rw [if_neg (by simpa [← or_iff_not_imp_left] using hsilent.mp h)]
      rfl
    · rename_i h
      rw [if_pos (by simpa using not_or.mp (mt hsilent.mpr h))]
      rfl

/-- **Every line that matters is in one block, and every block makes one node.** The nodes come in the order of their
lines, and what is in a block is what its node has: nothing is left out, and nothing is taken twice. -/
theorem blocks_of_read {text : String} {nodes : List (Node (Option Int))} (h : read text = .ok nodes) :
    nodes ≠ [] ∧ (nodes.map Node.lineNumber).Pairwise (· < ·) ∧
      ∃ blocks : List Block,
        (blocks.flatMap Block.lines).map (fun line => (line.text, line.number)) = significant text ∧
          List.Forall₂ Block.Makes blocks nodes := by
  obtain ⟨hscan, hne⟩ := scan_of_read h
  obtain ⟨blocks, hblocks, hmakes⟩ := @blocks_of_scan _ _ [] _ hscan ⟨.nil, by decide⟩
    fun line hline => trim_of_mem_sourceLines hline
  rw [List.nil_append] at hblocks
  refine ⟨hne, ?_, blocks, ?_, hmakes⟩
  · obtain ⟨titles, hsublist, hnumbers⟩ := titles_of_makes hmakes
    rw [hnumbers, List.pairwise_map]
    rw [hblocks] at hsublist
    exact ((increasing_sourceLines 1 _).sublist hsublist).imp Int.ofNat_lt.mpr
  · rw [hblocks]
    exact significant_sourceLines 1 _

/-- A script with a header, a comment, a menu of two entries, and a line. -/
def pier : String :=
  "title: Pier\nsky: red\n---\n// Dusk\n-> Go\n<<jump Pier>>\n\n-> Swim\n<<jump Pier>>\nAnn: Hm\n===\n"

/-- The node of that script. -/
def pierNode : Node (Option Int) where
  title := "Pier"
  lines := [.offer ⟨"", [⟨"Go", "Pier", none, none⟩, ⟨"Swim", "Pier", none, none⟩], List.cons_ne_nil _ _⟩,
    .say "Ann" "Hm" []]
  headers := ⟨[("sky", "red")], by decide⟩
  lineNumber := 1
  lines_ne := List.cons_ne_nil _ _

set_option maxRecDepth 4000 in
theorem blocks_of_read_pier :
    read pier = .ok [pierNode] ∧
    ∃ blocks : List Block,
      (blocks.flatMap Block.lines).map (fun line => (line.text, line.number)) = significant pier ∧
        List.Forall₂ Block.Makes blocks [pierNode] := by
  have hread : read pier = .ok [pierNode] := by cbv
  exact ⟨hread, (blocks_of_read hread).2.2⟩

end Script

end Parley

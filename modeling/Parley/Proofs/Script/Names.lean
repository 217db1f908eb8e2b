import Parley.Proofs.Document.Fit
import Parley.Proofs.Script.Statement
import Parley.Proofs.Script.Steps

/-! The names in a script.

Titles, variables and commands of a script have names that are not empty, and the keys of its headers are words.
So the nodes of a script fit into a document (`fits_of_read`), and the keys of their headers are whole
(`whole_of_read`). -/
namespace Parley

namespace Script

open Text

/-- No reference of a script has an index. -/
def unplaced (i : Option Int) : Prop := i = none

theorem ofList_ne {s : List Char} (h : s ≠ []) : String.ofList s ≠ "" := by
  simpa using h

/-! ### Lines -/

theorem isWordText_of_assignment? {s name value : List Char} (h : assignment? s = some (name, value)) :
    isWordText name = true := by
  obtain ⟨_, _, h⟩ := Option.bind_eq_some_iff.mp h
  obtain ⟨_, _, h⟩ := Option.bind_eq_some_iff.mp h
  exact (of_cutWord? h).1

theorem isTitle_of_jumpTarget? {s target : List Char} (h : jumpTarget? s = some target) :
    isTitle target = true := by
  obtain ⟨_, _, h⟩ := Option.bind_eq_some_iff.mp h
  split at h
  · cases h
    assumption
  · cases h

/-- What a statement is: an assignment, a command or a jump, and the names in it. -/
def Stated : Line (Option Int) → Prop
  | .assign variableName _ => isWordText variableName.toList = true
  | .command name _ => isWordText name.toList = true
  | .jump target index => isTitle target.toList = true ∧ index = none
  | _ => False

theorem stated_of_readStatement {s : List Char} {line : Line (Option Int)} (h : readStatement s = .ok line) :
    Stated line := by
  unfold readStatement at h
  split at h
  · cases h
  dsimp only at h
  split at h
  · split at h
    · cases h
    · rename_i hassignment
      obtain ⟨_, _, rfl⟩ := map_eq_ok_iff.mp h
      show isWordText (String.ofList _).toList = true
      rw [String.toList_ofList]
      exact isWordText_of_assignment? hassignment
  split at h
  · split at h
    · cases h
    · rename_i htarget
      cases h
      refine ⟨?_, rfl⟩
      rw [String.toList_ofList]
      exact isTitle_of_jumpTarget? htarget
  split at h
  · cases h
  unfold readCommand at h
  split at h
  · cases h
  · cases h
  · split at h
    · rename_i hword
      cases h
      show isWordText (String.ofList _).toList = true
      rw [String.toList_ofList, hword]
    · cases h

theorem ne_of_isWordText {name : String} (h : isWordText name.toList = true) : name ≠ "" := by
  rintro rfl
  cases h

theorem Stated.fit {line : Line (Option Int)} (h : Stated line) : line.Fit unplaced := by
  cases line with
  | assign variableName value => exact ne_of_isWordText h
  | command name arguments => exact ne_of_isWordText h
  | say speaker text tags => exact h.elim
  | jump target index =>
    refine ⟨?_, h.2⟩
    rintro rfl
    cases h.1
  | offer menu => exact h.elim

theorem fit_of_readLine {s : List Char} {line : Line (Option Int)} (h : readLine s = .ok line) :
    line.Fit unplaced := by
  rcases readLine_cases h with hstatement | ⟨-, hspeech⟩
  · exact (stated_of_readStatement hstatement).fit
  · obtain ⟨-, rfl⟩ := readSpeech_eq_ok_iff.mp hspeech
    trivial

/-! ### Options -/

theorem isWordText_of_readCondition {s : List Char} {guard : Guard} (h : readCondition s = .ok guard) :
    isWordText guard.variableName.toList = true := by
  unfold readCondition at h
  split at h
  · cases h
  · rename_i hcondition
    obtain ⟨_, _, hcut⟩ := Option.bind_eq_some_iff.mp hcondition
    split at h
    · cases h
    · obtain ⟨_, _, rfl⟩ := map_eq_ok_iff.mp h
      rw [String.toList_ofList]
      exact (of_cutWord? hcut).1

theorem fit_of_readEntry {s : List Char} {entry : Entry} (h : readEntry s = .ok entry) :
    ∀ guard ∈ entry.guard, guard.Fit := by
  obtain ⟨⟨said, guard⟩, hcut, h⟩ := bind_eq_ok_iff.mp h
  dsimp only at h
  split at h
  · cases h
  · cases h
    intro found hfound
    unfold cutGuard at hcut
    split at hcut
    · cases hcut
      cases hfound
    · obtain ⟨_, hcondition, heq⟩ := map_eq_ok_iff.mp hcut
      cases heq
      cases hfound
      exact ne_of_isWordText (isWordText_of_readCondition hcondition)

theorem Entry.fit_choice {entry : Entry} {target : List Char} (hguard : ∀ guard ∈ entry.guard, guard.Fit)
    (htarget : isTitle target = true) : (entry.choice target).Fit unplaced :=
  ⟨ofList_ne (ne_nil_of_isTitle htarget), rfl, hguard⟩

/-! ### Bodies -/

def Item.Fit : Item → Prop
  | .line read => read.Fit unplaced
  | .option _ choice => choice.Fit unplaced

theorem fit_of_readItems {lines : List SourceLine} {items : List Item} (h : readItems lines = .ok items) :
    ∀ item ∈ items, item.Fit := by
  replace h := reads_of_readItems h
  induction h with
  | nil => exact fun item hitem => nomatch hitem
  | line _ hread _ ih => exact List.forall_mem_cons.mpr ⟨fit_of_readLine hread, ih⟩
  | @option _ _ _ _ target entry _ _ hentry hjump _ ih =>
    obtain ⟨_, _, htarget⟩ := Option.bind_eq_some_iff.mp hjump
    have hchoice : (entry.choice target).Fit unplaced :=
      Entry.fit_choice (fit_of_readEntry hentry) (isTitle_of_jumpTarget? htarget)
    exact List.forall_mem_cons.mpr ⟨hchoice, ih⟩

theorem Item.fit_before {item : Item} {lines : List (Line (Option Int))} (hitem : item.Fit)
    (hlines : ∀ line ∈ lines, line.Fit unplaced) : ∀ line ∈ item.before lines, line.Fit unplaced := by
  unfold Item.before
  split
  · exact List.forall_mem_cons.mpr ⟨hitem, hlines⟩
  · obtain ⟨hmenu, hrest⟩ := List.forall_mem_cons.mp hlines
    exact List.forall_mem_cons.mpr ⟨List.forall_mem_cons.mpr ⟨hitem, hmenu⟩, hrest⟩
  · exact List.forall_mem_cons.mpr ⟨List.forall_mem_singleton.mpr hitem, hlines⟩

theorem fit_gather {items : List Item} (h : ∀ item ∈ items, item.Fit) :
    ∀ line ∈ gather items, line.Fit unplaced := by
  induction items with
  | nil => exact fun line hline => nomatch hline
  | cons item rest ih =>
    obtain ⟨hitem, hrest⟩ := List.forall_mem_cons.mp h
    exact Item.fit_before hitem (ih hrest)

/-! ### Scripts -/

/-- What a node of a script is like. -/
structure Sound (node : Node (Option Int)) : Prop where
  fit : node.Fit unplaced
  whole : WholeKeys node.headers

def Stage.Sound : Stage → Prop
  | .heading title headers => (∀ given ∈ title, given.1 ≠ "") ∧ WholeKeys headers
  | .body title _ headers _ => title ≠ "" ∧ WholeKeys headers

theorem Stage.sound_start : Stage.start.Sound :=
  ⟨fun _ h => (nomatch h), fun _ h => (nomatch h)⟩

theorem wholeKeys_put {headers : Table String} (h : WholeKeys headers) {key : String} (hkey : IsWhole key)
    (value : String) : WholeKeys (headers.put key value) := by
  intro name hname
  rw [Table.names_put] at hname
  split at hname
  · exact h name hname
  · rcases List.mem_append.mp hname with hname | hname
    · exact h name hname
    · cases List.mem_singleton.mp hname
      exact hkey

theorem all_isWord_of_header? {s key value : List Char} (h : header? s = some (key, value)) :
    key.all isWord = true := by
  unfold header? at h
  dsimp only at h
  split at h
  · cases h
  · obtain ⟨_, _, heq⟩ := Option.map_eq_some_iff.mp h
    cases heq
    exact List.all_takeWhile

theorem sound_of_closeBody {title : String} {titleLine : Nat} {headers : Table String} {lines : List SourceLine}
    {closing : SourceLine} {node : Node (Option Int)}
    (h : closeBody title titleLine headers lines closing = .ok node) (htitle : title ≠ "")
    (hwhole : WholeKeys headers) : Sound node := by
  obtain ⟨items, hitems, hne, rfl⟩ := items_of_closeBody h
  exact ⟨⟨htitle, Int.natCast_nonneg titleLine, fit_gather (fit_of_readItems hitems)⟩, hwhole⟩

theorem Stage.Sound.step {stage next : Stage} {line : SourceLine} {node : Option (Node (Option Int))}
    (hsound : stage.Sound) (h : Step line stage node next) : next.Sound ∧ ∀ made ∈ node, Script.Sound made := by
  cases h with
  | titled hheader hnamed htitle =>
    refine ⟨⟨fun given hgiven => ?_, hsound.2⟩, fun made hmade => nomatch hmade⟩
    cases hgiven
    exact ofList_ne (ne_nil_of_isTitle htitle)
  | header hheader hnamed hnew =>
    have hkey := isWhole_of_isWord (all_isWord_of_header? hheader)
    exact ⟨⟨hsound.1, wholeKeys_put hsound.2 hkey _⟩, fun made hmade => nomatch hmade⟩
  | opening => exact ⟨⟨hsound.1 _ rfl, hsound.2⟩, fun made hmade => nomatch hmade⟩
  | kept => exact ⟨hsound, fun made hmade => nomatch hmade⟩
  | closing hclosing hclose =>
    refine ⟨sound_start, fun made hmade => ?_⟩
    cases hmade
    exact sound_of_closeBody hclose hsound.1 hsound.2

theorem sound_of_scan {stage last : Stage} {lines : List SourceLine} {nodes : List (Node (Option Int))}
    (hsound : stage.Sound) (h : scan stage lines = .ok (nodes, last)) : ∀ node ∈ nodes, Sound node :=
  (scan_preserves (fun _ _ hstage hstep => Stage.Sound.step hstage hstep) h hsound).2

theorem fits_of_read {text : String} {nodes : List (Node (Option Int))} (h : read text = .ok nodes) :
    Fits unplaced nodes ∧ ∀ node ∈ nodes, WholeKeys node.headers := by
  obtain ⟨hscan, hne⟩ := scan_of_read h
  have hsound := sound_of_scan Stage.sound_start hscan
  refine ⟨⟨hne, fun node hnode => ?_⟩, fun node hnode => ?_⟩
  · exact (hsound node hnode).fit
  · exact (hsound node hnode).whole

end Script

end Parley

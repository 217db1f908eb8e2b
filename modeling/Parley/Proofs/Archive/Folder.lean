import Parley.Archive.Basic
import Parley.Proofs.Results
import Parley.Proofs.Text.Order

/-! Files in a folder.

A path to a file leads through its folder (`place_file`), and the folder lists the files that stand in it
(`mem_list`). A file that is written there changes neither the other names in the folder nor what stands under them
(`sameBut_write`). -/
namespace Parley

/-! ### The last name of a path -/

namespace Path

theorem name_append (folder : Path) (name : String) : Path.name (folder ++ [name]) = name := by
  rw [Path.name, List.getLastD_concat]

theorem stem_append (folder : Path) (name : String) : Path.stem (folder ++ [name]) = Path.stem [name] := by
  rw [Path.stem, name_append]
  rfl

end Path

namespace Archive

/-- Two archives have the same files in a folder, but for those of one stem. -/
structure SameBut (folder : Path) (stem : String) (archive other : Archive) : Prop where
  root : archive.root = other.root
  list : ∀ name, Path.stem [name] ≠ stem → (name ∈ archive.list folder ↔ name ∈ other.list folder)
  content : ∀ name ∈ archive.list folder, Path.stem [name] ≠ stem →
    archive.content (folder ++ [name]) = other.content (folder ++ [name])

variable {archive other : Archive} {folder place start : Path} {name : String}

/-! ### Going through folders -/

theorem placeFrom_append (archive : Archive) (start a b : Path) :
    archive.placeFrom start (a ++ b) = archive.placeFrom start a >>= fun place => archive.placeFrom place b := by
  induction a generalizing start with
  | nil => rfl
  | cons name rest ih =>
    rw [List.cons_append, placeFrom, placeFrom]
    split
    · rfl
    · rfl
    · split
      · exact ih _
      · split
        · rfl
        · exact ih _

/-- Where folders remain folders, a path leads where it led. -/
theorem placeFrom_of_folders {path : Path}
    (h : ∀ place, archive.entryAt? place = some .folder → other.entryAt? place = some .folder)
    (hplace : archive.placeFrom start path = .ok place) : other.placeFrom start path = .ok place := by
  induction path generalizing start with
  | nil => exact hplace
  | cons name rest ih =>
    rw [placeFrom] at hplace ⊢
    split at hplace
    · cases hplace
    · cases hplace
    · rename_i hfolder
      simp only [h start hfolder]
      split at hplace
      · rename_i hdots
        rw [if_pos hdots]
        exact ih hplace
      · rename_i hdots
        rw [if_neg hdots]
        split at hplace
        · cases hplace
        · rename_i hlong
          rw [if_neg hlong]
          exact ih hplace

theorem place_of_folders {path : Path}
    (h : ∀ place, archive.entryAt? place = some .folder → other.entryAt? place = some .folder)
    (hplace : archive.place path = .ok place) : other.place path = .ok place := by
  unfold Archive.place at hplace ⊢
  split at hplace
  · cases hplace
  · exact placeFrom_of_folders h hplace

theorem placeFrom_of_place (h : archive.place folder = .ok place) : archive.placeFrom [] folder = .ok place := by
  unfold Archive.place at h
  split at h
  · cases h
  · exact h

/-- A path to a file leads to its folder, and on to the file. -/
theorem place_file (h : archive.place folder = .ok place) (hfolder : archive.entryAt? place = some .folder)
    (hname : name ≠ "..") :
    archive.place (folder ++ [name]) =
      match Path.fault? (folder ++ [name]) with
      | some fault => .error (.path fault)
      | none => if longestName < (Text.nameOctets name).length then .error .tooLong
        else .ok (place ++ [Text.settled name]) := by
  rw [Archive.place, placeFrom_append, placeFrom_of_place h]
  have hfile : archive.placeFrom place [name] =
      if longestName < (Text.nameOctets name).length then .error .tooLong else .ok (place ++ [Text.settled name]) := by
    rw [placeFrom, hfolder]
    simp only [if_neg hname]
    rfl
  rw [← hfile]
  rfl

/-- A folder lists what stands in it. -/
theorem mem_list (h : archive.place folder = .ok place) :
    name ∈ archive.list folder ↔ place ++ [name] ∈ archive.entries.map Prod.fst := by
  have hlist : archive.list folder = archive.namesIn place := by rw [list, h]; rfl
  rw [hlist, namesIn, Names.mem_sorted, List.mem_filterMap, List.mem_map]
  refine exists_congr fun entry => and_congr_right fun _ => ?_
  rcases List.eq_nil_or_concat entry.1 with hnil | ⟨parent, last, hentry⟩
  · simp [hnil]
  · rw [hentry, List.concat_eq_append, Path.name_append, Path.parent, List.dropLast_concat]
    by_cases hparent : parent = place <;> simp [hparent]

/-! ### Writing a file -/

theorem entryAt?_put {entry : Entry} (h : isAround place = false) (spot : Path) :
    (archive.put place entry).entryAt? spot = if spot = place then some entry else archive.entryAt? spot := by
  unfold entryAt? put
  by_cases heq : spot = place
  · subst heq
    simp [h]
  · have hfind : (archive.entries.filter (·.1 ≠ place)).find? (·.1 = spot) = archive.entries.find? (·.1 = spot) := by
      rw [List.find?_filter]
      congr 1
      funext entry
      by_cases hentry : entry.1 = spot <;> simp [hentry, heq]
    simp only [if_neg heq, List.find?_cons, hfind]
    simp [Ne.symm heq]

/-- A file that is written is put where nothing or a file stands. -/
theorem put_of_write {path : Path} {content : ByteArray} (h : archive.write path content = (.ok (), other)) :
    ∃ place, archive.place path = .ok place ∧ archive.entryAt? place ≠ some .folder ∧
      other = archive.put place (.file content) := by
  unfold write putAt at h
  split at h
  · cases h
  · rename_i place hplace
    split at h
    · cases h
    · rename_i hfree
      cases h
      refine ⟨place, hplace, fun hfolder => ?_, rfl⟩
      rw [hfolder] at hfree
      cases hfree

theorem folder_of_entry (h : archive.entry folder = .ok .folder) :
    ∃ place, archive.place folder = .ok place ∧ archive.entryAt? place = some .folder := by
  obtain ⟨place, hplace, h⟩ := bind_eq_ok_iff.mp h
  refine ⟨place, hplace, ?_⟩
  split at h
  · rename_i hentry
    cases h
    exact hentry
  · cases h

/-- A file that is written changes nothing for files of other stems. -/
theorem sameBut_write {content : ByteArray} (hfolder : archive.entry folder = .ok .folder) (hname : name ≠ "..")
    (hnames : ∀ listed ∈ archive.list folder, Text.settled listed = listed ∧ listed ≠ "..")
    (h : archive.write (folder ++ [name]) content = (.ok (), other)) :
    SameBut folder (Path.stem [Text.settled name]) archive other ∧ other.entry folder = .ok .folder := by
  obtain ⟨place, hplace, hentry⟩ := folder_of_entry hfolder
  obtain ⟨spot, hspot, hfree, rfl⟩ := put_of_write h
  have haround : isAround spot = false := by
    refine Bool.eq_false_iff.mpr fun haround => hfree ?_
    rw [entryAt?, if_pos haround]
  have hfolders : ∀ other, archive.entryAt? other = some .folder →
      (archive.put spot (.file content)).entryAt? other = some .folder := by
    intro other hother
    have hne : other ≠ spot := by
      rintro rfl
      exact hfree hother
    rw [entryAt?_put haround, if_neg hne, hother]
  have hplace' := place_of_folders hfolders hplace
  have hentry' := hfolders place hentry
  obtain rfl : spot = place ++ [Text.settled name] := by
    rw [place_file hplace hentry hname] at hspot
    split at hspot
    · cases hspot
    · split at hspot
      · cases hspot
      · cases hspot
        rfl
  have hother : ∀ listed, Path.stem [listed] ≠ Path.stem [Text.settled name] →
      place ++ [listed] ≠ place ++ [Text.settled name] := by
    intro listed hstem heq
    exact hstem (congrArg Path.stem (List.append_cancel_left heq))
  refine ⟨⟨rfl, fun listed hstem => ?_, fun listed hlisted hstem => ?_⟩, ?_⟩
  · rw [mem_list hplace, mem_list hplace']
    have hne := hother listed hstem
    simp [Archive.put, hne]
  · obtain ⟨hsettled, hdots⟩ := hnames listed hlisted
    rw [Archive.content, Archive.content, entry, entry, place_file hplace hentry hdots,
      place_file hplace' hentry' hdots, hsettled]
    split
    · rfl
    · split
      · rfl
      · simp only [bind, Except.bind, entryAt?_put haround, if_neg (hother listed hstem)]
  · rw [entry, hplace']
    simp only [bind, Except.bind, hentry']

end Archive

end Parley

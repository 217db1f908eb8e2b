import Mathlib.Data.List.Perm.Subperm
import Parley.Table

/-! Tables made of entries. -/
namespace Parley

variable {α β : Type}

theorem putEntry_new {name : String} {value : α} {entries : List (String × α)}
    (h : name ∉ entries.map Prod.fst) : putEntry name value entries = entries ++ [(name, value)] := by
  induction entries with
  | nil => rfl
  | cons entry rest ih =>
    rw [List.map_cons, List.mem_cons, not_or] at h
    rw [putEntry, if_neg (Ne.symm h.1), ih h.2]
    rfl

theorem putEntry_map (f : α → β) (name : String) (value : α) (entries : List (String × α)) :
    putEntry name (f value) (entries.map fun entry => (entry.1, f entry.2)) =
      (putEntry name value entries).map fun entry => (entry.1, f entry.2) := by
  induction entries with
  | nil => rfl
  | cons entry rest ih =>
    simp only [List.map_cons, putEntry, ih]
    split <;> rfl

theorem forall_putEntry {P : α → Prop} {name : String} {value : α} {entries : List (String × α)}
    (h : ∀ entry ∈ entries, P entry.2) (hvalue : P value) : ∀ entry ∈ putEntry name value entries, P entry.2 := by
  induction entries with
  | nil => exact List.forall_mem_singleton.mpr hvalue
  | cons entry rest ih =>
    obtain ⟨hentry, hrest⟩ := List.forall_mem_cons.mp h
    unfold putEntry
    split
    · exact List.forall_mem_cons.mpr ⟨hvalue, hrest⟩
    · exact List.forall_mem_cons.mpr ⟨hentry, ih hrest⟩

namespace Table

/-- The table with entries put into it one by one. -/
def putAll (t : Table α) (entries : List (String × α)) : Table α :=
  entries.foldl (fun t entry => t.put entry.1 entry.2) t

theorem entries_putAll {t : Table α} {entries : List (String × α)}
    (h : ((t.entries ++ entries).map Prod.fst).Nodup) : (t.putAll entries).entries = t.entries ++ entries := by
  induction entries generalizing t with
  | nil => exact (List.append_nil _).symm
  | cons entry rest ih =>
    have hnew : entry.1 ∉ t.entries.map Prod.fst := by
      rw [List.map_append, List.nodup_append] at h
      exact fun hmem => h.2.2 _ hmem _ List.mem_cons_self rfl
    have hput : (t.put entry.1 entry.2).entries = t.entries ++ [entry] := putEntry_new hnew
    have hrest := @ih (t.put entry.1 entry.2) (by rw [hput, List.append_assoc]; exact h)
    rw [hput, List.append_assoc] at hrest
    exact hrest

/-- A table is its entries put into an empty one. -/
theorem putAll_entries (t : Table α) : Table.empty.putAll t.entries = t := by
  have hentries : (Table.empty.putAll t.entries).entries = t.entries := Table.entries_putAll t.distinct
  cases t with
  | mk entries distinct =>
    cases hall : Table.empty.putAll entries with
    | mk entries' distinct' =>
      rw [hall] at hentries
      cases hentries
      rfl

/-- Entries with distinct names stay as they are. -/
theorem entries_ofList {entries : List (String × α)} (h : (entries.map Prod.fst).Nodup) :
    (ofList entries).entries = entries :=
  @entries_putAll _ empty entries h

theorem forall_putAll {P : α → Prop} {t : Table α} {entries : List (String × α)}
    (ht : ∀ entry ∈ t.entries, P entry.2) (h : ∀ entry ∈ entries, P entry.2) :
    ∀ entry ∈ (t.putAll entries).entries, P entry.2 := by
  induction entries generalizing t with
  | nil => exact ht
  | cons entry rest ih =>
    obtain ⟨hentry, hrest⟩ := List.forall_mem_cons.mp h
    exact @ih (t.put entry.1 entry.2) (forall_putEntry ht hentry) hrest

/-- A table has no values but those of its entries. -/
theorem forall_ofList {P : α → Prop} {entries : List (String × α)} (h : ∀ entry ∈ entries, P entry.2) :
    ∀ entry ∈ (ofList entries).entries, P entry.2 :=
  @forall_putAll _ P empty entries (fun _ hmem => (nomatch hmem)) h

/-- Values may be changed before or after. -/
theorem entries_putAll_map (f : α → β) {t : Table α} {image : Table β}
    (h : image.entries = t.entries.map fun entry => (entry.1, f entry.2)) (entries : List (String × α)) :
    (image.putAll (entries.map fun entry => (entry.1, f entry.2))).entries =
      (t.putAll entries).entries.map fun entry => (entry.1, f entry.2) := by
  induction entries generalizing t image with
  | nil => exact h
  | cons entry rest ih =>
    refine @ih (t.put entry.1 entry.2) (image.put entry.1 (f entry.2)) ?_
    show putEntry entry.1 (f entry.2) image.entries = _
    rw [h, putEntry_map]
    rfl

theorem entries_ofList_map (f : α → β) (entries : List (String × α)) :
    (ofList (entries.map fun entry => (entry.1, f entry.2))).entries =
      (ofList entries).entries.map fun entry => (entry.1, f entry.2) :=
  @entries_putAll_map _ _ f empty empty rfl entries

/-- The table with every value changed. -/
def map (f : α → β) (t : Table α) : Table β where
  entries := t.entries.map fun entry => (entry.1, f entry.2)
  distinct := by
    rw [List.map_map]
    exact t.distinct

theorem get?_map (f : α → β) (t : Table α) (name : String) : (t.map f).get? name = (t.get? name).map f := by
  show ((t.entries.map fun entry => (entry.1, f entry.2)).find? _).map Prod.snd = _
  rw [List.find?_map, get?, Option.map_map, Option.map_map]
  rfl

theorem mem_names_putAll {t : Table α} {entries : List (String × α)} {name : String} :
    name ∈ (t.putAll entries).names ↔ name ∈ t.names ∨ name ∈ entries.map Prod.fst := by
  induction entries generalizing t with
  | nil => exact (or_iff_left List.not_mem_nil).symm
  | cons entry rest ih =>
    refine (@ih (t.put entry.1 entry.2)).trans ?_
    rw [names_put]
    split
    · rename_i hmem
      rw [List.map_cons, List.mem_cons, ← or_assoc]
      exact or_congr_left ⟨.inl, fun h => h.elim id fun h => h ▸ hmem⟩
    · rw [List.mem_append, List.mem_singleton, List.map_cons, List.mem_cons, or_assoc]

theorem putAll_append (t : Table α) (a b : List (String × α)) : t.putAll (a ++ b) = (t.putAll a).putAll b :=
  List.foldl_append

theorem mem_names_ofList {entries : List (String × α)} {name : String} :
    name ∈ (ofList entries).names ↔ name ∈ entries.map Prod.fst :=
  (@mem_names_putAll _ empty entries name).trans (or_iff_right List.not_mem_nil)

/-- A table has as many entries as were put into it exactly if their names are distinct. -/
theorem size_ofList_eq_iff {entries : List (String × α)} :
    (ofList entries).size = entries.length ↔ (entries.map Prod.fst).Nodup := by
  constructor
  · intro h
    have hnames : (ofList entries).names ⊆ entries.map Prod.fst := fun name => mem_names_ofList.mp
    have hlength : (entries.map Prod.fst).length ≤ (ofList entries).names.length := by
      rw [List.length_map, names, List.length_map]
      exact Nat.le_of_eq h.symm
    have hperm := (List.subperm_of_subset (ofList entries).distinct hnames).perm_of_length_le hlength
    exact hperm.nodup_iff.mp (ofList entries).distinct
  · intro h
    rw [size, entries_ofList h]

end Table

end Parley

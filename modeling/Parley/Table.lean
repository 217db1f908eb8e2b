/-! Tables: values under names, in the order in which the names first arrived.

A name stands in a table once. Putting a value under a name that is there replaces the value where it
stands; a new name goes to the end. -/
namespace Parley

/-- The entries with `value` under `name`. -/
def putEntry {α : Type} (name : String) (value : α) : List (String × α) → List (String × α)
  | [] => [(name, value)]
  | entry :: rest =>
    if entry.1 = name then (name, value) :: rest else entry :: putEntry name value rest

theorem map_fst_putEntry {α : Type} (name : String) (value : α) (entries : List (String × α)) :
    (putEntry name value entries).map Prod.fst =
      if name ∈ entries.map Prod.fst then entries.map Prod.fst else entries.map Prod.fst ++ [name] := by
  induction entries with
  | nil => simp [putEntry]
  | cons entry rest ih =>
    unfold putEntry
    by_cases h : entry.1 = name
    · simp [h]
    · have h' : ¬ name = entry.1 := fun e => h e.symm
      simp only [h, if_false, List.map_cons, ih, List.mem_cons, h', false_or]
      split <;> simp

/-- Values under names, each name once. -/
structure Table (α : Type) where
  entries : List (String × α)
  distinct : (entries.map Prod.fst).Nodup
  deriving DecidableEq

namespace Table

variable {α β : Type}

def empty : Table α := ⟨[], List.nodup_nil⟩

instance : Inhabited (Table α) := ⟨empty⟩

/-- The names, in order of arrival. -/
def names (t : Table α) : List String := t.entries.map Prod.fst

def size (t : Table α) : Nat := t.entries.length

/-- The value under a name. -/
def get? (t : Table α) (name : String) : Option α :=
  (t.entries.find? (·.1 = name)).map Prod.snd

/-- Whether a name has a value. -/
def contains (t : Table α) (name : String) : Bool := t.entries.any (·.1 = name)

theorem nodup_putEntry {name : String} {value : α} {entries : List (String × α)}
    (h : (entries.map Prod.fst).Nodup) : ((putEntry name value entries).map Prod.fst).Nodup := by
  rw [map_fst_putEntry]
  split
  · exact h
  · rename_i hnot
    rw [List.nodup_append]
    refine ⟨h, by simp, ?_⟩
    intro a ha b hb hab
    cases List.mem_singleton.mp hb
    exact hnot (hab ▸ ha)

/-- The table with a value under a name. -/
def put (t : Table α) (name : String) (value : α) : Table α :=
  ⟨putEntry name value t.entries, nodup_putEntry t.distinct⟩

/-- The table without a name. -/
def erase (t : Table α) (name : String) : Table α :=
  ⟨t.entries.filter (·.1 ≠ name), (t.distinct.sublist (List.filter_sublist.map _))⟩

/-- The table that a list of entries makes, a later value replacing an earlier one. -/
def ofList (entries : List (String × α)) : Table α :=
  entries.foldl (fun t entry => t.put entry.1 entry.2) empty

theorem names_put (t : Table α) (name : String) (value : α) :
    (t.put name value).names = if name ∈ t.names then t.names else t.names ++ [name] :=
  map_fst_putEntry name value t.entries

theorem contains_iff (t : Table α) (name : String) : t.contains name = true ↔ name ∈ t.names := by
  simp [contains, names]

theorem get?_put (t : Table α) (name : String) (value : α) : (t.put name value).get? name = some value := by
  show ((putEntry name value t.entries).find? (·.1 = name)).map Prod.snd = some value
  induction t.entries with
  | nil => simp [putEntry]
  | cons entry rest ih =>
    unfold putEntry
    split
    · simp
    · rename_i h
      simpa [List.find?_cons, h] using ih

theorem get?_put_of_ne (t : Table α) {name other : String} (value : α) (h : other ≠ name) :
    (t.put name value).get? other = t.get? other := by
  show ((putEntry name value t.entries).find? (·.1 = other)).map Prod.snd =
    (t.entries.find? (·.1 = other)).map Prod.snd
  have hne : ¬ name = other := fun e => h e.symm
  induction t.entries with
  | nil => simp [putEntry, hne]
  | cons entry rest ih =>
    unfold putEntry
    split
    · rename_i he
      simp [he, hne]
    · by_cases he : entry.1 = other
      · simp [he]
      · simpa [List.find?_cons, he] using ih

/-- A name has a value exactly when it is among the names. -/
theorem isSome_get? (t : Table α) (name : String) : (t.get? name).isSome = t.contains name := by
  rw [Bool.eq_iff_iff]
  simp [get?, contains]

end Table

end Parley

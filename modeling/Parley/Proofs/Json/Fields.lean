import Parley.Json.Lenient

/-! The fields of objects, and what it means that they are read. -/
namespace Parley

/-! ### Fields -/

namespace Json

theorem field?_obj (key : String) (fields : List (String × Json)) :
    (obj fields).field? key = (fields.find? (·.1 = key)).map Prod.snd := rfl

theorem mem_of_field? {key : String} {fields : List (String × Json)} {found : Json}
    (h : (obj fields).field? key = some found) : (key, found) ∈ fields := by
  obtain ⟨field, hfind, rfl⟩ := Option.map_eq_some_iff.mp h
  have hkey : field.1 = key := of_decide_eq_true (List.find?_some hfind :)
  exact hkey ▸ List.mem_of_find?_eq_some hfind

theorem field?_eq_none {key : String} {fields : List (String × Json)} (h : ∀ field ∈ fields, field.1 ≠ key) :
    (obj fields).field? key = none := by
  rw [field?_obj, Option.map_eq_none_iff, List.find?_eq_none]
  exact fun field hmem heq => h field hmem (of_decide_eq_true heq)

theorem isSome_field? {fields : List (String × Json)} {field : String × Json} (h : field ∈ fields) :
    ((obj fields).field? field.1).isSome := by
  rw [field?_obj, Option.isSome_map, List.find?_isSome]
  exact ⟨field, h, decide_eq_true rfl⟩

/-- An object that has no fields but those named. -/
def Keyed (keys : List String) (value : Json) : Prop :=
  ∃ fields, value = obj fields ∧ ∀ field ∈ fields, field.1 ∈ keys

theorem Keyed.field?_eq_none {keys : List String} {value : Json} {key : String} (keyed : value.Keyed keys)
    (h : key ∉ keys) : value.field? key = none := by
  obtain ⟨fields, rfl, hfields⟩ := keyed
  exact Json.field?_eq_none fun field hmem (heq : field.1 = key) => h (heq ▸ hfields field hmem)

/-- An object in which every key stands once, and so in all that it holds. -/
inductive Proper : Json → Prop
  | null : Proper null
  | bool (value : Bool) : Proper (bool value)
  | int (value : Int) : Proper (int value)
  | real (value : Binary64) : Proper (real value)
  | str (value : String) : Proper (str value)
  | arr {items : List Json} (h : ∀ item ∈ items, Proper item) : Proper (arr items)
  | obj {fields : List (String × Json)} (distinct : (fields.map Prod.fst).Nodup)
      (h : ∀ field ∈ fields, Proper field.2) : Proper (obj fields)

theorem Proper.item {items : List Json} (proper : Proper (.arr items)) : ∀ item ∈ items, Proper item := by
  cases proper with
  | arr h => exact h

theorem Proper.field {value found : Json} {key : String} (proper : Proper value)
    (h : value.field? key = some found) : Proper found := by
  cases proper with
  | obj _ hfields => exact hfields _ (mem_of_field? h)
  | _ => cases h

theorem Proper.distinct {fields : List (String × Json)} (proper : Proper (.obj fields)) :
    (fields.map Prod.fst).Nodup := by
  cases proper with
  | obj distinct _ => exact distinct

/-! ### Reading -/

namespace Lenient

variable {α β : Type} {read : Json → Option α} {value : Json}

theorem mapM_eq_some_iff {γ : Type} {f : γ → Option α} {items : List γ} {reads : List α} :
    items.mapM f = some reads ↔ items.map f = reads.map some := by
  induction items generalizing reads with
  | nil => cases reads <;> simp
  | cons item rest ih =>
    rw [List.mapM_cons, List.map_cons]
    cases hitem : f item with
    | none => cases reads <;> simp
    | some found =>
      cases hrest : rest.mapM f with
      | none =>
        have hno : ∀ reads : List α, rest.map f ≠ reads.map some := fun reads heq => by
          rw [← ih, hrest] at heq
          cases heq
        cases reads <;> simp [hno]
      | some others => cases reads with
        | nil => simp
        | cons first reads => simp [← ih, hrest]

theorem list?_eq_some_iff {reads : List α} :
    list? read value = some reads ↔ ∃ items, value = .arr items ∧ items.map read = reads.map some := by
  rw [list?, Option.bind_eq_some_iff]
  refine exists_congr fun items => ?_
  rw [mapM_eq_some_iff]
  cases value <;> simp [arr?, eq_comm]

/-- What is written item by item is read item by item. -/
theorem list?_arr_map {write : β → Json} {back : β → α} {items : List β}
    (h : ∀ item ∈ items, read (write item) = some (back item)) :
    list? read (.arr (items.map write)) = some (items.map back) := by
  refine list?_eq_some_iff.mpr ⟨_, rfl, ?_⟩
  rw [List.map_map, List.map_map]
  exact List.map_congr_left h

/-- Items that can be read in one way only are those that what is read is written as. -/
theorem eq_map_of_reads {γ : Type} {f : γ → Option α} {write : α → γ} {items : List γ} {reads : List α}
    (h : items.map f = reads.map some) (hread : ∀ item x, f item = some x → item = write x) :
    items = reads.map write := by
  induction items generalizing reads with
  | nil => rw [List.map_eq_nil_iff.mp h.symm, List.map_nil]
  | cons item rest ih =>
    cases reads with
    | nil => cases h
    | cons x reads =>
      obtain ⟨hitem, hrest⟩ := List.cons.inj h
      rw [List.map_cons, ← hread item x hitem, ← ih hrest]

/-- Items and what is read from them, place by place. -/
theorem getElem?_reads {γ : Type} {f : γ → Option α} {items : List γ} {reads : List α}
    (h : items.map f = reads.map some) (i : Nat) : items[i]?.map f = reads[i]?.map some := by
  rw [← List.getElem?_map, ← List.getElem?_map, h]

/-- What is read from an item. -/
theorem exists_of_mem_reads {items : List Json} {reads : List α} (h : items.map read = reads.map some) {x : α}
    (hx : x ∈ reads) : ∃ item ∈ items, read item = some x := by
  have hmem : some x ∈ items.map read := h ▸ List.mem_map_of_mem hx
  exact List.mem_map.mp hmem

/-- A reading that begins with a record of some fields goes on with an object of those fields. -/
theorem keyed_of_bind {keys : List String} {next : Json → Option α} {x : α}
    (h : (record? keys value >>= next) = some x) : value.Keyed keys ∧ next value = some x := by
  obtain ⟨found, hrecord, hnext⟩ := Option.bind_eq_some_iff.mp h
  obtain ⟨fields, hfields, hif⟩ := Option.bind_eq_some_iff.mp hrecord
  split at hif
  · rename_i hkeys
    cases hif
    cases value with
    | obj _ =>
      cases hfields
      exact ⟨⟨_, rfl, fun field hmem => of_decide_eq_true (List.all_eq_true.mp hkeys field hmem)⟩, hnext⟩
    | _ => cases hfields
  · cases hif

theorem required_eq_some_iff {key : String} {x : α} :
    required key read value = some x ↔ ∃ found, value.field? key = some found ∧ read found = some x :=
  Option.bind_eq_some_iff

theorem str?_eq_some_iff {s : String} : value.str? = some s ↔ value = .str s := by
  cases value <;> simp [str?]

end Lenient

end Json

end Parley

import Parley.Proofs.Json.Fields

/-! JSON values that differ in the order of fields at most.

Objects are the same when each key has the same value in both, or none in either. -/
namespace Parley.Json

/-- Two values are the same but for the order of fields. -/
inductive Same : Json → Json → Prop where
  | refl (value : Json) : Same value value
  | arr {items others : List Json} (h : ∀ i : Nat, Option.Rel Same items[i]? others[i]?) :
      Same (.arr items) (.arr others)
  | obj {fields others : List (String × Json)}
      (h : ∀ key, Option.Rel Same ((Json.obj fields).field? key) ((Json.obj others).field? key)) :
      Same (.obj fields) (.obj others)

theorem rel_refl (found : Option Json) : Option.Rel Same found found := by
  cases found with
  | none => exact .none
  | some value => exact .some (.refl value)

theorem Same.field {value other : Json} (h : Same value other) (key : String) :
    Option.Rel Same (value.field? key) (other.field? key) := by
  cases h with
  | refl => exact rel_refl _
  | arr => exact .none
  | obj h => exact h key

theorem Same.item {items others : List Json} (h : Same (.arr items) (.arr others)) (i : Nat) :
    Option.Rel Same items[i]? others[i]? := by
  cases h with
  | refl => exact rel_refl _
  | arr h => exact h i

/-- Objects that have no fields but those named are compared at these. -/
theorem Keyed.same {keys : List String} {value other : Json} (hvalue : value.Keyed keys) (hother : other.Keyed keys)
    (h : ∀ key ∈ keys, Option.Rel Same (value.field? key) (other.field? key)) : Same value other := by
  have hall : ∀ key, Option.Rel Same (value.field? key) (other.field? key) := by
    intro key
    by_cases hkey : key ∈ keys
    · exact h key hkey
    · rw [hvalue.field?_eq_none hkey, hother.field?_eq_none hkey]
      exact .none
  obtain ⟨fields, rfl, -⟩ := hvalue
  obtain ⟨others, rfl, -⟩ := hother
  exact .obj hall

section Arrays

variable {α : Type} {read : Json → Option α} {write : α → Json} {complete : Json → Json} {items : List Json}
  {reads : List α}

/-- What is read item by item and written again is the same as what is made of the items. -/
theorem same_arr (h : items.map read = reads.map some)
    (hsame : ∀ item ∈ items, ∀ x, read item = some x → Same (write x) (complete item)) :
    Same (.arr (reads.map write)) (.arr (items.map complete)) := by
  refine .arr fun i => ?_
  rw [List.getElem?_map, List.getElem?_map]
  have hi := Lenient.getElem?_reads h i
  cases hitem : items[i]? with
  | none =>
    rw [hitem, Option.map_none, eq_comm, Option.map_eq_none_iff] at hi
    rw [hi]
    exact .none
  | some item =>
    rw [hitem, Option.map_some, eq_comm, Option.map_eq_some_iff] at hi
    obtain ⟨x, hx, hread⟩ := hi
    rw [hx]
    exact .some (hsame item (List.mem_of_getElem? hitem) x hread.symm)

theorem same_arr_iff {P : α → Prop} (h : items.map read = reads.map some)
    (hiff : ∀ item ∈ items, ∀ x, read item = some x → (Same (write x) (complete item) ↔ P x)) :
    Same (.arr (reads.map write)) (.arr (items.map complete)) ↔ ∀ x ∈ reads, P x := by
  constructor
  · intro same x hx
    obtain ⟨i, hi⟩ := List.getElem?_of_mem hx
    have hitem := Lenient.getElem?_reads h i
    rw [hi, Option.map_some, Option.map_eq_some_iff] at hitem
    obtain ⟨item, hitem, hread⟩ := hitem
    have hrel := same.item i
    rw [List.getElem?_map, List.getElem?_map, hi, hitem] at hrel
    cases hrel with
    | some hsame => exact (hiff item (List.mem_of_getElem? hitem) x hread).mp hsame
  · intro hP
    refine same_arr h fun item hmem x hread => (hiff item hmem x hread).mpr (hP x ?_)
    have hmem' : some x ∈ reads.map some := h ▸ List.mem_map.mpr ⟨item, hmem, hread⟩
    obtain ⟨_, hx, heq⟩ := List.mem_map.mp hmem'
    cases heq
    exact hx

end Arrays

/-! ### Filling in -/

/-- An object with the fields added that it does not have. -/
def filled (absent : List (String × Json)) : Json → Json
  | obj fields => obj (fields ++ absent.filter fun field => !fields.any (·.1 = field.1))
  | value => value

/-- An object with the value of one field changed, if it has it. -/
def change (key : String) (f : Json → Json) : Json → Json
  | obj fields => obj (fields.map fun field => if field.1 = key then (field.1, f field.2) else field)
  | value => value

/-- An array with each item changed. -/
def each (f : Json → Json) : Json → Json
  | arr items => arr (items.map f)
  | value => value

/-- An integral number as an integer. -/
def integral : Json → Json
  | real x => x.toInt?.elim (real x) int
  | value => value

variable {keys : List String} {value : Json}

theorem Keyed.filled {absent : List (String × Json)} (h : value.Keyed keys)
    (habsent : ∀ field ∈ absent, field.1 ∈ keys) : (value.filled absent).Keyed keys := by
  obtain ⟨fields, rfl, hfields⟩ := h
  refine ⟨_, rfl, List.forall_mem_append.mpr ⟨hfields, fun field hmem => ?_⟩⟩
  exact habsent field (List.mem_filter.mp hmem).1

theorem Keyed.change {key : String} {f : Json → Json} (h : value.Keyed keys) : (value.change key f).Keyed keys := by
  obtain ⟨fields, rfl, hfields⟩ := h
  refine ⟨_, rfl, List.forall_mem_map.mpr fun field hmem => ?_⟩
  split <;> exact hfields field hmem

/-- A field that is not there has the value that is filled in. -/
theorem Keyed.field?_filled {absent : List (String × Json)} (h : value.Keyed keys) (key : String) :
    (value.filled absent).field? key = (value.field? key).or ((obj absent).field? key) := by
  obtain ⟨fields, rfl, -⟩ := h
  rw [Json.filled, field?_obj, field?_obj, field?_obj, List.find?_append, Option.map_or]
  cases hfound : fields.find? (·.1 = key) with
  | some field => rfl
  | none =>
    have hnot : ∀ field ∈ fields, ¬field.1 = key := by simpa using hfound
    have hsame : ∀ field : String × Json,
        ((!fields.any (·.1 = field.1)) = true ∧ decide (field.1 = key) = true) ↔ field.1 = key := by
      intro field
      rw [decide_eq_true_eq]
      refine and_iff_right_of_imp fun heq => ?_
      rw [heq]
      simpa using hnot
    rw [List.find?_filter]
    simp only [hsame, Option.map_none, Option.none_or]

theorem field?_change (key : String) (f : Json → Json) (other : String) :
    (value.change key f).field? other = if other = key then (value.field? other).map f else value.field? other := by
  cases value with
  | obj fields =>
    rw [Json.change, field?_obj, field?_obj, List.find?_map]
    let changed (field : String × Json) : String × Json := if field.1 = key then (field.1, f field.2) else field
    have hkey : (fun field => decide (field.1 = other)) ∘ changed = fun field => decide (field.1 = other) := by
      funext field
      simp only [Function.comp, changed]
      split <;> rfl
    rw [hkey]
    cases hfound : fields.find? (fun field => decide (field.1 = other)) with
    | none => simp
    | some field =>
      have heq : field.1 = other := by simpa using List.find?_some hfound
      simp only [Option.map_some, heq]
      split <;> rfl
  | _ => simp [Json.change, field?]

end Parley.Json

import Parley.Text.Half

/-! Sets of names, written as lists in ascending order of code points, each name once. -/
namespace Parley.Names

/-- The ascending list with one more name. -/
def insert (name : String) : List String → List String
  | [] => [name]
  | other :: rest =>
    if name = other then other :: rest
    else if Text.comesBefore name other then name :: other :: rest
    else other :: insert name rest

/-- The names of a list, ascending, each once. -/
def sorted (names : List String) : List String := names.foldr insert []

/-- The names of a list one after the other, with a comma and a space between two. -/
def join (names : List String) : String := String.intercalate ", " names

theorem mem_insert {name other : String} {names : List String} :
    other ∈ insert name names ↔ other = name ∨ other ∈ names := by
  induction names with
  | nil => simp [insert]
  | cons first rest ih =>
    unfold insert
    split
    · rename_i h
      subst h
      simp
    · split
      · simp
      · rw [List.mem_cons, ih, List.mem_cons]
        constructor
        · rintro (h | h | h)
          · exact .inr (.inl h)
          · exact .inl h
          · exact .inr (.inr h)
        · rintro (h | h | h)
          · exact .inr (.inl h)
          · exact .inl h
          · exact .inr (.inr h)

theorem mem_sorted {name : String} {names : List String} : name ∈ sorted names ↔ name ∈ names := by
  induction names with
  | nil => simp [sorted]
  | cons first rest ih =>
    show name ∈ insert first (sorted rest) ↔ _
    rw [mem_insert, ih, List.mem_cons]

end Parley.Names

/-! Texts that begin with a given text. -/
namespace Parley.Text

/-- What follows `lead` in a text that begins with it. -/
def after? : List Char → List Char → Option (List Char)
  | [], s => some s
  | c :: lead, d :: s => if c = d then after? lead s else none
  | _ :: _, [] => none

theorem after?_eq_some_iff {lead s r : List Char} : after? lead s = some r ↔ s = lead ++ r := by
  induction lead generalizing s with
  | nil =>
    simp only [after?, Option.some.injEq, List.nil_append]
  | cons c lead ih =>
    cases s with
    | nil => simp [after?]
    | cons d s =>
      unfold after?
      by_cases h : c = d
      · subst h
        rw [if_pos rfl, ih, List.cons_append, List.cons.injEq]
        simp
      · have h' : ¬ d = c := fun e => h e.symm
        simp [h, h']

end Parley.Text

import Parley.Names

/-! The order of names.

Texts come in the order of their code points, also where some of these are lone halves
(`comesBefore_iff`), and a set of names lists each of them once in that order (`ascending_sorted`). So a set of
names has one list, however it is come by (`sorted_congr`). -/
namespace Parley

namespace Text

/-- Where nothing is marked, the code points are those of the characters. -/
theorem codes_of_unmarked {s : List Char} (h : mark ∉ s) : codes s = s.map Char.toNat := by
  induction s with
  | nil => rfl
  | cons c s ih =>
    have hc : c ≠ mark := fun heq => h (heq ▸ List.mem_cons_self)
    rw [codes_cons hc, ih fun hmem => h (List.mem_cons_of_mem _ hmem), List.map_cons]

/-- Characters stand in the order of their code points. -/
theorem lt_iff_codes {s t : List Char} : s < t ↔ s.map Char.toNat < t.map Char.toNat := by
  induction s generalizing t with
  | nil => cases t <;> simp
  | cons c s ih =>
    cases t with
    | nil => simp
    | cons d t =>
      rw [List.map_cons, List.map_cons, List.cons_lt_cons_iff, List.cons_lt_cons_iff, ih, Char.toNat_inj]
      rfl

theorem comesBefore_iff {a b : String} :
    comesBefore a b = true ↔ codes a.toList < codes b.toList ∨ codes a.toList = codes b.toList ∧ a < b := by
  unfold comesBefore
  by_cases hmarked : (a.contains mark || b.contains mark) = true
  · rw [if_pos hmarked, Bool.or_eq_true, Bool.and_eq_true, decide_eq_true_iff, decide_eq_true_iff, decide_eq_true_iff]
  · obtain ⟨ha, hb⟩ : mark ∉ a.toList ∧ mark ∉ b.toList := by
      simpa [String.contains_char_eq] using hmarked
    have hlt : a < b ↔ codes a.toList < codes b.toList := by
      rw [String.lt_iff, codes_of_unmarked ha, codes_of_unmarked hb, lt_iff_codes]
    rw [if_neg hmarked, decide_eq_true_iff]
    exact ⟨fun h => .inl (hlt.mp h), fun h => h.elim hlt.mpr And.right⟩

theorem comesBefore_trans {a b c : String} (hab : comesBefore a b = true) (hbc : comesBefore b c = true) :
    comesBefore a c = true := by
  rw [comesBefore_iff] at *
  rcases hab with hab | ⟨hab, hlt⟩
  · rcases hbc with hbc | ⟨hbc, -⟩
    · exact .inl (List.lt_trans hab hbc)
    · exact .inl (hbc ▸ hab)
  · rcases hbc with hbc | ⟨hbc, hlt'⟩
    · exact .inl (hab ▸ hbc)
    · exact .inr ⟨hab.trans hbc, String.lt_trans hlt hlt'⟩

theorem not_comesBefore_self (a : String) : ¬comesBefore a a = true := by
  rw [comesBefore_iff]
  rintro (h | ⟨-, h⟩)
  · exact List.lt_irrefl _ h
  · exact String.lt_irrefl _ h

/-- Of two texts, one comes first. -/
theorem comesBefore_of_not {a b : String} (hne : a ≠ b) (h : ¬comesBefore a b = true) : comesBefore b a = true := by
  rw [comesBefore_iff, not_or, not_and] at h
  rw [comesBefore_iff]
  by_cases hlt : codes b.toList < codes a.toList
  · exact .inl hlt
  · have hcodes : codes a.toList = codes b.toList := List.le_antisymm hlt h.1
    refine .inr ⟨hcodes.symm, ?_⟩
    by_cases hless : b < a
    · exact hless
    · exact absurd (String.le_antisymm hless (h.2 hcodes)) hne

end Text

namespace Names

/-- Each name once, in ascending order of code points. -/
def Ascending (names : List String) : Prop :=
  names.Pairwise fun a b => a ≠ b ∧ ¬Text.codes b.toList < Text.codes a.toList

theorem ordered_insert {names : List String} (h : names.Pairwise fun a b => Text.comesBefore a b = true)
    (name : String) : (insert name names).Pairwise fun a b => Text.comesBefore a b = true := by
  induction names with
  | nil => exact List.pairwise_singleton _ _
  | cons first rest ih =>
    obtain ⟨hfirst, hrest⟩ := List.pairwise_cons.mp h
    unfold insert
    split
    · exact h
    · rename_i hne
      split
      · rename_i hbefore
        refine List.pairwise_cons.mpr ⟨fun other hother => ?_, h⟩
        rcases List.mem_cons.mp hother with rfl | hother
        · exact hbefore
        · exact Text.comesBefore_trans hbefore (hfirst other hother)
      · rename_i hafter
        refine List.pairwise_cons.mpr ⟨fun other hother => ?_, ih hrest⟩
        rcases mem_insert.mp hother with rfl | hother
        · exact Text.comesBefore_of_not hne hafter
        · exact hfirst other hother

theorem ordered_sorted (names : List String) :
    (sorted names).Pairwise fun a b => Text.comesBefore a b = true := by
  induction names with
  | nil => exact List.Pairwise.nil
  | cons name rest ih => exact ordered_insert ih name

theorem ascending_of_ordered {names : List String} (h : names.Pairwise fun a b => Text.comesBefore a b = true) :
    Ascending names := by
  apply h.imp
  intro a b hbefore
  refine ⟨?_, fun hcodes => ?_⟩
  · rintro rfl
    exact Text.not_comesBefore_self a hbefore
  · rcases Text.comesBefore_iff.mp hbefore with h | ⟨h, -⟩
    · exact List.lt_asymm h hcodes
    · rw [h] at hcodes
      exact List.lt_irrefl _ hcodes

/-- Lists in order that have the same names are the same. -/
theorem eq_of_ordered {names others : List String} (h : names.Pairwise fun a b => Text.comesBefore a b = true)
    (h' : others.Pairwise fun a b => Text.comesBefore a b = true) (hmem : ∀ name, name ∈ names ↔ name ∈ others) :
    names = others := by
  have hnodup : names.Nodup := (ascending_of_ordered h).imp And.left
  have hnodup' : others.Nodup := (ascending_of_ordered h').imp And.left
  have hperm : names.Perm others := (List.perm_ext_iff_of_nodup hnodup hnodup').mpr hmem
  refine hperm.eq_of_pairwise ?_ h h'
  intro a b _ _ hab hba
  exact absurd (Text.comesBefore_trans hab hba) (Text.not_comesBefore_self a)

/-- A set of names has one list. -/
theorem sorted_congr {names others : List String} (h : ∀ name, name ∈ names ↔ name ∈ others) :
    sorted names = sorted others :=
  eq_of_ordered (ordered_sorted names) (ordered_sorted others) fun name => by rw [mem_sorted, mem_sorted, h]

end Names

end Parley

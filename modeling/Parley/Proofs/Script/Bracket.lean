import Parley.Proofs.Script.Statement

/-! Brackets, and where a guard begins.

A guard is looked for wherever one begins (`splitOpening?_eq_none_iff`). Where there are no two brackets in a
row none begins, and none comes about where a text is followed by a space and then by something else than
a guard goes on with (`unguarded_append`). A text in which no guard begins has none (`splitGuard?_unguarded`). -/
namespace Parley

open Script Text

namespace Script

/-! ### Brackets -/

theorem unbracketed_of_not_mem {s : List Char} (h : '<' ∉ s) : Unbracketed s :=
  fun hpart => h (hpart.subset List.mem_cons_self)

theorem unbracketed_of_part {a b : List Char} (h : Unbracketed b) (hpart : a <:+: b) : Unbracketed a :=
  fun hbrackets => h (hbrackets.trans hpart)

theorem unbracketed_cons {c : Char} {s : List Char} (hc : c ≠ '<') (h : Unbracketed s) :
    Unbracketed (c :: s) := by
  intro hpart
  rcases List.infix_cons_iff.mp hpart with hfront | hpart
  · exact hc (List.cons_prefix_cons.mp hfront).1.symm
  · exact h hpart

/-- Texts are without brackets together if the second does not begin with one. -/
theorem unbracketed_append {a b : List Char} (ha : Unbracketed a) (hb : Unbracketed b)
    (hhead : ∀ c ∈ b.head?, c ≠ '<') : Unbracketed (a ++ b) := by
  induction a with
  | nil => exact hb
  | cons c a ih =>
    have hrest : Unbracketed (a ++ b) := ih (unbracketed_of_part ha (List.infix_cons (List.infix_refl a)))
    intro hpart
    rcases List.infix_cons_iff.mp hpart with hfront | hpart
    · obtain ⟨hc, hnext⟩ := List.cons_prefix_cons.mp hfront
      cases a with
      | nil =>
        obtain ⟨rest, hb'⟩ := hnext
        have hsame : b = '<' :: rest := hb'.symm
        exact hhead '<' (by rw [hsame]; rfl) rfl
      | cons d a =>
        obtain ⟨hd, -⟩ := List.cons_prefix_cons.mp hnext
        rw [← hc, ← hd] at ha
        exact ha ⟨[], a, rfl⟩
    · exact hrest hpart

/-- Two characters at the front of a text that goes on with a space stand at the front of the text. -/
theorem pair_at_front {a b : Char} {s rest : List Char} (hne : s ≠ []) (hb : b ≠ ' ')
    (hrest : ∀ c ∈ rest.head?, c = ' ') (h : [a, b] <+: s ++ rest) : [a, b] <+: s := by
  cases s with
  | nil => exact absurd rfl hne
  | cons c s =>
    obtain ⟨ha, hnext⟩ := List.cons_prefix_cons.mp h
    rw [ha]
    cases s with
    | nil =>
      obtain ⟨more, hmore⟩ := hnext
      have hhead : b ∈ rest.head? := by
        have hsame : rest = b :: more := hmore.symm
        rw [hsame]
        rfl
      exact absurd (hrest b hhead) hb
    | cons d s =>
      rw [(List.cons_prefix_cons.mp hnext).1]
      exact List.cons_prefix_cons.mpr ⟨rfl, List.cons_prefix_cons.mpr ⟨rfl, List.nil_prefix⟩⟩

/-! ### Openings -/

/-- What follows the opening of a guard does not make its word longer. -/
theorem guardOpening?_eq_some_iff {s rest : List Char} :
    guardOpening? s = some rest ↔ ∃ gap, s = ['<', '<'] ++ (gap ++ (['i', 'f'] ++ rest)) ∧
      (∀ c ∈ gap, isBlank c = true) ∧ ∀ c ∈ rest.head?, isWord c = false := by
  constructor
  · intro h
    obtain ⟨inner, hinner, h⟩ := Option.bind_eq_some_iff.mp h
    obtain ⟨after, hafter, h⟩ := Option.bind_eq_some_iff.mp h
    obtain ⟨gap, hgap, hblank⟩ := exists_lead inner
    split at h
    · nomatch h
    · rename_i hword
      cases h
      refine ⟨gap, ?_, hblank, fun c hc => ?_⟩
      · rw [after?_eq_some_iff.mp hinner, ← after?_eq_some_iff.mp hafter, ← hgap]
      · rw [hc, Option.any_some] at hword
        exact Bool.not_eq_true _ ▸ hword
  · rintro ⟨gap, rfl, hblank, hrest⟩
    have htrim : trimStart (gap ++ (['i', 'f'] ++ rest)) = ['i', 'f'] ++ rest :=
      (trimStart_append _ hblank).trans (trimStart_of_head (forall_of_some (by decide)))
    have hhead : rest.head?.any isWord = false := by
      cases rest with
      | nil => rfl
      | cons c rest => exact hrest c rfl
    rw [guardOpening?, after?_lead, Option.bind_some, htrim, after?_lead, Option.bind_some, hhead]
    rfl

theorem isSome_guardOpening?_iff {s : List Char} : (guardOpening? s).isSome = true ↔ Opens s := by
  rw [Option.isSome_iff_exists]
  constructor
  · rintro ⟨rest, h⟩
    obtain ⟨gap, hs⟩ := guardOpening?_eq_some_iff.mp h
    exact ⟨gap, rest, hs⟩
  · rintro ⟨gap, rest, hs⟩
    exact ⟨rest, guardOpening?_eq_some_iff.mpr ⟨gap, hs⟩⟩

theorem guardOpening?_eq_none_iff {s : List Char} : guardOpening? s = none ↔ ¬Opens s := by
  rw [← isSome_guardOpening?_iff, Bool.not_eq_true, Option.isSome_eq_false_iff, Option.isNone_iff_eq_none]

theorem unguarded_nil : Unguarded [] := by
  rintro t hsuffix ⟨gap, rest, rfl, -⟩
  nomatch List.suffix_nil.mp hsuffix

theorem unguarded_cons_iff {c : Char} {s : List Char} :
    Unguarded (c :: s) ↔ ¬Opens (c :: s) ∧ Unguarded s := by
  simp only [Unguarded, List.suffix_cons_iff, forall_eq_or_imp]

/-- A guard is split off exactly where one begins. -/
theorem splitOpening?_eq_none_iff {s : List Char} : splitOpening? s = none ↔ Unguarded s := by
  induction s with
  | nil => exact iff_of_true rfl unguarded_nil
  | cons c s ih =>
    rw [unguarded_cons_iff, ← guardOpening?_eq_none_iff, ← ih, splitOpening?]
    cases guardOpening? (c :: s) with
    | none => simp
    | some condition => simp

/-- A guard is looked for where the first one begins. -/
theorem splitOpening?_first {s before condition : List Char} (h : splitOpening? s = some (before, condition)) :
    ∃ opening, s = before ++ opening ∧ guardOpening? opening = some condition ∧
      ∀ t, t <:+ s → Opens t → t <:+ opening := by
  induction s generalizing before with
  | nil => cases h
  | cons c s ih =>
    unfold splitOpening? at h
    split at h
    · rename_i hhere
      cases h
      exact ⟨c :: s, rfl, hhere, fun t ht _ => ht⟩
    · rename_i hhere
      obtain ⟨⟨front, rest⟩, hfront, heq⟩ := Option.map_eq_some_iff.mp h
      cases heq
      obtain ⟨opening, rfl, hopening, hfirst⟩ := ih hfront
      refine ⟨opening, rfl, hopening, fun t ht hopens => ?_⟩
      rcases List.suffix_cons_iff.mp ht with rfl | ht
      · exact absurd hopens (guardOpening?_eq_none_iff.mp hhere)
      · exact hfirst t ht hopens

instance (s : List Char) : Decidable (Unguarded s) := decidable_of_iff _ splitOpening?_eq_none_iff

/-! ### Where no guard begins -/

theorem not_opens_of_not_front {s : List Char} (h : ¬['<', '<'] <+: s) : ¬Opens s := by
  rintro ⟨gap, rest, rfl, -⟩
  exact h (List.prefix_append _ _)

theorem unguarded_of_unbracketed {s : List Char} (h : Unbracketed s) : Unguarded s := by
  intro t hsuffix
  refine not_opens_of_not_front fun hfront => h ?_
  exact hfront.isInfix.trans hsuffix.isInfix

theorem unguarded_append_of_not_mem {a b : List Char} (ha : '<' ∉ a) (hb : Unguarded b) :
    Unguarded (a ++ b) := by
  induction a with
  | nil => exact hb
  | cons c a ih =>
    rw [List.mem_cons, not_or] at ha
    refine unguarded_cons_iff.mpr ⟨not_opens_of_not_front fun hfront => ?_, ih ha.2⟩
    exact ha.1 (List.cons_prefix_cons.mp hfront).1

/-- A text that begins a guard up to a space, and ends it after the space, has the space among the blanks of
the guard. -/
theorem blank_of_opening {gap a b : List Char} (hne : a ≠ [])
    (h : ['<', '<'] ++ (gap ++ ['i', 'f']) = a ++ ' ' :: b) :
    ∃ later, ' ' :: b = later ++ ['i', 'f'] ∧ ∀ c ∈ later, c ∈ gap := by
  have hinner : ∃ front, gap ++ ['i', 'f'] = front ++ ' ' :: b := by
    match a, hne with
    | [_], _ => cases (List.cons.inj (List.cons.inj h).2).1
    | _ :: _ :: front, _ => exact ⟨front, (List.cons.inj (List.cons.inj h).2).2⟩
  obtain ⟨front, hfront⟩ := hinner
  rcases List.append_eq_append_iff.mp hfront with ⟨part, -, hword⟩ | ⟨later, hgap, hlater⟩
  · have hspace : ' ' ∈ ['i', 'f'] := hword ▸ List.mem_append_right _ List.mem_cons_self
    exact absurd hspace (by decide)
  · exact ⟨later, hlater, fun c hc => hgap ▸ List.mem_append_right _ hc⟩

/-- What begins a guard and goes on with a space has begun it before the space, unless the word of the guard
comes after it. -/
theorem opens_of_opens_append {a b : List Char} (hne : a ≠ []) (hspace : ∀ c ∈ b.head?, c = ' ')
    (hnext : ∀ c ∈ (trimStart b).head?, c ≠ 'i') (h : Opens (a ++ b)) : Opens a := by
  obtain ⟨gap, rest, heq, hblank, hrest⟩ := h
  rw [← List.append_assoc gap, ← List.append_assoc ['<', '<'], List.append_eq_append_iff] at heq
  rcases heq with ⟨part, hopen, rfl⟩ | ⟨more, rfl, rfl⟩
  · cases part with
    | nil => exact ⟨gap, [], by simpa using hopen.symm, hblank, fun c hc => nomatch hc⟩
    | cons d part =>
      obtain rfl : d = ' ' := hspace d rfl
      obtain ⟨later, hlater, hmem⟩ := blank_of_opening hne hopen
      have htrim : trimStart ((' ' :: part) ++ rest) = ['i', 'f'] ++ rest := by
        rw [hlater, List.append_assoc, trimStart_append _ fun c hc => hblank c (hmem c hc)]
        exact trimStart_of_head (forall_of_some (by decide))
      rw [htrim] at hnext
      exact absurd rfl (hnext 'i' rfl)
  · refine ⟨gap, more, by simp, hblank, ?_⟩
    cases more with
    | nil => exact fun c hc => nomatch hc
    | cons c more => exact hrest

/-- A text that goes on with a space, and then not with what follows the brackets of a guard. -/
theorem unguarded_append {a b : List Char} (ha : Unguarded a) (hb : Unguarded b)
    (hspace : ∀ c ∈ b.head?, c = ' ') (hnext : ∀ c ∈ (trimStart b).head?, c ≠ 'i') :
    Unguarded (a ++ b) := by
  induction a with
  | nil => exact hb
  | cons c a ih =>
    obtain ⟨hhere, hrest⟩ := unguarded_cons_iff.mp ha
    refine unguarded_cons_iff.mpr ⟨fun hopens => hhere ?_, ih hrest⟩
    exact opens_of_opens_append (List.cons_ne_nil _ _) hspace hnext hopens

/-- What begins a guard begins it also before anything that does not make its word longer. -/
theorem opens_append {a b : List Char} (h : Opens a) (hb : ∀ c ∈ b.head?, isWord c = false) : Opens (a ++ b) := by
  obtain ⟨gap, rest, rfl, hblank, hrest⟩ := h
  refine ⟨gap, rest ++ b, by simp, hblank, ?_⟩
  cases rest with
  | nil => exact hb
  | cons c rest => exact hrest

/-- A text in which no guard begins has no guard at its end. -/
theorem splitGuard?_unguarded {s : List Char} (h : Unguarded s) : splitGuard? s = none := by
  cases hclosing : dropClosing? s with
  | none =>
    rw [splitGuard?, hclosing]
    rfl
  | some inner =>
    obtain ⟨reversed, hafter, rfl⟩ := Option.map_eq_some_iff.mp hclosing
    have hreverse : s = reversed.reverse ++ ['>', '>'] := by
      have heq := congrArg List.reverse (after?_eq_some_iff.mp hafter)
      rw [List.reverse_reverse, List.reverse_append] at heq
      exact heq
    have hinner : Unguarded reversed.reverse := by
      intro t hsuffix hopens
      refine h (t ++ ['>', '>']) ?_ (opens_append hopens (forall_of_some (by decide)))
      rw [hreverse]
      exact List.suffix_append_self_iff.mpr hsuffix
    rw [splitGuard?, hclosing]
    exact splitOpening?_eq_none_iff.mpr hinner

end Script

end Parley

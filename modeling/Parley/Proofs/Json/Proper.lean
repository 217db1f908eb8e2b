import Parley.Json.Reader
import Parley.Proofs.Json.Fields
import Parley.Proofs.Results
import Parley.Proofs.Tables

/-! What is read from a text is proper: a key that comes again in an object replaces the field that was there. -/
namespace Parley.Json

theorem proper_object {fields : List (String × Json)} (h : ∀ field ∈ fields, Proper field.2) :
    (object fields).Proper :=
  .obj (Table.ofList fields).distinct (Table.forall_ofList h)

theorem proper_of_word? {s rest : List Char} {value : Json} (h : word? s = some (value, rest)) : value.Proper := by
  obtain ⟨⟨word, found⟩, hmem, hsome⟩ := List.exists_of_findSome?_eq_some h
  obtain ⟨_, _, heq⟩ := Option.map_eq_some_iff.mp hsome
  cases heq
  have hwords : ∀ entry ∈ words, Proper entry.2 := by
    simp only [words, List.forall_mem_cons]
    exact ⟨.null, .bool _, .bool _, .real _, .real _, .real _, fun _ h => (nomatch h)⟩
  exact hwords _ hmem

theorem proper_of_readNumber {negative : Bool} {s rest : List Char} {value : Json}
    (h : readNumber negative s = .ok (value, rest)) : value.Proper := by
  unfold readNumber at h
  split at h
  · cases h
  · split at h
    · split at h
      · cases h
      · cases h
        exact .int _
    · cases h
      exact .real _

/-- What the three readings give with some fuel. -/
structure Reads (fuel : Nat) : Prop where
  value : ∀ {depth s value rest}, readValue fuel depth s = .ok (value, rest) → value.Proper
  items : ∀ {depth s items rest}, readItems fuel depth s = .ok (items, rest) → ∀ item ∈ items, item.Proper
  fields : ∀ {depth s fields rest}, readFields fuel depth s = .ok (fields, rest) →
    ∀ field ∈ fields, field.2.Proper

theorem reads (fuel : Nat) : Reads fuel := by
  induction fuel with
  | zero => exact ⟨fun h => (nomatch h), fun h => (nomatch h), fun h => (nomatch h)⟩
  | succ fuel ih =>
    refine ⟨fun h => ?_, fun h => ?_, fun h => ?_⟩
    · unfold readValue at h
      split at h
      · obtain ⟨⟨text, _⟩, _, heq⟩ := map_eq_ok_iff.mp h
        cases heq
        exact .str text
      · cases h
      · cases h
      · split at h
        · cases h
          exact .arr fun _ h => (nomatch h)
        · obtain ⟨⟨items, _⟩, hitems, heq⟩ := map_eq_ok_iff.mp h
          cases heq
          exact .arr (ih.items hitems)
      · split at h
        · cases h
          exact .obj List.nodup_nil fun _ h => (nomatch h)
        · obtain ⟨⟨fields, _⟩, hfields, heq⟩ := map_eq_ok_iff.mp h
          cases heq
          exact proper_object (ih.fields hfields)
      · split at h
        · rename_i hword
          cases h
          exact proper_of_word? hword
        · split at h
          · exact proper_of_readNumber h
          · exact proper_of_readNumber h
    · unfold readItems at h
      obtain ⟨⟨item, s⟩, hitem, h⟩ := bind_eq_ok_iff.mp h
      dsimp only at h
      split at h
      · cases h
        exact List.forall_mem_singleton.mpr (ih.value hitem)
      · obtain ⟨⟨items, _⟩, hitems, h⟩ := bind_eq_ok_iff.mp h
        cases h
        exact List.forall_mem_cons.mpr ⟨ih.value hitem, ih.items hitems⟩
      · cases h
    · unfold readFields at h
      split at h
      · obtain ⟨⟨key, s⟩, _, h⟩ := bind_eq_ok_iff.mp h
        dsimp only at h
        split at h
        · obtain ⟨⟨value, s⟩, hvalue, h⟩ := bind_eq_ok_iff.mp h
          dsimp only at h
          split at h
          · cases h
            exact List.forall_mem_singleton.mpr (ih.value hvalue)
          · obtain ⟨⟨fields, _⟩, hfields, h⟩ := bind_eq_ok_iff.mp h
            cases h
            exact List.forall_mem_cons.mpr ⟨ih.value hvalue, ih.fields hfields⟩
          · cases h
        · cases h
      · cases h

/-- In what is read from a text, every key of an object stands once. -/
theorem proper_of_readTo {depth : Nat} {text : String} {value : Json} (h : readTo depth text = .ok value) :
    value.Proper := by
  unfold readTo at h
  dsimp only at h
  split at h
  · cases h
  · rename_i hvalue
    split at h
    · cases h
      exact (reads _).value hvalue
    · cases h

end Parley.Json

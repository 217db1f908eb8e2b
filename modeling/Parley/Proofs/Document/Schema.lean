import Parley.Proofs.Document.Parts
import Parley.Text.Half

/-! The schema of compiled dialogs.

A schema is put together from keywords. Most of them say something of the values of one kind, and nothing of any
other: what is no string is not too short. `dialogSchema` is the schema that compiled dialogs come with, and the shape
that is asked of a document is the same (`dialogSchema_eq`). -/
namespace Parley

/-- The significand of a finite number with its sign. -/
def Binary64.signed (x : Binary64) : Int := if x.negative then -(x.significand : Int) else x.significand

/-- Whether a number is less than an integer. What is not a number is less than none. -/
def Binary64.below (x : Binary64) (bound : Int) : Bool :=
  if x.isNaN then false
  else if x.isFinite then x.signed * Nat.pow 2 x.unit.toNat < bound * Nat.pow 2 (-x.unit).toNat
  else x.negative

namespace Document

/-- What a schema says of a value. -/
abbrev Schema : Type := Json → Bool

namespace Schema

/-! ### Keywords -/

/-- The kinds that a schema can ask for. -/
inductive Kind where
  | string
  | integer
  | boolean
  | null
  | array
  | object

/-- An integral number is an integer, and a truth value is none. -/
def Kind.covers : Kind → Json → Bool
  | string, .str _ => true
  | integer, .int _ => true
  | integer, .real x => x.toInt?.isSome
  | boolean, .bool _ => true
  | null, .null => true
  | array, .arr _ => true
  | object, .obj _ => true
  | _, _ => false

def type (kinds : List Kind) : Schema := fun value => kinds.any (·.covers value)

/-- A lone half counts as a character. -/
def minLength (n : Nat) : Schema
  | .str s => n ≤ (Text.codes s.toList).length
  | _ => true

def minItems (n : Nat) : Schema
  | .arr items => n ≤ items.length
  | _ => true

def minimum (bound : Int) : Schema
  | .int n => bound ≤ n
  | .real x => !x.below bound
  | _ => true

/-- One of some strings. -/
def enum (texts : List String) : Schema
  | .str s => texts.contains s
  | _ => false

def const (text : String) : Schema := enum [text]

def items (item : Schema) : Schema
  | .arr items => items.all item
  | _ => true

def required (keys : List String) : Schema
  | .obj fields => keys.all fun key => fields.any (·.1 = key)
  | _ => true

/-- The value of each field has the schema of its key, or that of all other keys. -/
def properties (own : List (String × Schema)) (others : Schema) : Schema
  | .obj fields => fields.all fun field => (own.lookup field.1).getD others field.2
  | _ => true

/-- Exactly one of some schemas. -/
def oneOf (schemas : List Schema) : Schema := fun value => schemas.countP (· value) == 1

/-- What several keywords say together. -/
def all (keywords : List Schema) : Schema := fun value => keywords.all (· value)

/-- The schema of no value. -/
def never : Schema := fun _ => false

/-- Objects with some keys, and no other fields than those that have a schema. -/
def object (keys : List String) (own : List (String × Schema)) : Schema :=
  all [type [.object], required keys, properties own never]

end Schema

section Dialogs

open Schema

/-! ### The schema -/

def targetSchema : Schema := all [type [.integer, .null], minimum 0]

def setSchema : Schema :=
  object ["kind", "variable_name", "value"]
    [("kind", const "set"), ("variable_name", all [type [.string], minLength 1]), ("value", type [.boolean])]

def commandSchema : Schema :=
  object ["kind", "func_name"]
    [("kind", const "command"), ("func_name", all [type [.string], minLength 1]),
      ("args", all [type [.array], items (type [.string])])]

def tagSchema : Schema := object ["name", "value"] [("name", type [.string]), ("value", type [.string])]

def speechSchema : Schema :=
  object ["kind", "text"]
    [("kind", const "dialog"), ("speaker", type [.string]), ("text", type [.string]),
      ("tags", all [type [.array], items tagSchema])]

def jumpSchema : Schema :=
  object ["kind", "node_title"]
    [("kind", const "jump"), ("node_title", all [type [.string], minLength 1]), ("target_index", targetSchema)]

def guardSchema : Schema :=
  object ["variable_name", "kind", "value"]
    [("variable_name", all [type [.string], minLength 1]), ("kind", enum ["==", "!="]), ("value", type [.boolean])]

def choiceSchema : Schema :=
  object ["text", "jump_to_node_title"]
    [("text", type [.string]), ("jump_to_node_title", all [type [.string], minLength 1]),
      ("target_index", targetSchema), ("condition", oneOf [type [.null], guardSchema])]

def menuSchema : Schema :=
  object ["kind", "possibilities"]
    [("kind", const "option"), ("speaker", type [.string]),
      ("possibilities", all [type [.array], minItems 1, items choiceSchema])]

def lineSchema : Schema := oneOf [setSchema, commandSchema, speechSchema, jumpSchema, menuSchema]

def nodeSchema : Schema :=
  object ["title", "lines"]
    [("title", all [type [.string], minLength 1]),
      ("headers", all [type [.object], properties [] (type [.string])]),
      ("line_number", all [type [.integer], minimum 0]),
      ("lines", all [type [.array], minItems 1, items lineSchema])]

/-- The schema of a compiled dialog. -/
def dialogSchema : Schema :=
  object ["id", "nodes"] [("id", type [.string]), ("nodes", all [type [.array], minItems 1, items nodeSchema])]

end Dialogs

/-! ### Numbers -/

theorem not_isNaN_of_isFinite {x : Binary64} (h : x.isFinite = true) : x.isNaN = false := by
  have hexponent : (x.exponent == 2047) = false := by simpa [Binary64.isFinite] using h
  rw [Binary64.isNaN, hexponent, Bool.false_and]

/-- The integer that a number is, counted in units as its significand is. -/
theorem signed_of_toInt? {x : Binary64} {n : Int} (h : x.toInt? = some n) :
    x.isFinite = true ∧ x.signed * Nat.pow 2 x.unit.toNat = n * Nat.pow 2 (-x.unit).toNat := by
  unfold Binary64.toInt? at h
  split at h
  · rename_i hfinite
    refine ⟨hfinite, ?_⟩
    obtain ⟨magnitude, hmagnitude, hn⟩ := Option.map_eq_some_iff.mp h
    have hsigned : (x.significand : Int) * Nat.pow 2 x.unit.toNat = magnitude * Nat.pow 2 (-x.unit).toNat := by
      split at hmagnitude
      · rename_i hunit
        have habs : x.unit.natAbs = x.unit.toNat := by omega
        have hnone : (-x.unit).toNat = 0 := by omega
        cases hmagnitude
        rw [habs, hnone, Int.natCast_mul]
        exact (Int.mul_one _).symm
      · split at hmagnitude
        · rename_i hunit hmod
          have habs : x.unit.natAbs = (-x.unit).toNat := by omega
          have hnone : x.unit.toNat = 0 := by omega
          cases hmagnitude
          rw [habs] at hmod ⊢
          rw [hnone, ← Int.natCast_mul (_ / _), Nat.div_mul_cancel (Nat.dvd_of_mod_eq_zero hmod)]
          exact Int.mul_one _
        · cases hmagnitude
    rw [← hn, Binary64.signed]
    split
    · rw [Int.neg_mul, Int.neg_mul, hsigned]
    · exact hsigned
  · cases h

/-- An integral number is less than an integer exactly if the integer that it is is less. -/
theorem below_of_toInt? {x : Binary64} {n : Int} (h : x.toInt? = some n) (bound : Int) :
    x.below bound = decide (n < bound) := by
  obtain ⟨hfinite, hsigned⟩ := signed_of_toInt? h
  have hpos : (0 : Int) < Nat.pow 2 (-x.unit).toNat := Int.natCast_pos.mpr (Nat.pow_pos (by decide))
  rw [Binary64.below, not_isNaN_of_isFinite hfinite, hfinite, hsigned, if_neg Bool.false_ne_true, if_pos rfl]
  rw [decide_eq_decide]
  exact Int.mul_lt_mul_right hpos

/-! ### Keywords and shapes -/

theorem codes_ne_nil_iff {s : List Char} : Text.codes s ≠ [] ↔ s ≠ [] := by
  unfold Text.codes
  split
  · simp
  · simp
  · split <;> simp

theorem type_string : Schema.type [.string] = Shape.string := by
  funext value
  cases value <;> rfl

theorem type_boolean : Schema.type [.boolean] = Shape.bool := by
  funext value
  cases value <;> rfl

theorem type_null : Schema.type [.null] = Shape.null := by
  funext value
  cases value <;> rfl

theorem enum_eq (texts : List String) : Schema.enum texts = Shape.oneOf texts := by
  funext value
  cases value <;> rfl

theorem name_eq : Schema.all [.type [.string], .minLength 1] = Shape.name := by
  funext value
  cases value with
  | str s =>
    have hlength : 1 ≤ (Text.codes s.toList).length ↔ s ≠ "" := by
      rw [Nat.one_le_iff_ne_zero, ← Nat.pos_iff_ne_zero, List.length_pos_iff, codes_ne_nil_iff, Ne,
        String.toList_eq_nil_iff]
    rw [Bool.eq_iff_iff]
    simp [Schema.all, Schema.type, Schema.Kind.covers, Schema.minLength, Shape.name, hlength]
  | _ => rfl

/-- An integer that is not below zero. -/
theorem minimum_real {x : Binary64} {n : Int} (h : x.toInt? = some n) (bound : Int) :
    Schema.minimum bound (.real x) = decide (bound ≤ n) := by
  rw [Schema.minimum, below_of_toInt? h, ← decide_not]
  simp

theorem natural_eq : Schema.all [.type [.integer], .minimum 0] = Shape.natural := by
  funext value
  cases value with
  | real x =>
    cases h : x.toInt? <;> simp [Schema.all, Schema.type, Schema.Kind.covers, Shape.natural, minimum_real, h]
  | int n => simp [Schema.all, Schema.type, Schema.Kind.covers, Schema.minimum, Shape.natural]
  | _ => rfl

theorem targetSchema_eq : targetSchema = targetShape := by
  funext value
  cases value with
  | real x =>
    cases h : x.toInt? <;>
      simp [targetSchema, Schema.all, Schema.type, Schema.Kind.covers, targetShape, Shape.either, Shape.natural,
        Shape.null, Json.isNull, minimum_real, h]
  | int n =>
    simp [targetSchema, Schema.all, Schema.type, Schema.Kind.covers, Schema.minimum, targetShape, Shape.either,
      Shape.natural, Shape.null, Json.isNull]
  | _ => rfl

theorem array_eq (item : Shape) : Schema.all [.type [.array], .items item] = Shape.array item := by
  funext value
  cases value <;> simp [Schema.all, Schema.type, Schema.Kind.covers, Schema.items, Shape.array]

theorem row_eq (item : Shape) : Schema.all [.type [.array], .minItems 1, .items item] = Shape.row item := by
  funext value
  cases value with
  | arr items =>
    cases items <;> simp [Schema.all, Schema.type, Schema.Kind.covers, Schema.minItems, Schema.items, Shape.row]
  | _ => rfl

theorem map_eq (item : Shape) : Schema.all [.type [.object], .properties [] item] = Shape.map item := by
  funext value
  cases value <;> simp [Schema.all, Schema.type, Schema.Kind.covers, Schema.properties, Shape.map]

/-- A key that stands once among some has the schema that stands with it. -/
theorem lookup_eq_any {own : List (String × Schema)} (distinct : (own.map Prod.fst).Nodup) (key : String)
    (value : Json) :
    (own.lookup key).getD .never value = own.any fun part => part.1 = key && part.2 value := by
  induction own with
  | nil => rfl
  | cons part rest ih =>
    obtain ⟨hnew, hrest⟩ := List.nodup_cons.mp distinct
    rw [List.lookup_cons, List.any_cons]
    by_cases hkey : key = part.1
    · subst hkey
      have hnone : rest.any (fun other => other.1 = part.1 && other.2 value) = false := by
        rw [List.any_eq_false]
        intro other hother h
        have hsame : other.1 = part.1 := of_decide_eq_true (Bool.and_eq_true_iff.mp h).1
        exact hnew (hsame ▸ List.mem_map_of_mem hother)
      simp [hnone]
    · have hkey' : part.1 ≠ key := Ne.symm hkey
      have hbeq : (key == part.1) = false := beq_false_of_ne hkey
      simp [hkey', hbeq, ih hrest]

/-- An object is a record of the fields that have a schema, in whatever order these are given. -/
theorem object_eq {keys : List String} {own required optional : List (String × Schema)}
    (distinct : (own.map Prod.fst).Nodup) (hkeys : required.map Prod.fst = keys)
    (hown : ∀ part, part ∈ own ↔ part ∈ required ++ optional) :
    Schema.object keys own = Shape.record required optional := by
  funext value
  cases value with
  | obj fields =>
    have hany : ∀ field : String × Json, (own.any fun part => part.1 = field.1 && part.2 field.2) =
        (required ++ optional).any fun part => part.1 = field.1 && part.2 field.2 := by
      intro field
      rw [Bool.eq_iff_iff, List.any_eq_true, List.any_eq_true]
      simp only [hown]
    subst hkeys
    simp [Schema.object, Schema.all, Schema.type, Schema.Kind.covers, Schema.required, Schema.properties, Shape.record,
      lookup_eq_any distinct, hany, List.all_map, Function.comp_def]
  | _ => rfl

/-- Of schemas that exclude each other, a value has exactly one if it has any. -/
theorem oneOf_eq {schemas : List Schema}
    (exclusive : schemas.Pairwise fun one other => ∀ value, one value = true → other value = false) :
    Schema.oneOf schemas = Shape.either schemas := by
  funext value
  rw [Schema.oneOf, Shape.either]
  induction schemas with
  | nil => rfl
  | cons schema rest ih =>
    obtain ⟨hfirst, hrest⟩ := List.pairwise_cons.mp exclusive
    rw [List.countP_cons, List.any_cons]
    cases hvalue : schema value with
    | false => simpa using ih hrest
    | true =>
      have hnone : rest.countP (· value) = 0 := by
        rw [List.countP_eq_zero]
        intro other hother
        simp [hfirst other hother value hvalue]
      simp [hnone]

/-! ### The schema and the shape -/

theorem tagSchema_eq : tagSchema = tagShape := by
  unfold tagSchema tagShape
  rw [type_string]
  exact object_eq (by decide) rfl (by simp)

theorem guardSchema_eq : guardSchema = guardShape := by
  unfold guardSchema guardShape
  rw [name_eq, type_boolean, enum_eq]
  exact object_eq (by decide) rfl (by simp)

/-- A record is an object. -/
theorem not_record_of_null {required optional : List (String × Shape)} {value : Json}
    (h : Shape.null value = true) : Shape.record required optional value = false := by
  cases value with
  | null => rfl
  | _ => cases h

theorem choiceSchema_eq : choiceSchema = choiceShape := by
  have hguard : Schema.oneOf [Shape.null, guardShape] = Shape.either [Shape.null, guardShape] := by
    refine oneOf_eq (List.pairwise_pair.mpr fun value hnull => ?_)
    exact not_record_of_null hnull
  unfold choiceSchema choiceShape
  rw [name_eq, type_string, type_null, targetSchema_eq, guardSchema_eq, hguard]
  exact object_eq (by decide) rfl (by simp)

/-- The schema of a line is that of the record of its kind. -/
theorem lineSchemas_eq : [setSchema, commandSchema, speechSchema, jumpSchema, menuSchema] =
    lineRecords.map fun line => Shape.record (("kind", Shape.oneOf [line.1]) :: line.2.1) line.2.2 := by
  unfold setSchema commandSchema speechSchema jumpSchema menuSchema Schema.const
  rw [name_eq, type_string, type_boolean, targetSchema_eq, tagSchema_eq, choiceSchema_eq, array_eq, array_eq, row_eq]
  simp only [enum_eq, lineRecords, List.map_cons, List.map_nil, List.cons.injEq, and_true]
  refine ⟨?set, ?command, ?speech, ?jump, ?menu⟩
  case speech => exact object_eq (by decide) rfl fun part => by simp [or_left_comm]
  case menu => exact object_eq (by decide) rfl fun part => by simp [or_comm]
  all_goals exact object_eq (by decide) rfl fun part => by simp

/-- No line is of two kinds. -/
theorem lineSchema_eq : lineSchema = lineShape := by
  rw [lineSchema, lineSchemas_eq, lineShape_eq]
  refine oneOf_eq (List.pairwise_map.mpr ?_)
  have hkinds : lineRecords.Pairwise fun one other => one.1 ≠ other.1 := by decide
  refine hkinds.imp_of_mem fun {one other} hone hother hne value shape => ?_
  rw [Bool.eq_false_iff]
  intro hshape
  have hkind := (Recorded.mk shape (nodup_lineRecords one hone)).kind List.mem_cons_self
  have hkind' := (Recorded.mk hshape (nodup_lineRecords other hother)).kind List.mem_cons_self
  exact hne (by simpa [hkind] using hkind')

theorem nodeSchema_eq : nodeSchema = nodeShape := by
  unfold nodeSchema nodeShape
  rw [name_eq, type_string, map_eq, natural_eq, lineSchema_eq, row_eq]
  exact object_eq (by decide) rfl fun part => by simp [or_assoc, or_comm]

/-- The shape of a dialog is its schema. -/
theorem dialogSchema_eq : dialogSchema = dialogShape := by
  unfold dialogSchema dialogShape
  rw [type_string, nodeSchema_eq, row_eq]
  exact object_eq (by decide) rfl (by simp)

end Document

end Parley

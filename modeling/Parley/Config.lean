import Parley.Text.Quoted

/-! How dialogs are loaded and played. -/
namespace Parley

/-- The choices a host makes. -/
structure Config where
  startNode : String := "Start"
  scriptExtension : String := ".yarn"
  compiledExtension : String := ".json"
  /-- Whether a runner is refused when a command of its dialog has no handler. -/
  checkCommands : Bool := false
  /-- How many lines that show nothing one step may go through. -/
  maxControlSteps : Int := 10000
  /-- Whether nodes that cannot be reached are reported. -/
  warnUnreachable : Bool := true
  deriving DecidableEq, Repr

/-- A configuration in one line. -/
def Config.summary (config : Config) : String :=
  let checked := if config.checkCommands then "True" else "False"
  s!"DialogConfig(start_node={Text.quote config.startNode}, check_commands={checked}, " ++
    s!"max_control_steps={config.maxControlSteps})"

end Parley

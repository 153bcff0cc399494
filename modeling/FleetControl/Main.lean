import FleetControl.Options
import FleetControl.Startup

/-!
# The controller's command line

Reads the options and the files that they name, and reports whether a controller can start.
-/
namespace FleetControl.CommandLine

/-- The content of a file, or `none` if it cannot be read. -/
def contentOf (path : String) : IO Listener.File := do
  try
    return some (← IO.FS.readBinFile path)
  catch _ =>
    return none

/-- The configuration file as the loader wants it. -/
def sourceOf (path : String) : IO Config.Source := do
  try
    return .bytes (← IO.FS.readBinFile path)
  catch
    | .noFileOrDirectory .. => return .absent
    | e => return .unreadable (toString e)

/-- Prints a failure. -/
def giveUp (message : String) : IO UInt32 := do
  IO.eprintln message
  return 1

/-- Starts from a command line. -/
def run (args : List String) : IO UInt32 := do
  match Options.parse args with
  | .error e => giveUp e.message
  | .ok options =>
    let home := (← IO.getEnv "HOME").getD "/"
    let source ← sourceOf (Config.expandHome home options.configPath)
    match Config.load source options.overrides home with
    | .error e => giveUp (StartupError.config e).message
    | .ok config =>
      let cert ← config.certPath.mapM contentOf
      let key ← config.keyPath.mapM contentOf
      match Startup.prepare config cert key with
      | .error e => giveUp e.message
      | .ok startup =>
        startup.report.forM IO.println
        return 0

end FleetControl.CommandLine

/-- Starts from the command line of the process. -/
def main (args : List String) : IO UInt32 := FleetControl.CommandLine.run args

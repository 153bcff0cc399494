import FleetControl.Error
import FleetControl.Json.Value

/-!
# Replies

What a command comes to: the device's JSON result and any binary body, or a failure.
-/
namespace FleetControl

/-- The device's answer to a command. -/
structure Reply where
  result : Json := .null
  body : Option ByteArray := none

instance : Inhabited Reply := ⟨{}⟩

namespace Reply

/-- The exit code that a shell command reports. -/
def exitCode? (r : Reply) : Option Int := (r.result.get? "exit").bind Json.asInt64?

end Reply

/-- The final outcome of a command. -/
abbrev CommandOutcome := Outcome Reply

end FleetControl

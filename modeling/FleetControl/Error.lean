/-!
# Causes of failure

Why an operation on the device channel fails, with the wording of each cause in one function.
-/
namespace FleetControl

/-- A failure of the device channel. -/
inductive ChannelError where
  | auth (reason : String)
  | invalidMessage (reason : String)
  | unknownDevice (device : String)
  | timeout (device command : String) (secs : Nat)
  | connectionClosed (device command : String)
  | deviceUnreachable (device : String)
  | device (device command message : String)
  | transport (reason : String)
  | decode (reason : String)
  | store (reason : String)
  | alreadyResolved
  | config (reason : String)
  | io (reason : String)
  | json (reason : String)
  | other (reason : String)
  deriving DecidableEq, Repr

namespace ChannelError

/-- The wording of a failure. -/
def message : ChannelError → String
  | auth reason => "authentication failed: " ++ reason
  | invalidMessage reason => "invalid message: " ++ reason
  | unknownDevice id => "unknown device: " ++ id
  | timeout id command secs =>
    "device " ++ id ++ ": " ++ command ++ " timed out after " ++ toString secs ++ "s"
  | connectionClosed id command =>
    "device " ++ id ++ ": connection closed before " ++ command ++ " completed"
  | deviceUnreachable id => "device " ++ id ++ ": channel required but no live connection"
  | device id command text => "device " ++ id ++ ": " ++ command ++ " failed: " ++ text
  | transport reason => "transport error: " ++ reason
  | decode reason => "decode error: " ++ reason
  | store reason => "store error: " ++ reason
  | alreadyResolved => "completion already resolved"
  | config reason => "config error: " ++ reason
  | io reason => "io error: " ++ reason
  | json reason => "json error: " ++ reason
  | other reason => reason

end ChannelError

/-- The result of an operation that may fail on the channel. -/
abbrev Outcome (α : Type) := Except ChannelError α

end FleetControl

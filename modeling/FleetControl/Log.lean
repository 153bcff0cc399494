import FleetControl.Message.Device
import FleetControl.Text.Lines

/-!
# Device log

What a device printed and what the controller did to it, line by line.
-/
namespace FleetControl

/-- A line of the log of a device. -/
inductive LogEntry where
  | action (device line : String)
  | output (device : String) (stream : OutputStream) (line : String)
  deriving DecidableEq

/-- The lines of a piece of output. -/
def LogEntry.lines (device : String) (stream : OutputStream) (data : String) : List LogEntry :=
  (Lines.split data).map (.output device stream)

end FleetControl

import FleetControl.Handshake
import FleetControl.Net.Address

/-!
# Sockets

One device connection as the network shows it: what the device has sent and the server has not
read yet, and what the server has sent.
-/
namespace FleetControl

/-- Why a server closes a connection, with its code. -/
structure CloseReason where
  code : Nat
  text : String
  deriving DecidableEq, Repr

namespace CloseReason

/-- The connection limit is reached. -/
def busy : CloseReason := ⟨1013, "server busy"⟩

/-- The address has failed too many handshakes. -/
def rateLimited : CloseReason := ⟨1008, "rate limited"⟩

/-- The handshake was refused. -/
def handshakeFailed : CloseReason := ⟨1008, "handshake failed"⟩

/-- The connection could not be recorded. -/
def presenceUnavailable : CloseReason := ⟨1013, "presence unavailable"⟩

/-- The device was silent for too long. -/
def idle : CloseReason := ⟨1000, "idle timeout"⟩

/-- The device sent something that is not acceptable. -/
def invalidMessage : CloseReason := ⟨1008, "invalid message"⟩

end CloseReason

/-- What a server sends. -/
inductive Frame where
  | text (raw : String)
  | binary (data : ByteArray)
  | pong (data : ByteArray)
  | close (reason : CloseReason)
  /-- The connection ends without a close frame. -/
  | ended

/-- The two directions of a connection. -/
structure Socket where
  process : Nat
  address : Address
  inbound : List Incoming := []
  /-- What the device receives, oldest first. -/
  outbound : List Frame := []
  /-- Everything sent to the device fails. -/
  deaf : Bool := false
  /-- The device takes nothing for now. -/
  stalled : Bool := false
  /-- The server is done with the connection. -/
  finished : Bool := false

namespace Socket

/-- The largest message that is accepted from a device. -/
def maxMessage : Nat := 16 * 1024 * 1024

/-- Whether a message is accepted. -/
def fits : Incoming → Bool
  | .text raw => raw.utf8ByteSize ≤ maxMessage
  | .binary data => data.size ≤ maxMessage
  | _ => true

/-- The device sends a message; says whether it could. Too large a one breaks the connection before
all of it is sent. -/
def arrive (s : Socket) (m : Incoming) : Socket × Bool :=
  if s.finished then (s, false)
  else if fits m then ({ s with inbound := s.inbound ++ [m] }, true)
  else ({ s with inbound := s.inbound ++ [.failed "message too long"] }, false)

/-- From now on everything sent to the device fails. -/
def deafen (s : Socket) : Socket := { s with deaf := true }

/-- From now on the device takes nothing, until it resumes. -/
def stall (s : Socket) : Socket := { s with stalled := true }

/-- The device takes what is sent to it again. -/
def resume (s : Socket) : Socket := { s with stalled := false }

/-- Whether a frame has to wait before it can be sent or fails. Only the frames of commands and the
close frames of sockets that are turned away and of sessions that end wait; the others find room in
the buffers of the connection. -/
def blocked (s : Socket) : Bool := s.stalled && !s.deaf && !s.finished

/-- Sends a frame; says whether that worked. -/
def send (s : Socket) (f : Frame) : Socket × Bool :=
  if s.deaf || s.finished then (s, false) else ({ s with outbound := s.outbound ++ [f] }, true)

/-- Ends the connection. The device learns of it unless a close frame told it before. -/
def finish (s : Socket) (closed : Bool) : Socket :=
  if s.deaf || closed then { s with finished := true }
  else { s with finished := true, outbound := s.outbound ++ [.ended] }

end Socket

end FleetControl

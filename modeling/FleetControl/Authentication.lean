import FleetControl.Handshake

/-!
# Authenticating a socket

The handshake over a stream of arrivals. Each message must come within the hello limit, counted
from the moment at which it is first waited for; pings do not extend the limit, and an arrival due
at the very end of the limit counts. A reply that cannot be sent ends the handshake.
-/
namespace FleetControl.Authentication

/-- An arrival, with the milliseconds after which it comes once the receiver waits for it. -/
structure Arrival where
  after : Nat
  incoming : Incoming

/-- The surroundings of one handshake. -/
structure Setting where
  directory : DirectoryService
  challenge : String
  /-- The time allowed per message. -/
  limit : Nat
  /-- Whether the socket stays silent behind the last arrival; otherwise it ends. -/
  silentEnd : Bool
  /-- Whether the send with a number fails. -/
  sendFails : Nat → Bool

/-- How a handshake went. -/
structure Report where
  state : HandshakeState
  sent : List String
  elapsed : Nat
  result : Outcome DeviceRecord

/-- The failure of a send. -/
def sendFailure : ChannelError := .transport "WS send failed: closed"

/-- Runs the rest of a handshake. `waited` is the time spent on the current message so far. -/
def run (setting : Setting) (state : HandshakeState) (sent : List String) (elapsed waited : Nat) :
    List Arrival → Report
  | [] =>
    if setting.silentEnd then
      let (final, e) := Handshake.onSilence state setting.limit
      ⟨final, sent, elapsed + (setting.limit - waited), .error e⟩
    else ⟨.closed, sent, elapsed, .error (.transport "socket closed during handshake")⟩
  | a :: rest =>
    if waited + a.after > setting.limit then
      let (final, e) := Handshake.onSilence state setting.limit
      ⟨final, sent, elapsed + (setting.limit - waited), .error e⟩
    else
      let elapsed := elapsed + a.after
      match Handshake.onIncoming setting.directory setting.challenge state a.incoming with
      | (state, .skip) => run setting state sent elapsed (waited + a.after) rest
      | (state, .refuse e) => ⟨state, sent, elapsed, .error e⟩
      | (state, .proceed text) =>
        if setting.sendFails sent.length then ⟨state, sent, elapsed, .error sendFailure⟩
        else run setting state (sent ++ [text]) elapsed 0 rest
      | (state, .accepted device text) =>
        if setting.sendFails sent.length then ⟨state, sent, elapsed, .error sendFailure⟩
        else ⟨state, sent ++ [text], elapsed, .ok device⟩

/-- Runs a handshake from the accepted socket on. -/
def authenticate (setting : Setting) (state : HandshakeState) (arrivals : List Arrival) : Report :=
  run setting (Handshake.accept state) [] 0 0 arrivals

end FleetControl.Authentication

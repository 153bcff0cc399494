import FleetControl.Credential
import FleetControl.Device.Lookup
import FleetControl.Envelope
import FleetControl.Message.Control
import FleetControl.Text.Duration

/-!
# The handshake

A device names itself by its API key, is challenged, proves that it knows the shared secret, and
is accepted. The machine is independent of the transport: it takes message texts and says what to
send. Every error leaves it closed, and nothing succeeds from there. The challenge is an input; it
is used up by the one `hello` that is accepted.
-/
namespace FleetControl

/-- The stages of one connection. -/
inductive HandshakeState where
  | connected
  | awaitingHello
  | awaitingHandshake (device : DeviceRecord) (challenge : String)
  | authenticated (device : DeviceRecord)
  | active
  | closed
  deriving DecidableEq

namespace HandshakeState

/-- The name of a stage. -/
def name : HandshakeState → String
  | connected => "connected"
  | awaitingHello => "awaiting_hello"
  | awaitingHandshake _ _ => "awaiting_handshake"
  | authenticated _ => "authenticated"
  | active => "active"
  | closed => "closed"

/-- The message that a stage waits for. -/
def expectation : HandshakeState → String
  | awaitingHandshake _ _ => "handshake"
  | _ => "hello"

end HandshakeState

/-- What to do after an accepted message. -/
inductive HandshakeStep where
  /-- Send the reply and wait for the next message. -/
  | reply (message : ControlMessage)
  /-- Send the reply; the device is authenticated. -/
  | done (device : DeviceRecord) (message : ControlMessage)

namespace Handshake

/-- The socket is accepted; `hello` must come first. -/
def accept : HandshakeState → HandshakeState
  | .connected => .awaitingHello
  | s => s

/-- The session starts, from the authenticated stage only. -/
def activate : HandshakeState → HandshakeState × Outcome DeviceRecord
  | .authenticated device => (.active, .ok device)
  | s => (s, .error (.other ("cannot activate from " ++ s.name)))

/-- Accepts a `hello` if its key has an owner, and challenges the owner. -/
def onHello (directory : DirectoryService) (challenge key : String) :
    HandshakeState × Outcome HandshakeStep :=
  if key = "" then (.closed, .error (.auth "missing device api key"))
  else
    match directory.byApiKey key with
    | .error e => (.closed, .error e)
    | .ok none =>
      (.closed, .error (.auth ("unknown api key " ++ Credential.fingerprint key)))
    | .ok (some device) =>
      (.awaitingHandshake device challenge, .ok (.reply (.challenge challenge)))

/-- Accepts a proof if the device still has the key that it named and the proof fits. -/
def onProof (directory : DirectoryService) (device : DeviceRecord) (challenge mac : String) :
    HandshakeState × Outcome HandshakeStep :=
  match directory.get device.deviceId with
  | .error e => (.closed, .error e)
  | .ok none => (.closed, .error (.auth ("device " ++ device.deviceId ++ " vanished")))
  | .ok (some current) =>
    if current.keyVersion ≠ device.keyVersion ∨ current.apiKey ≠ device.apiKey then
      (.closed,
        .error (.auth ("device " ++ device.deviceId ++ " key rotated during handshake")))
    else
      match verifyChallenge current.apiKey challenge current.sharedSecret mac with
      | .error e => (.closed, .error e)
      | .ok () => (.authenticated current, .ok (.done current .handshakeOk))

/-- A message that the stage does not wait for. -/
def unexpected (s : HandshakeState) (m : ControlMessage) : ChannelError :=
  .invalidMessage ("unexpected " ++ m.action ++ " in state " ++ s.name)

/-- Feeds one message text. -/
def onText (directory : DirectoryService) (challenge : String) (s : HandshakeState)
    (raw : String) : HandshakeState × Outcome HandshakeStep :=
  match ControlMessage.parse? raw with
  | none => (.closed, .error (.invalidMessage "not a handshake message"))
  | some message =>
    match s, message with
    | .awaitingHello, .hello key => onHello directory challenge key
    | .awaitingHandshake device issued, .handshake mac => onProof directory device issued mac
    | s, message => (.closed, .error (unexpected s message))

theorem activate_error (s : HandshakeState) (e : ChannelError)
    (h : (activate s).2 = .error e) : (activate s).1 = s := by
  cases s <;> simp_all [activate]

end Handshake

/-- What arrives on a socket. -/
inductive Incoming where
  | text (raw : String)
  | binary (data : ByteArray)
  /-- A ping; it is answered, and never reaches the session. -/
  | ping (data : ByteArray)
  | pong
  | closed
  | failed (reason : String)

namespace Handshake

/-- What to do with an arrival during the handshake. -/
inductive Verdict where
  /-- Nothing happened; keep waiting within the same limit. -/
  | skip
  /-- Send the text and wait for the next message. -/
  | proceed (text : String)
  /-- Send the text; the device is authenticated. -/
  | accepted (device : DeviceRecord) (text : String)
  /-- The handshake is over. -/
  | refuse (error : ChannelError)

/-- Takes one arrival during the handshake. -/
def onIncoming (directory : DirectoryService) (challenge : String) (s : HandshakeState) :
    Incoming → HandshakeState × Verdict
  | .ping _ => (s, .skip)
  | .pong => (s, .skip)
  | .text raw =>
    match onText directory challenge s raw with
    | (s, .error e) => (s, .refuse e)
    | (s, .ok (.reply m)) => (s, .proceed m.text)
    | (s, .ok (.done device m)) => (s, .accepted device m.text)
  | .binary _ => (.closed, .refuse (.invalidMessage "binary frame during handshake"))
  | .closed => (.closed, .refuse (.transport "socket closed during handshake"))
  | .failed reason => (s, .refuse (.transport ("WS recv failed: " ++ reason)))

/-- The awaited message did not come in time. -/
def onSilence (s : HandshakeState) (limit : Nat) : HandshakeState × ChannelError :=
  (.closed, .auth ("no " ++ s.expectation ++ " within " ++ Duration.text limit))

end Handshake

end FleetControl

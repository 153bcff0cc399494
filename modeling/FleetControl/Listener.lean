import FleetControl.Error
import FleetControl.Net.Address
import FleetControl.Net.Pem
import FleetControl.Text.Utf8

/-!
# Listening

What is checked before a controller listens: its bind address, the certificate and key files if
both are configured, and whether the host has the address. TLS itself is not part of this library,
so a certificate with a key is refused in the end.
-/
namespace FleetControl

/-- The only path on which devices may open a channel. -/
def agentPath : String := "/ws/agent"

namespace Listener

/-- A configured file: its content, or `none` if it cannot be read. -/
abbrev File := Option ByteArray

/-- Checks the files of a certificate and its key. -/
def checkTls (cert key : File) : Outcome Unit :=
  match cert, key with
  | none, _ => .error (.config "cannot read cert file")
  | some _, none => .error (.config "cannot read key file")
  | some cert, some key =>
    match Pem.check (Utf8.lossy cert), Pem.has .privateKey (Utf8.lossy key) with
    | .error _, _ => .error (.config "bad certificate PEM: not readable")
    | .ok _, .error _ => .error (.config "bad key PEM: not readable")
    | .ok _, .ok true => .error (.config "tls certificate: not supported")
    | .ok _, .ok false => .error (.config "no private key found in PEM")

/-- Whether a host can listen on an address. -/
abbrev Host := Address → Bool

/-- A host that has every address. -/
def Host.any : Host := fun _ => true

/-- A host without a network. IPv4 addresses are not checked there; of IPv6 it has only the
unspecified address and those that stand for IPv4. -/
def Host.isolated : Host
  | .v4 _ => true
  | .v6 groups => groups.all (· == 0) || groups.take 6 == [0, 0, 0, 0, 0, 0xffff]

/-- The address to listen on. Files count only if both are configured. -/
def prepare (host : Host) (bind : String) (port : Nat) (cert key : Option File) :
    Outcome (Address × Nat) := do
  match Address.socket? (bind ++ ":" ++ toString port) with
  | none => .error (.config "invalid bind address: not an address with a port")
  | some socket =>
    match cert, key with
    | some cert, some key => checkTls cert key
    | _, _ => pure ()
    if host socket.1 then pure socket
    else .error (.transport "WS bind failed: address not available")

end Listener

end FleetControl

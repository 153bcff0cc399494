import FleetControl.Digest.Sha256
import FleetControl.Text.Hex

/-!
# Credentials

Log-safe fingerprints of credentials, and the text of generated ones. The entropy itself is an
input: whoever runs the program supplies it.
-/
namespace FleetControl.Credential

/-- A short digest of a credential that is safe to show. -/
def fingerprint (value : String) : String :=
  Hex.encode ((Sha256.digest value.toUTF8).extract 0 6)

/-- The text of 32 bytes of entropy: a challenge or a generated key. -/
def ofEntropy (bytes : ByteArray) : String := Hex.encode (bytes.extract 0 32)

end FleetControl.Credential

import FleetControl.Digest.Sha256
import FleetControl.Text.Hex

/-!
# Keyed digests

HMAC over SHA-256, and the lowercase hexadecimal text in which tags travel.
-/
namespace FleetControl.Hmac

/-- The 64-byte key: a longer one is digested, a shorter one padded with zeros. -/
def blockKey (key : ByteArray) : ByteArray :=
  let short := if key.size > 64 then Sha256.digest key else key
  Sha256.zeros short (64 - short.size)

/-- Every byte combined with a mask. -/
def masked (key : ByteArray) (mask : UInt8) : ByteArray :=
  key.foldl (fun out b => out.push (b ^^^ mask)) ByteArray.empty

/-- The tag of a message under a key. -/
def tag (key message : ByteArray) : ByteArray :=
  let k := blockKey key
  Sha256.digest (masked k 0x5c ++ Sha256.digest (masked k 0x36 ++ message))

/-- The tag of a message under a secret text, in lowercase hexadecimal. -/
def hex (secret : String) (message : ByteArray) : String :=
  Hex.encode (tag secret.toUTF8 message)

end FleetControl.Hmac

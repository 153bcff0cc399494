import FleetControl.Digest.Hmac
import FleetControl.Error
import FleetControl.Json.Decode
import FleetControl.Json.Writer

/-!
# Signed envelopes

After the handshake every message travels in an envelope: a nonce, a payload, and a tag over both
under the shared secret. The tag covers the API key, the decimal nonce and the canonical form of
the payload, one behind the other. Opening fails closed: a payload that is not an object and a tag
in any but its one spelling are refused.
-/
namespace FleetControl

/-- A signed message. -/
structure Envelope where
  nonce : Int
  payload : Json
  mac : String

namespace Envelope

/-- The text that the tag covers. -/
def signingInput (apiKey : String) (nonce : Int) (payload : Json) : String :=
  apiKey ++ toString nonce ++ payload.canonical

/-- Signs a payload under a nonce. -/
def sign (payload : Json) (nonce : Int) (apiKey secret : String) : Envelope where
  nonce := nonce
  payload := payload
  mac := Hmac.hex secret (signingInput apiKey nonce payload).toUTF8

/-- The wire text: nonce, payload and tag in this order. -/
def text (e : Envelope) : String :=
  "\x7b\"nonce\":" ++ toString e.nonce ++ ",\"payload\":" ++ e.payload.compact ++ ",\"mac\":" ++
    Json.quoted e.mac ++ "\x7d"

/-- Checks a tag: only lowercase digits of its full length are read, and the bytes that they stand
for are compared with those of the message's tag. -/
def checkTag (secret : String) (message : ByteArray) (mac : String) : Outcome Unit :=
  if ¬ Hex.isDigest mac then .error (.auth "malformed mac")
  else
    match Hex.decode? mac with
    | none => .error (.auth "malformed mac")
    | some tag =>
      if (Hmac.tag secret.toUTF8 message).data = tag.data then .ok ()
      else .error (.auth "mac mismatch")

/-- Opens an envelope under the credentials of its sender. -/
def verify (e : Envelope) (apiKey secret : String) : Outcome Json := do
  if ¬ e.payload.isObject then throw (.auth "envelope payload is not an object")
  checkTag secret (signingInput apiKey e.nonce e.payload).toUTF8 e.mac
  pure e.payload

/-- Reads an envelope from a document. -/
def ofTree? (tree : Tree) : Option Envelope := do
  let depth ← Tree.inside Tree.nestingLimit
  match ← tree.parts? ["nonce", "payload", "mac"] with
  | [nonce, payload, mac] =>
    let nonce ← Tree.required Tree.asInt64? nonce
    let payload ← Tree.required (Tree.value? depth) payload
    let mac ← Tree.required Tree.asString? mac
    pure ⟨nonce, payload, mac⟩
  | _ => none

/-- Reads an envelope from its wire text. -/
def parse? (raw : String) : Option Envelope := (Tree.parse? raw).bind ofTree?

/-- Reads and opens a wire text; the nonce is returned for a `NonceTracker`. -/
def open? (raw apiKey secret : String) : Outcome (Int × Json) :=
  match parse? raw with
  | none => .error (.auth "bad envelope: not an envelope")
  | some e => (e.verify apiKey secret).map (e.nonce, ·)

end Envelope

/-- The device's proof that it knows the secret: the tag of API key and challenge. -/
def challengeMac (apiKey challenge secret : String) : String :=
  Hmac.hex secret (apiKey ++ challenge).toUTF8

/-- Checks a device's proof for a challenge. -/
def verifyChallenge (apiKey challenge secret mac : String) : Outcome Unit :=
  Envelope.checkTag secret (apiKey ++ challenge).toUTF8 mac

end FleetControl

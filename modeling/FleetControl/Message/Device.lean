import FleetControl.Error
import FleetControl.Json.Writer
import FleetControl.Uuid

/-!
# Messages of a device

The payloads that a device sends in envelopes, tagged by `type`, and what the controller reads out
of a reply.
-/
namespace FleetControl

/-- The output stream of a line. -/
inductive OutputStream where
  | stdout
  | stderr
  deriving DecidableEq, Repr

/-- The wire name of a stream. -/
def OutputStream.name : OutputStream → String
  | stdout => "stdout"
  | stderr => "stderr"

/-- The stream of a name. -/
def OutputStream.ofName? (name : String) : Option OutputStream :=
  if name = "stdout" then some .stdout
  else if name = "stderr" then some .stderr
  else none

/-- A payload that a device sends. -/
inductive DeviceMessage where
  /-- The answer to a command. -/
  | response (id : String) (ok : Bool) (result : Json)
  /-- A piece of output. -/
  | stream (id : Option String) (stream : OutputStream) (data : String)
  /-- Anything else; it is ignored. -/
  | unknown

namespace DeviceMessage

/-- The parts of a payload by name: of an object, or of an array in field order. -/
structure Parts where
  kind : String
  part : Nat → String → Option Json
  /-- How many fields an array form gives. -/
  count : Nat

/-- Splits a payload at its tag. -/
def parts? : Json → Option Parts
  | .object members =>
    match (Json.object members).get? "type" with
    | some (.string kind) => some ⟨kind, fun _ name => (Json.object members).get? name, 0⟩
    | _ => none
  | .array (.string kind :: items) => some ⟨kind, fun i _ => items[i]?, items.length⟩
  | _ => none

/-- A text, or the default where the part is missing. -/
def textOr (fallback : Option String) : Option Json → Option String
  | none => fallback
  | some (.string s) => some s
  | some _ => none

/-- An identifier text that may be missing or null. -/
def optionalText? : Option Json → Option (Option String)
  | none => some none
  | some .null => some none
  | some (.string s) => some (some s)
  | some _ => none

/-- A stream: its name, or an object that maps its name to an empty part. -/
def stream? : Option Json → Option OutputStream
  | some (.string name) => OutputStream.ofName? name
  | some (.object [(name, part)]) =>
    match part with
    | .null => OutputStream.ofName? name
    | .object [] => OutputStream.ofName? name
    | _ => none
  | _ => none

/-- Reads a verified payload. -/
def ofPayload? (payload : Json) : Option DeviceMessage := do
  let parts ← parts? payload
  if parts.kind = "cmd/resp" then
    if parts.count > 3 then none
    else
      let id ← textOr none (parts.part 0 "id")
      let ok ← (parts.part 1 "ok").bind Json.asBool?
      pure (.response id ok ((parts.part 2 "result").getD .null))
  else if parts.kind = "cmd/stream" then
    if parts.count > 3 then none
    else
      let id ← optionalText? (parts.part 0 "id")
      let stream ← stream? (parts.part 1 "stream")
      let data ← textOr (some "") (parts.part 2 "data")
      pure (.stream id stream data)
  else if parts.count > 0 then none
  else pure .unknown

end DeviceMessage

/-- The error text of a failed reply. -/
def errorText (result : Json) : String :=
  match result with
  | .string s => s
  | .object members =>
    match ((Json.object members).get? "error").bind Json.asString? with
    | some s => s
    | none => result.compact
  | .null => "device reported failure"
  | _ => result.compact

end FleetControl

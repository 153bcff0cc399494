import FleetControl.Message.Command
import FleetControl.Text.Base64

/-!
# Bridge jobs

A command on its way to the process that holds the device's connection. A job carries the instant
after which it is worthless; a blob travels in Base64.
-/
namespace FleetControl

/-- A command travelling between processes. -/
structure BridgeJob where
  id : Uuid
  deviceId : String
  command : Command
  /-- The command's time limit in seconds. -/
  timeout : Double
  /-- Unix milliseconds. -/
  deadline : Int
  /-- Base64 text. -/
  blob : Option String

/-- A span of milliseconds in seconds, as the sum of whole seconds and the rest. -/
def Double.ofMillis (ms : Nat) : Double :=
  Double.add (Double.ofNat (ms / 1000)) (Double.ofRatio (ms % 1000 * 1000000) 1000000000)

namespace BridgeJob

/-- The list on which the jobs of a device travel. -/
def listKey (device : String) : String := "frame:" ++ device ++ ":cmd"

/-- The list on which the reply to a job travels. -/
def replyKey (id : Uuid) : String := "frame:cmd:resp:" ++ id.text

/-- The job of a command at a wall clock reading in Unix milliseconds. The deadline is a 64-bit
word: one that is too far ahead comes out in the past. -/
def make (id : Uuid) (device : String) (command : Command) (blob : Option ByteArray)
    (timeout : Nat) (wall : Int) : BridgeJob where
  id := id
  deviceId := device
  command := command
  timeout := Double.ofMillis timeout
  deadline := (Int64.ofInt (wall + timeout)).toInt
  blob := blob.map Base64.encode

/-- The text of a job, fields in order. -/
def text (j : BridgeJob) : String :=
  "\x7b\"id\":" ++ Json.quoted j.id.text ++ ",\"deviceId\":" ++ Json.quoted j.deviceId ++
    ",\"command\":" ++ j.command.text ++ ",\"timeout\":" ++ Shortest.text j.timeout ++
    ",\"deadline\":" ++ toString j.deadline ++
    (match j.blob with
      | none => ""
      | some b => ",\"blob\":" ++ Json.quoted b) ++ "\x7d"

/-- Reads a job from a document. -/
def ofTree? (tree : Tree) : Option BridgeJob := do
  let depth ← Tree.inside Tree.nestingLimit
  match ← tree.parts? ["id", "deviceId", "command", "timeout", "deadline", "blob"] with
  | [id, deviceId, command, timeout, deadline, blob] =>
    let id ← Tree.required Tree.asUuid? id
    let deviceId ← Tree.required Tree.asString? deviceId
    let command ← Tree.required (Command.ofTree? depth) command
    let timeout ← Tree.required Tree.asDouble? timeout
    let deadline ← Tree.required Tree.asInt64? deadline
    let blob ← Tree.optional Tree.asString? blob
    pure ⟨id, deviceId, command, timeout, deadline, blob⟩
  | _ => none

/-- Reads a job from its text. -/
def parse? (raw : String) : Option BridgeJob := (Tree.parse? raw).bind ofTree?

/-- The identifier of a text that is no job, if one can be read at least. -/
def readableId? (raw : String) : Option Uuid :=
  (((Json.parse? raw).bind (·.get? "id")).bind Json.asString?).bind Uuid.parse?

end BridgeJob

end FleetControl

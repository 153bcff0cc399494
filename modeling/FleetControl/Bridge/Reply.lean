import FleetControl.Bridge.Job
import FleetControl.Reply

/-!
# Bridge replies

The outcome of a job on its way back. A failure travels as its kind and a text, from which the
submitter rebuilds the failure that a local command would have had.
-/
namespace FleetControl

/-- The kinds of failure that keep their meaning across processes. -/
inductive FailureKind where
  | timeout
  | connectionClosed
  | device
  | decode
  | other
  deriving DecidableEq, Repr

namespace FailureKind

/-- The wire name of a kind. -/
def name : FailureKind → String
  | timeout => "timeout"
  | connectionClosed => "connection_closed"
  | device => "device"
  | decode => "decode"
  | other => "other"

/-- All kinds. -/
def all : List FailureKind := [timeout, connectionClosed, device, decode, other]

/-- The kind of a name. -/
def ofName? (n : String) : Option FailureKind := all.find? fun k => k.name == n

end FailureKind

/-- The outcome of a job as it travels. -/
structure BridgeReply where
  ok : Bool
  result : Json := .null
  /-- Base64 text. -/
  body : Option String := none
  error : Option String := none
  kind : Option FailureKind := none

namespace BridgeReply

/-- A failure of a kind. -/
def failure (kind : FailureKind) (text : String) : BridgeReply where
  ok := false
  error := some text
  kind := some kind

/-- Packs an outcome. A failure of the device carries the device's own words only. -/
def ofOutcome : CommandOutcome → BridgeReply
  | .ok reply => { ok := true, result := reply.result, body := reply.body.map Base64.encode }
  | .error (.device _ _ text) => failure .device text
  | .error e =>
    match e with
    | .timeout .. => failure .timeout e.message
    | .connectionClosed .. => failure .connectionClosed e.message
    | .decode _ => failure .decode e.message
    | _ => failure .other e.message

/-- Unpacks an outcome for the submitter of a command. -/
def toOutcome (r : BridgeReply) (device command : String) (timeout : Nat) : CommandOutcome :=
  if r.ok then
    match r.body with
    | none => .ok ⟨r.result, none⟩
    | some text =>
      match Base64.decode? text with
      | some bytes => .ok ⟨r.result, some bytes⟩
      | none => .error (.decode "bridge body: not base64")
  else
    let text := r.error.getD "agent error"
    match r.kind.getD .other with
    | .timeout => .error (.timeout device command (timeout / 1000))
    | .connectionClosed => .error (.connectionClosed device command)
    | .device => .error (.device device command text)
    | .decode => .error (.decode text)
    | .other => .error (.other text)

/-- A member that is left out when it is missing. -/
def member (key : String) : Option String → String
  | none => ""
  | some s => "," ++ Json.quoted key ++ ":" ++ Json.quoted s

/-- The text of a reply, fields in order. -/
def text (r : BridgeReply) : String :=
  "\x7b\"ok\":" ++ (if r.ok then "true" else "false") ++ ",\"result\":" ++ r.result.compact ++
    member "body" r.body ++ member "error" r.error ++ member "kind" (r.kind.map (·.name)) ++ "\x7d"

/-- Reads a kind. -/
def kind? (tree : Tree) : Option FailureKind := (Tree.asCase? tree).bind FailureKind.ofName?

/-- Reads a reply from a document. -/
def ofTree? (tree : Tree) : Option BridgeReply := do
  let depth ← Tree.inside Tree.nestingLimit
  match ← tree.parts? ["ok", "result", "body", "error", "kind"] with
  | [ok, result, body, error, kind] =>
    let ok ← Tree.required Tree.asBool? ok
    let result ← Tree.withDefault .null (Tree.value? depth) result
    let body ← Tree.optional Tree.asString? body
    let error ← Tree.optional Tree.asString? error
    let kind ← Tree.optional kind? kind
    pure ⟨ok, result, body, error, kind⟩
  | _ => none

/-- Reads a reply from its text. -/
def parse? (raw : String) : Option BridgeReply := (Tree.parse? raw).bind ofTree?

/-- How long an uncollected reply stays in the store, in milliseconds. -/
def ttl : Nat := 60000

end BridgeReply

namespace BridgeJob

/-- What becomes of a text taken off a job list. -/
inductive Disposition where
  /-- Nothing can be done about it, or it is worthless by now. -/
  | drop
  /-- It fails at once under its identifier. -/
  | refuse (id : Uuid) (reply : BridgeReply)
  /-- A command is queued with the time that is left. -/
  | accept (id : Uuid) (command : Command) (blob : Option ByteArray) (timeout : Nat)

/-- The milliseconds left until a deadline, in 64-bit words. -/
def remaining (deadline wall : Int) : Int64 := Int64.ofInt deadline - Int64.ofInt wall

/-- Disposes of a text taken off a job list. -/
def dispose (raw : String) (wall : Int) : Disposition :=
  match parse? raw with
  | none =>
    match readableId? raw with
    | none => .drop
    | some id => .refuse id (.failure .other "malformed job: not a job")
  | some job =>
    let left := remaining job.deadline wall
    if left ≤ 0 then .drop
    else
      match job.blob with
      | none => .accept job.id job.command none left.toInt.toNat
      | some text =>
        match Base64.decode? text with
        | none => .refuse job.id (.failure .decode "bad blob: not base64")
        | some bytes => .accept job.id job.command (some bytes) left.toInt.toNat

end BridgeJob

namespace BridgeReply

/-- The outcome that a submitter reads from a reply text. -/
def outcomeOf (raw : String) (device command : String) (timeout : Nat) : CommandOutcome :=
  match parse? raw with
  | none => .error (.decode "bridge reply: not a reply")
  | some reply => reply.toOutcome device command timeout

end BridgeReply

end FleetControl

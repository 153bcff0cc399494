import FleetControl.Error
import FleetControl.Json.Decode
import FleetControl.Json.Writer

/-!
# Handshake messages

The unsigned messages before a device is authenticated, tagged by `action`. The tag may stand
anywhere in the object, or first in an array; what the message does not know is skipped.
-/
namespace FleetControl

/-- An unsigned message of the handshake. -/
inductive ControlMessage where
  /-- The device names itself by its API key. -/
  | hello (apiKey : String)
  /-- The controller's challenge. -/
  | challenge (c : String)
  /-- The device's proof. -/
  | handshake (mac : String)
  /-- The controller accepts the proof. -/
  | handshakeOk
  deriving DecidableEq, Repr

namespace ControlMessage

/-- The tag of a message. -/
def action : ControlMessage → String
  | hello _ => "hello"
  | challenge _ => "challenge"
  | handshake _ => "handshake"
  | handshakeOk => "handshake/ok"

/-- The fields of a message behind its tag. -/
def fields : ControlMessage → List (String × String)
  | hello apiKey => [("deviceApiKey", apiKey)]
  | challenge c => [("c", c)]
  | handshake mac => [("mac", mac)]
  | handshakeOk => []

/-- The wire text: the tag first. -/
def text (m : ControlMessage) : String :=
  (m.fields.foldl
    (fun out f => out ++ "," ++ Json.quoted f.1 ++ ":" ++ Json.quoted f.2)
    ("\x7b\"action\":" ++ Json.quoted m.action)) ++ "\x7d"

/-- The only part among those under the given names, or none; two are refused. -/
def only? (members : List (String × Json)) (names : List String) : Option (Option Json) :=
  match members.filter fun m => names.contains m.1 with
  | [] => some none
  | [m] => some (some m.2)
  | _ => none

/-- A text field; `fallback` stands for a missing one if there is a default. -/
def field? (fallback : Option String) : Option Json → Option String
  | none => fallback
  | some (.string s) => some s
  | some _ => none

/-- The message of an action, where `part` finds its only field by name and its aliases. -/
def build? (action : String) (part : List String → Option (Option Json)) :
    Option ControlMessage :=
  if action = "hello" then
    ((part ["deviceApiKey", "serverApiKey"]).bind (field? (some ""))).map hello
  else if action = "challenge" then ((part ["c"]).bind (field? none)).map challenge
  else if action = "handshake" then ((part ["mac"]).bind (field? (some ""))).map handshake
  else if action = "handshake/ok" then some handshakeOk
  else none

/-- All members of an object with their values; repeated keys are kept. -/
def members? (depth : Nat) (members : List (Option String × Tree)) :
    Option (List (String × Json)) :=
  members.mapM fun m =>
    match m.1, Tree.value? depth m.2 with
    | some key, some value => some (key, value)
    | _, _ => none

/-- The most fields that the array form of an action may have. -/
def arity (action : String) : Nat := if action = "handshake/ok" then 0 else 1

/-- Reads a message from a document. Even parts that are skipped must denote values. -/
def ofTree? (tree : Tree) : Option ControlMessage := do
  let depth ← Tree.inside Tree.nestingLimit
  match tree with
  | .object members =>
    let members ← members? depth members
    match members.filter fun m => m.1 == "action" with
    | [(_, .string action)] => build? action (only? members)
    | _ => none
  | .array items =>
    match ← items.mapM (Tree.value? depth) with
    | .string action :: parts =>
      if parts.length ≤ arity action then build? action fun _ => some parts[0]? else none
    | _ => none
  | _ => none

/-- Reads a message from its wire text. -/
def parse? (raw : String) : Option ControlMessage := (Tree.parse? raw).bind ofTree?

end ControlMessage

end FleetControl

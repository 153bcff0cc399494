import FleetControl.Credential
import FleetControl.Json.Decode
import FleetControl.Text.Quoted

/-!
# Device records

Everything that the controller knows about one device: its credentials, how it is reached without
the channel, and whether it must be reached over the channel.
-/
namespace FleetControl

/-- What a device's agent may do. -/
structure AgentSettings where
  enabled : Bool := false
  runCommands : Bool := false
  deriving DecidableEq, Repr

/-- Commands for the device must go over the persistent channel. -/
def AgentSettings.prefersChannel (a : AgentSettings) : Bool := a.enabled && a.runCommands

/-- A device of the fleet. -/
structure DeviceRecord where
  deviceId : String
  apiKey : String
  sharedSecret : String
  keyVersion : Nat := 0
  host : String := ""
  sshPort : Nat := 22
  sshUser : String := "frame"
  sshKeyPath : Option String := none
  agent : AgentSettings := {}
  deriving DecidableEq, Repr

namespace DeviceRecord

/-- A truth value in words. -/
def truth (b : Bool) : String := if b then "true" else "false"

/-- The diagnostic text. It shows the fingerprint of the key and nothing of the secret. -/
def describe (r : DeviceRecord) : String :=
  "DeviceRecord \x7b device_id: " ++ Quoted.quote r.deviceId ++
    ", api_key: " ++ Quoted.quote (Credential.fingerprint r.apiKey) ++
    ", key_version: " ++ toString r.keyVersion ++
    ", host: " ++ Quoted.quote r.host ++
    ", ssh_port: " ++ toString r.sshPort ++
    ", ssh_user: " ++ Quoted.quote r.sshUser ++
    ", agent: AgentSettings \x7b enabled: " ++ truth r.agent.enabled ++
    ", run_commands: " ++ truth r.agent.runCommands ++ " \x7d, .. \x7d"

/-- Reads agent settings from a document. -/
def agent? (tree : Tree) : Option AgentSettings := do
  match ← tree.parts? ["enabled", "run_commands"] with
  | [enabled, runCommands] =>
    let enabled ← Tree.withDefault false Tree.asBool? enabled
    let runCommands ← Tree.withDefault false Tree.asBool? runCommands
    pure ⟨enabled, runCommands⟩
  | _ => none

/-- Reads a record from a document. -/
def ofTree? (tree : Tree) : Option DeviceRecord := do
  match ← tree.parts? ["device_id", "api_key", "shared_secret", "key_version", "host", "ssh_port",
      "ssh_user", "ssh_key_path", "agent"] with
  | [deviceId, apiKey, sharedSecret, keyVersion, host, sshPort, sshUser, sshKeyPath, agent] =>
    let deviceId ← Tree.required Tree.asString? deviceId
    let apiKey ← Tree.required Tree.asString? apiKey
    let sharedSecret ← Tree.required Tree.asString? sharedSecret
    let keyVersion ← Tree.withDefault 0 (Tree.asNat? 64) keyVersion
    let host ← Tree.withDefault "" Tree.asString? host
    let sshPort ← Tree.withDefault 22 (Tree.asNat? 16) sshPort
    let sshUser ← Tree.withDefault "frame" Tree.asString? sshUser
    let sshKeyPath ← Tree.optional Tree.asString? sshKeyPath
    let agent ← Tree.withDefault {} agent? agent
    pure ⟨deviceId, apiKey, sharedSecret, keyVersion, host, sshPort, sshUser, sshKeyPath, agent⟩
  | _ => none

/-- Reads a record from its text. -/
def parse? (raw : String) : Option DeviceRecord := (Tree.parse? raw).bind ofTree?

end DeviceRecord

end FleetControl

import FleetControl.Device.Record
import FleetControl.Error
import FleetControl.Nonce
import FleetControl.Toml.Document

/-!
# Configuration

The settings of a controller: a TOML file, values from the command line that win over it, and the
conditions that the result must meet. Times are in seconds.
-/
namespace FleetControl

/-- The settings of a controller. -/
structure Config where
  bind : String := "0.0.0.0"
  port : Nat := 8989
  certPath : Option String := none
  keyPath : Option String := none
  maxConnections : Nat := 1000
  helloTimeout : Nat := 30
  idleTimeout : Nat := 90
  commandTimeout : Nat := 120
  presenceTtl : Nat := 60
  presenceRefresh : Nat := 20
  redisUrl : Option String := none
  chunkSize : Nat := 2 * 1024 * 1024
  chunkRetries : Nat := 3
  noncePolicy : NoncePolicy := .advisory
  devices : List DeviceRecord := []

/-- Values from the command line; `none` keeps the value of the file. -/
structure Overrides where
  port : Option Nat := none
  bind : Option String := none
  cert : Option String := none
  key : Option String := none
  redisUrl : Option String := none
  maxConnections : Option Nat := none

namespace Config

/-- Reads agent settings. -/
def agent? (v : Toml) : Option AgentSettings := do
  match ← v.parts? ["enabled", "run_commands"] with
  | [enabled, runCommands] =>
    let enabled ← Toml.withDefault false Toml.asBool? enabled
    let runCommands ← Toml.withDefault false Toml.asBool? runCommands
    pure ⟨enabled, runCommands⟩
  | _ => none

/-- Reads a device record. -/
def device? (v : Toml) : Option DeviceRecord := do
  match ← v.parts? ["device_id", "api_key", "shared_secret", "key_version", "host", "ssh_port",
      "ssh_user", "ssh_key_path", "agent"] with
  | [deviceId, apiKey, sharedSecret, keyVersion, host, sshPort, sshUser, sshKeyPath, agent] =>
    let deviceId ← Toml.required Toml.asString? deviceId
    let apiKey ← Toml.required Toml.asString? apiKey
    let sharedSecret ← Toml.required Toml.asString? sharedSecret
    let keyVersion ← Toml.withDefault 0 (Toml.asNat? 64) keyVersion
    let host ← Toml.withDefault "" Toml.asString? host
    let sshPort ← Toml.withDefault 22 (Toml.asNat? 16) sshPort
    let sshUser ← Toml.withDefault "frame" Toml.asString? sshUser
    let sshKeyPath ← Toml.optional Toml.asString? sshKeyPath
    let agent ← Toml.withDefault {} agent? agent
    pure ⟨deviceId, apiKey, sharedSecret, keyVersion, host, sshPort, sshUser, sshKeyPath, agent⟩
  | _ => none

/-- Reads the list of devices. -/
def devices? : Toml → Option (List DeviceRecord)
  | .array items => items.mapM device?
  | _ => none

/-- Takes over the `server` section. -/
def server? (c : Config) (v : Toml) : Option Config := do
  match ← v.parts? ["bind", "port", "cert", "key", "max_connections", "hello_timeout",
      "idle_timeout", "command_timeout"] with
  | [bind, port, cert, key, maxConnections, helloTimeout, idleTimeout, commandTimeout] =>
    let bind ← Toml.withDefault c.bind Toml.asString? bind
    let port ← Toml.withDefault c.port (Toml.asNat? 16) port
    let cert ← Toml.optional Toml.asString? cert
    let key ← Toml.optional Toml.asString? key
    let maxConnections ← Toml.withDefault c.maxConnections (Toml.asNat? 64) maxConnections
    let helloTimeout ← Toml.withDefault c.helloTimeout (Toml.asNat? 64) helloTimeout
    let idleTimeout ← Toml.withDefault c.idleTimeout (Toml.asNat? 64) idleTimeout
    let commandTimeout ← Toml.withDefault c.commandTimeout (Toml.asNat? 64) commandTimeout
    pure { c with
      bind := bind
      port := port
      certPath := cert
      keyPath := key
      maxConnections := maxConnections
      helloTimeout := helloTimeout
      idleTimeout := idleTimeout
      commandTimeout := commandTimeout }
  | _ => none

/-- Takes over the `presence` section. -/
def presence? (c : Config) (v : Toml) : Option Config := do
  match ← v.parts? ["ttl", "refresh_interval"] with
  | [ttl, refresh] =>
    let ttl ← Toml.withDefault c.presenceTtl (Toml.asNat? 64) ttl
    let refresh ← Toml.withDefault c.presenceRefresh (Toml.asNat? 64) refresh
    pure { c with presenceTtl := ttl, presenceRefresh := refresh }
  | _ => none

/-- Takes over the `store` section. -/
def store? (c : Config) (v : Toml) : Option Config := do
  match ← v.parts? ["redis_url"] with
  | [url] =>
    let url ← Toml.optional Toml.asString? url
    pure { c with redisUrl := url }
  | _ => none

/-- Takes over the `transfer` section. -/
def transfer? (c : Config) (v : Toml) : Option Config := do
  match ← v.parts? ["chunk_size", "chunk_retries"] with
  | [size, retries] =>
    let size ← Toml.withDefault c.chunkSize (Toml.asNat? 64) size
    let retries ← Toml.withDefault c.chunkRetries (Toml.asNat? 32) retries
    pure { c with chunkSize := size, chunkRetries := retries }
  | _ => none

/-- Takes over the `auth` section. -/
def auth? (c : Config) (v : Toml) : Option Config := do
  match ← v.parts? ["nonce_policy"] with
  | [policy] =>
    let policy ← Toml.withDefault c.noncePolicy
      (fun p => (Toml.asCase? p).bind NoncePolicy.ofName?) policy
    pure { c with noncePolicy := policy }
  | _ => none

/-- Takes over a section that may be missing. -/
def section? (read : Config → Toml → Option Config) (c : Config) : Option Toml → Option Config
  | none => some c
  | some v => read c v

/-- The settings of a configuration document. -/
def ofToml? (v : Toml) : Option Config := do
  match ← v.parts? ["server", "presence", "store", "transfer", "auth", "devices"] with
  | [server, presence, store, transfer, auth, devices] =>
    let c ← section? server? {} server
    let c ← section? presence? c presence
    let c ← section? store? c store
    let c ← section? transfer? c transfer
    let c ← section? auth? c auth
    let devices ← Toml.withDefault [] devices? devices
    pure { c with devices := devices }
  | _ => none

/-- A path with a leading `~/` replaced by the home directory; an absolute rest stands alone. -/
def expandHome (home path : String) : String :=
  match path.toList with
  | '~' :: '/' :: rest =>
    match rest with
    | '/' :: _ => String.ofList rest
    | _ => (if home.endsWith "/" then home else home ++ "/") ++ String.ofList rest
  | _ => path

/-- Lets the command line win, and expands paths. -/
def override (c : Config) (o : Overrides) (home : String) : Config :=
  { c with
    bind := o.bind.getD c.bind
    port := o.port.getD c.port
    certPath := (o.cert <|> c.certPath).map (expandHome home)
    keyPath := (o.key <|> c.keyPath).map (expandHome home)
    maxConnections := o.maxConnections.getD c.maxConnections
    redisUrl := o.redisUrl <|> c.redisUrl }

/-- Checks the conditions between settings. -/
def validate (c : Config) : Outcome Config :=
  if c.presenceRefresh = 0 ∨ c.presenceTtl ≤ c.presenceRefresh then
    .error (.config ("presence refresh_interval (" ++ toString c.presenceRefresh ++
      "s) must be non-zero and below ttl (" ++ toString c.presenceTtl ++ "s)"))
  else if c.chunkSize = 0 then .error (.config "transfer chunk_size must be non-zero")
  else if c.certPath.isSome ≠ c.keyPath.isSome then
    .error (.config "cert and key must be configured together")
  else .ok c

/-- What the configuration file turned out to be. -/
inductive Source where
  /-- There is no file; the defaults hold. -/
  | absent
  | unreadable (reason : String)
  | bytes (content : ByteArray)

/-- The settings of a file before the command line. -/
def ofSource : Source → Outcome Config
  | .absent => .ok {}
  | .unreadable reason => .error (.io reason)
  | .bytes content =>
    match String.fromUTF8? content with
    | none => .error (.io "stream did not contain valid UTF-8")
    | some text =>
      match (Toml.parse? text).bind ofToml? with
      | none => .error (.config "config parse error: not a valid configuration")
      | some c => .ok c

/-- Loads the settings. -/
def load (source : Source) (overrides : Overrides) (home : String) : Outcome Config := do
  let c ← ofSource source
  (c.override overrides home).validate

theorem load_absent (home : String) : load .absent {} home = .ok {} := rfl

end Config

end FleetControl

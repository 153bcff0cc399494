import FleetControl.Cluster.Environment
import FleetControl.Listener

/-!
# Starting a controller

What a controller checks between its configuration and its first connection: the device list, the
store and the listener.
-/
namespace FleetControl

/-- Why a controller does not start. -/
inductive StartupError where
  | config (error : ChannelError)
  | devices (error : ChannelError)
  | store (error : ChannelError)
  | listener (error : ChannelError)

/-- The text for the operator. -/
def StartupError.message : StartupError → String
  | config e => "failed to load config: " ++ e.message
  | devices e => "invalid device list: " ++ e.message
  | store e => "failed to open shared store: " ++ e.message
  | listener e => "server error: " ++ e.message

/-- A controller that is ready to listen. -/
structure Startup where
  config : Config
  directory : Directory
  address : Address
  port : Nat

namespace Startup

/-- Tags the failure of a stage. -/
def stage {α : Type} (wrap : ChannelError → StartupError) (r : Outcome α) :
    Except StartupError α :=
  r.mapError wrap

/-- The store of this library lives inside the controller; no other can be opened. -/
def openStore (c : Config) : Outcome Unit :=
  match c.redisUrl with
  | none => .ok ()
  | some _ => .error (.config "redis_url is set but this build lacks the redis feature")

/-- Prepares a controller. The files are those that the configuration names. -/
def prepare (c : Config) (cert key : Option Listener.File) : Except StartupError Startup := do
  let directory ← stage .devices (Directory.ofRecords c.devices)
  stage .store (openStore c)
  let (address, port) ← stage .listener (Listener.prepare .any c.bind c.port cert key)
  pure ⟨c, directory, address, port⟩

/-- The cluster of one process that a controller begins with. -/
def cluster (s : Startup) (supply : Supply) (epoch : Nat) : Cluster :=
  ({ supply := supply, epoch := epoch, directory := { directory := s.directory } } :
    Cluster).addProcess (.ofConfig s.config)

/-- What the operator is told. -/
def report (s : Startup) : List String :=
  (if s.config.devices.isEmpty then
    ["no devices configured, every hello will be rejected"]
  else []) ++
  ["controller ready on " ++ s.address.text ++ " port " ++ toString s.port ++ ", path " ++
    agentPath ++ ", at most " ++ toString s.config.maxConnections ++ " connections"]

end Startup

end FleetControl

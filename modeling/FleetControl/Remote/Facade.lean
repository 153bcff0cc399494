import FleetControl.Remote.Channel

/-!
# The remote facade

Operations on a device without regard to how it is reached. A device whose agent runs commands is
reached over the channel only, and refused while it has no live connection; every other device is
reached by the fallback. What is done and what fails is written to the device log.
-/
namespace FleetControl.Facade

/-- A call of the facade. -/
inductive Call where
  | remote (call : RemoteCall)
  /-- Any command over the channel; there is no fallback for it. -/
  | sendCommand (command : Command) (blob : Option ByteArray) (timeout : Option Nat)

/-- The ways of reaching a device. -/
structure Routes where
  channel : ChannelSettings
  fallback : Transport

/-- What an operation is called in a failure report. -/
def label : RemoteCall → String
  | .runCommand _ => "exec"
  | .runCommands _ => "exec"
  | .upload _ _ => "file_write"
  | .download _ => "file_read"
  | .deletePath _ => "delete"
  | .renamePath _ _ => "rename"
  | .makeDir _ => "mkdir"

/-- The actions that are logged before an operation. -/
def actions (kind : String) : RemoteCall → List String
  | .runCommand cmd => [cmd]
  | .runCommands cmds => cmds
  | .upload path data =>
    ["write " ++ path ++ " (" ++ toString data.size ++ " bytes, " ++ kind ++ ")"]
  | .download path => ["read " ++ path ++ " (" ++ kind ++ ")"]
  | .deletePath path => ["rm -rf " ++ path ++ " (" ++ kind ++ ")"]
  | .renamePath src dst => ["mv " ++ src ++ " " ++ dst ++ " (" ++ kind ++ ")"]
  | .makeDir path => ["mkdir -p " ++ path ++ " (" ++ kind ++ ")"]

/-- Logs a failure and passes the result on. -/
def report {α : Type} (device : DeviceRecord) (what : String) (result : Outcome α) :
    Program (Outcome α) :=
  match result with
  | .ok a => .finish (.ok a)
  | .error e =>
    .log (.output device.deviceId .stderr (what ++ " error (" ++ e.message ++ ")"))
      (.finish (.error e))

/-- Goes on only if the device has a live connection somewhere. -/
def requireChannel {α : Type} (device : DeviceRecord) (next : Program (Outcome α)) :
    Program (Outcome α) :=
  .countAlive device.deviceId fun
    | .error e => .finish (.error e)
    | .ok 0 => .finish (.error (.deviceUnreachable device.deviceId))
    | .ok (_ + 1) => next

/-- Carries an operation out over a transport, with its log lines. -/
def via (transport : Transport) (device : DeviceRecord) (call : RemoteCall) :
    Program (Outcome RemoteAnswer) :=
  (Program.logAll ((actions transport.kind call).map (.action device.deviceId))).bind fun _ =>
    (transport.perform device call).bind (report device (label call))

/-- Carries a call out. -/
def perform (routes : Routes) (device : DeviceRecord) : Call → Program (Outcome RemoteAnswer)
  | .remote call =>
    if device.agent.prefersChannel then
      requireChannel device (via (ChannelTransport.transport routes.channel) device call)
    else via routes.fallback device call
  | .sendCommand command blob timeout =>
    requireChannel device
      (.log (.action device.deviceId (command.name ++ " (agent)"))
        (.send device.deviceId command blob (timeout.getD routes.channel.timeout) fun result =>
          (report device "agent" result).mapOk .reply))

end FleetControl.Facade

import FleetControl.Remote.Program
import FleetControl.Text.Blank
import FleetControl.Text.Shell
import FleetControl.Text.Utf8

/-!
# The SSH transport

The fallback over the system's `ssh` client. Every operation is one run of the client; a batch of
commands shares a master connection, which is closed when the batch ends.
-/
namespace FleetControl.SshTransport

/-- What the transport is called. -/
def kind : String := "ssh"

/-- The login of a device. -/
def login (device : DeviceRecord) : String := device.sshUser ++ "@" ++ device.host

/-- The option that names the socket of a master connection. -/
def controlPath (control : String) : String := "ControlPath=" ++ control

/-- The arguments before the remote command. -/
def baseArgs (device : DeviceRecord) (control : Option String) : List String :=
  ["-p", toString device.sshPort, "-o", "BatchMode=yes", "-o",
    "StrictHostKeyChecking=accept-new", "-o", "ConnectTimeout=10"] ++
  (match device.sshKeyPath with
    | some key => ["-i", key]
    | none => []) ++
  (match control with
    | some path => ["-o", "ControlMaster=auto", "-o", controlPath path, "-o", "ControlPersist=60"]
    | none => []) ++
  [login device]

/-- What a finished run comes to. The exit status counts before a broken input. -/
def judge (device : DeviceRecord) (command : String) (exit : SshExit) : Outcome SshExit :=
  match exit.code with
  | some 0 =>
    match exit.stdinError with
    | none => .ok exit
    | some e => .error (.transport ("ssh stdin to " ++ device.deviceId ++ ": " ++ e))
  | code =>
    let suffix := match exit.stdinError with
      | none => ""
      | some e => " (stdin: " ++ e ++ ")"
    .error (.transport ("'" ++ command ++ "' on " ++ device.deviceId ++ " failed with code " ++
      toString (code.getD (-1)) ++ ": " ++ Blank.trim (Utf8.lossy exit.stderr) ++ suffix))

/-- Runs a remote command. -/
def exec (device : DeviceRecord) (control : Option String) (command : String)
    (stdin : Option ByteArray) : Program (Outcome SshExit) :=
  if device.host = "" then
    .finish (.error (.transport ("device " ++ device.deviceId ++ " has no ssh host configured")))
  else
    .ssh ⟨baseArgs device control ++ ["--", command], stdin⟩ fun
      | .error e => .finish (.error (.transport ("failed to spawn ssh: " ++ e.message)))
      | .ok exit => .finish (judge device command exit)

/-- The reply that stands for a successful run. -/
def replyOf (exit : SshExit) : Reply where
  result := Json.ofMembers [("exit", .int (exit.code.getD 0)),
    ("stdout", .string (Utf8.lossy exit.stdout)), ("stderr", .string (Utf8.lossy exit.stderr))]

/-- Runs a remote command and forwards its output to the device log. -/
def runLogged (device : DeviceRecord) (control : Option String) (command : String) :
    Program (Outcome Reply) :=
  (exec device control command none).andThen fun exit =>
    (Program.logAll (LogEntry.lines device.deviceId .stdout (Utf8.lossy exit.stdout) ++
      LogEntry.lines device.deviceId .stderr (Utf8.lossy exit.stderr))).bind fun _ =>
        .finish (.ok (replyOf exit))

/-- Closes a master connection; how that ends does not matter. -/
def closeMaster (device : DeviceRecord) (control : String) : Program Unit :=
  .ssh ⟨["-O", "exit", "-o", controlPath control, login device], none⟩ fun _ => .finish ()

/-- Runs commands over one master connection up to the first failure. -/
def runBatch (device : DeviceRecord) (control : String) (done : List Reply) :
    List String → Program (Outcome (List Reply))
  | [] => .finish (.ok done.reverse)
  | cmd :: rest =>
    (runLogged device (some control) cmd).andThen fun reply =>
      runBatch device control (reply :: done) rest

/-- Runs a batch and closes its master connection if there was anything to run. -/
def runCommands (device : DeviceRecord) (control : String) (cmds : List String) :
    Program (Outcome (List Reply)) :=
  (runBatch device control [] cmds).bind fun result =>
    if cmds.isEmpty then .finish result
    else (closeMaster device control).bind fun _ => .finish result

/-- Carries an operation out with the client. -/
def perform (control : String) (device : DeviceRecord) :
    RemoteCall → Program (Outcome RemoteAnswer)
  | .runCommand cmd => (runLogged device none cmd).mapOk .reply
  | .runCommands cmds => (runCommands device control cmds).mapOk .replies
  | .upload path data =>
    (exec device none ("cat > " ++ Shell.quote path) (some data)).mapOk fun _ => .done
  | .download path =>
    (exec device none ("cat " ++ Shell.quote path) none).mapOk fun exit => .bytes exit.stdout
  | .deletePath path =>
    (runLogged device none ("rm -rf " ++ Shell.quote path)).mapOk fun _ => .done
  | .renamePath src dst =>
    (runLogged device none ("mv " ++ Shell.quote src ++ " " ++ Shell.quote dst)).mapOk fun _ =>
      .done
  | .makeDir path =>
    (runLogged device none ("mkdir -p " ++ Shell.quote path)).mapOk fun _ => .done

/-- The client as a transport, with the socket path of its master connections. -/
def transport (control : String) : Transport := ⟨kind, perform control⟩

end FleetControl.SshTransport

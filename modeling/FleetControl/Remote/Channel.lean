import FleetControl.Gzip.Member
import FleetControl.Remote.Program

/-!
# The channel transport

Operations as commands over the persistent channel. A file goes up in chunks, each compressed on
its own; a chunk that fails is sent again a limited number of times, and nothing is sent behind a
chunk that failed for good.
-/
namespace FleetControl

/-- The settings of the channel transport. -/
structure ChannelSettings where
  /-- The time limit of a command in milliseconds. -/
  timeout : Nat
  /-- The bytes of a file per chunk; at least one. -/
  chunkSize : Nat
  /-- How often a failed chunk is sent again. -/
  chunkRetries : Nat

namespace ChannelTransport

/-- What the transport is called. -/
def kind : String := "agent"

/-- A non-zero exit of a shell command is a failure of the device. -/
def checkExit (device : DeviceRecord) (reply : Reply) : Outcome Reply :=
  match reply.exitCode? with
  | some code =>
    if code ≠ 0 then
      .error (.device device.deviceId "shell" ("exit status " ++ toString code))
    else .ok reply
  | none => .ok reply

/-- Sends a command with the usual time limit. -/
def send (s : ChannelSettings) (device : DeviceRecord) (command : Command)
    (blob : Option ByteArray) : Program CommandOutcome :=
  .send device.deviceId command blob s.timeout .finish

/-- Runs one shell command. -/
def runCommand (s : ChannelSettings) (device : DeviceRecord) (cmd : String) :
    Program (Outcome Reply) :=
  (send s device (.shell cmd) none).andThen fun reply => .finish (checkExit device reply)

/-- Runs shell commands in order up to the first failure. -/
def runCommands (s : ChannelSettings) (device : DeviceRecord) (done : List Reply) :
    List String → Program (Outcome (List Reply))
  | [] => .finish (.ok done.reverse)
  | cmd :: rest =>
    (runCommand s device cmd).andThen fun reply => runCommands s device (reply :: done) rest

/-- A failure after which a chunk is not sent again. -/
def isFinal : ChannelError → Bool
  | .deviceUnreachable _ => true
  | _ => false

/-- Sends one chunk, again after a failure while retries are left. -/
def sendChunk (s : ChannelSettings) (device : DeviceRecord) (write : FileWrite)
    (zipped : ByteArray) : Nat → Program (Outcome Unit)
  | 0 => (send s device (.fileWrite write) (some zipped)).andThen fun _ => .finish (.ok ())
  | retries + 1 =>
    (send s device (.fileWrite write) (some zipped)).bind fun
      | .ok _ => .finish (.ok ())
      | .error e =>
        if isFinal e then .finish (.error e) else sendChunk s device write zipped retries

/-- The command and content of the chunk at an offset. -/
def chunkAt (path : String) (data : ByteArray) (size offset : Nat) : FileWrite × ByteArray :=
  let zipped := Gzip.encode (data.extract offset (min (offset + size) data.size))
  (⟨path, zipped.size, some offset, some data.size⟩, zipped)

/-- Sends the chunks with the given numbers in order up to the first failure. -/
def sendChunks (s : ChannelSettings) (device : DeviceRecord) (path : String) (data : ByteArray) :
    List Nat → Program (Outcome Unit)
  | [] => .finish (.ok ())
  | i :: rest =>
    let size := max s.chunkSize 1
    let (write, zipped) := chunkAt path data size (i * size)
    (sendChunk s device write zipped s.chunkRetries).andThen fun _ =>
      sendChunks s device path data rest

/-- How many chunks a file has; an empty file is one chunk. -/
def chunkCount (s : ChannelSettings) (data : ByteArray) : Nat :=
  let size := max s.chunkSize 1
  max 1 ((data.size + size - 1) / size)

/-- Carries an operation out over the channel. -/
def perform (s : ChannelSettings) (device : DeviceRecord) :
    RemoteCall → Program (Outcome RemoteAnswer)
  | .runCommand cmd => (runCommand s device cmd).mapOk .reply
  | .runCommands cmds => (runCommands s device [] cmds).mapOk .replies
  | .upload path data =>
    (sendChunks s device path data (List.range (chunkCount s data))).mapOk fun _ => .done
  | .download path =>
    (send s device (.fileRead path) none).mapOk fun reply =>
      .bytes (reply.body.getD ByteArray.empty)
  | .deletePath path => (send s device (.fileDelete path) none).mapOk fun _ => .done
  | .renamePath src dst => (send s device (.fileRename src dst) none).mapOk fun _ => .done
  | .makeDir path => (send s device (.fileMkdir path) none).mapOk fun _ => .done

/-- The channel as a transport. -/
def transport (s : ChannelSettings) : Transport := ⟨kind, perform s⟩

end ChannelTransport

end FleetControl

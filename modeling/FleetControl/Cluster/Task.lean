import FleetControl.Cluster.Process
import FleetControl.Cluster.Socket
import FleetControl.Nonce
import FleetControl.Remote.Program

/-!
# Tasks

Everything that goes on concurrently in a cluster, as explicit states: each constructor is a point
at which a task may wait. A task runs from one such point to the next without interruption.
-/
namespace FleetControl

/-- What a task can wait for, apart from time. -/
inductive Signal where
  /-- A command is queued for a device of a process. -/
  | queued (process : Nat) (device : String)
  /-- Something is pushed onto a list of the store. -/
  | pushed
  /-- A command of a process is decided. -/
  | decided (process : Nat) (id : Uuid)
  /-- Something arrives on a socket. -/
  | arrived (socket : Nat)
  /-- A socket takes data again, or is found to be broken. -/
  | writable (socket : Nat)
  /-- The sender of a connection shall stop. -/
  | stopped (conn : Uuid)
  /-- A task has ended. -/
  | ended (task : TaskId)
  deriving DecidableEq

/-- Where a call stands. -/
inductive CallPhase where
  /-- Its program goes on. -/
  | running (program : Program (Outcome RemoteAnswer))
  /-- A command of the own engine awaits its outcome. -/
  | awaitingLocal (id : Uuid) (next : CommandOutcome → Program (Outcome RemoteAnswer))
  /-- A job is submitted as soon as the call has the lock of its device. -/
  | submitting (device : String) (command : Command) (blob : Option ByteArray) (timeout : Nat)
      (next : CommandOutcome → Program (Outcome RemoteAnswer))
  /-- A job awaits its reply. -/
  | awaitingReply (job : Uuid) (device command : String) (timeout deadline : Nat)
      (next : CommandOutcome → Program (Outcome RemoteAnswer))

/-- Where a bridge worker stands. -/
inductive WorkerPhase where
  | ready
  | polling (deadline : Nat)
  /-- The store failed; wait a little. -/
  | pausing (due : Nat)

/-- Where a sender stands. -/
inductive SenderPhase where
  /-- It wants the next command. -/
  | idle
  /-- A command goes out, and these frames of it are left. -/
  | sending (item : QueuedCommand) (rest : List Frame)

/-- What a session keeps while it receives. -/
structure SessionState where
  device : DeviceRecord
  conn : Uuid
  nonces : NonceTracker
  sender : TaskId
  heartbeat : TaskId

/-- Where a session stands. -/
inductive SessionPhase where
  /-- The socket is accepted. -/
  | opening
  /-- It is turned away; the device is told as soon as it takes data. -/
  | refusing (reason : CloseReason)
  | handshaking (state : HandshakeState) (deadline : Nat)
  | starting (device : DeviceRecord)
  | receiving (state : SessionState) (deadline : Nat)
  /-- The sender is told to stop; its end is awaited until the deadline. -/
  | draining (state : SessionState) (close : Option CloseReason) (deadline : Nat)

/-- A concurrent activity. -/
inductive Task where
  /-- The time limit of a command. -/
  | expiry (process : Nat) (id : Uuid) (deadline : Nat)
  /-- Wants the next command of a device. -/
  | consumer (process : Nat) (device : String)
  /-- Wants the head of a list of the store. -/
  | popper (key : String) (deadline : Nat)
  /-- Wants the outcome of a command. -/
  | caller (process : Nat) (id : Uuid)
  /-- Carries out a remote operation; `bridged` if it never uses the own engine. -/
  | call (process : Nat) (bridged : Bool) (phase : CallPhase)
  /-- Takes the jobs of a device off its list. -/
  | worker (process : Nat) (device : String) (phase : WorkerPhase)
  /-- Returns the outcome of a command as the reply to a job. -/
  | replier (process : Nat) (id job : Uuid)
  /-- Serves a socket. -/
  | session (process socket : Nat) (phase : SessionPhase)
  /-- Sends the commands of a device on a connection. -/
  | sender (process socket : Nat) (device : DeviceRecord) (conn : Uuid) (phase : SenderPhase)
  /-- Refreshes the presence of a connection. -/
  | heartbeat (process : Nat) (conn : Uuid) (interval due : Nat)

/-- What a task that somebody waits for comes to. -/
inductive TaskResult where
  | item (item : QueuedCommand)
  | popped (value : Outcome (Option String))
  | outcome (outcome : CommandOutcome)
  | answer (result : Outcome RemoteAnswer)

end FleetControl

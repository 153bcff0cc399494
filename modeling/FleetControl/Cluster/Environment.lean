import FleetControl.Cluster.Run
import FleetControl.Remote.Facade
import FleetControl.Remote.Ssh

/-!
# The surroundings of a cluster

What happens to a cluster from outside: processes start, devices connect and send, the store and
the directory change, and operations are called for. Each of these only queues work; the cluster
then runs until nothing moves.
-/
namespace FleetControl.Cluster

/-- Starts a process; processes are numbered from zero. -/
def addProcess (c : Cluster) (settings : ServerSettings) : Cluster :=
  { c with processes := c.processes.put c.processes.length (Process.fresh settings) }

/-- Makes the store refuse some operations, and only those. -/
def setOutages (c : Cluster) (down : List StoreOp) : Cluster :=
  { c with store := { c.store with down := down } }

/-- A device opens a connection to a process; sockets are numbered from zero. -/
def connect (c : Cluster) (p : Nat) (address : Address) : Cluster × Nat :=
  let s := c.sockets.length
  let c := { c with sockets := c.sockets.put s { process := p, address := address } }
  ((c.spawn (.session p s .opening)).1, s)

/-- A device sends something; says whether its connection still stands. -/
def arrive (c : Cluster) (s : Nat) (m : Incoming) : Cluster × Bool :=
  match c.sockets.get? s with
  | none => (c, false)
  | some socket =>
    let (socket, sent) := socket.arrive m
    (({ c with sockets := c.sockets.put s socket } : Cluster).notify (.arrived s), sent)

/-- From now on everything that is sent to a device fails. -/
def deafen (c : Cluster) (s : Nat) : Cluster :=
  (c.updateSocket s Socket.deafen).notify (.writable s)

/-- A device takes nothing for now. -/
def stall (c : Cluster) (s : Nat) : Cluster := c.updateSocket s Socket.stall

/-- A device takes data again. -/
def resume (c : Cluster) (s : Nat) : Cluster :=
  (c.updateSocket s Socket.resume).notify (.writable s)

/-- The connection of a device vanishes. -/
def vanish (c : Cluster) (s : Nat) : Cluster :=
  ((c.deafen s).arrive s (.failed "connection reset")).1

/-- Takes what a device has received since it last looked. -/
def takeFrames (c : Cluster) (s : Nat) : Cluster × List Frame :=
  match c.sockets.get? s with
  | none => (c, [])
  | some socket => (c.updateSocket s fun s => { s with outbound := [] }, socket.outbound)

/-- Takes the lines written to the device log. -/
def takeLog (c : Cluster) : Cluster × List LogEntry := ({ c with log := [] }, c.log)

/-- Takes the results that have come in. -/
def takeResults (c : Cluster) : Cluster × List (TaskId × TaskResult) :=
  ({ c with results := [] }, c.results)

/-- Calls for an operation on a device through a process. -/
def call (c : Cluster) (p : Nat) (device : DeviceRecord) (call : Facade.Call) : Cluster × TaskId :=
  let (c, id) := c.freshId
  let control := "/tmp/fos-" ++ String.ofList (id.digits.take 12)
  let channel := match c.settingsOf? p with
    | some settings => settings.channel
    | none => ⟨0, 0, 0⟩
  c.spawn (.call p false
    (.running (Facade.perform ⟨channel, SshTransport.transport control⟩ device call)))

/-- Sends a command as a bridge job, whichever process holds the device. -/
def callBridged (c : Cluster) (p : Nat) (device : String) (command : Command)
    (blob : Option ByteArray) (timeout : Nat) : Cluster × TaskId :=
  c.spawn (.call p true
    (.running (.send device command blob timeout fun r => .finish (r.map .reply))))

/-- Waits for the next command of a device. -/
def consume (c : Cluster) (p : Nat) (device : String) : Cluster × TaskId :=
  c.spawn (.consumer p device)

/-- Waits for the outcome of a command. -/
def await (c : Cluster) (p : Nat) (id : Uuid) : Cluster × TaskId := c.spawn (.caller p id)

/-- Waits for the head of a list of the store, unless the store refuses. -/
def pop (c : Cluster) (key : String) (timeout : Nat) : Cluster × TaskId :=
  match c.store.refusal? .blpop with
  | none => c.spawn (.popper key (c.now + timeout))
  | some e =>
    (({ c with nextTask := c.nextTask + 1 } : Cluster).deliver c.nextTask (.popped (.error e)),
      c.nextTask)

/-- Takes the head of a list of the store without waiting. -/
def popNow (c : Cluster) (key : String) : Cluster × Outcome (Option String) :=
  match c.store.refusal? .blpop with
  | none => c.tryPop key
  | some e => (c, .error e)

/-- Keeps the presence of a connection alive. -/
def beat (c : Cluster) (p : Nat) (conn : Uuid) (interval : Nat) : Cluster × TaskId :=
  c.spawn (.heartbeat p conn interval (c.now + interval))

end FleetControl.Cluster

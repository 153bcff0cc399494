import FleetControl.Cluster.Task
import FleetControl.Device.Lookup
import FleetControl.Store.Shared

/-!
# The state of a cluster

Controller processes over one store, one directory and one device log, with the sockets of their
devices and the tasks that run in them. Tasks that can go on stand in a queue and run in its
order; the others wait for signals or for a point in time. Time stands still while a task can run.
-/
namespace FleetControl

/-- A source of identifiers and challenges, each drawn at most once. -/
structure Supply where
  idOf : Nat → Uuid
  challengeOf : Nat → String

/-- Processes, what they share, and what goes on in them. -/
structure Cluster where
  supply : Supply
  /-- Milliseconds since the start. -/
  now : Nat := 0
  /-- The Unix time of the start in milliseconds. -/
  epoch : Nat := 0
  store : SharedStore := {}
  directory : DirectoryService := { directory := {} }
  processes : Table Nat Process := []
  sockets : Table Nat Socket := []
  /-- The reply bodies in progress on each connection. -/
  bodies : Table Uuid Reassembly := []
  /-- The connections whose sender shall stop. -/
  stopping : List Uuid := []
  log : List LogEntry := []
  tasks : Table TaskId Task := []
  /-- The tasks that can go on, next one first. -/
  ready : List TaskId := []
  /-- Who waits for which signal, longest waiting first. -/
  parked : List (Signal × TaskId) := []
  /-- Points in time at which tasks go on, in the order in which they were set. -/
  timers : List (Nat × TaskId) := []
  results : List (TaskId × TaskResult) := []
  /-- How much of the supply is used up. -/
  drawn : Nat := 0
  nextTask : TaskId := 0

/-- How the turn of a task ends. -/
inductive Turn where
  /-- The task goes on before any other. -/
  | again
  /-- The task waits. -/
  | waits
  /-- The task is over. -/
  | over
  deriving DecidableEq, Repr

namespace Cluster

/-- The Unix time in milliseconds. -/
def wall (c : Cluster) : Nat := c.epoch + c.now

/-- The Unix time in seconds. -/
def wallSeconds (c : Cluster) : Nat := c.wall / 1000

/-- Draws a fresh identifier. -/
def freshId (c : Cluster) : Cluster × Uuid :=
  ({ c with drawn := c.drawn + 1 }, c.supply.idOf c.drawn)

/-- The challenge for the next accepted `hello`. -/
def nextChallenge (c : Cluster) : String := c.supply.challengeOf c.drawn

/-- Uses that challenge up. -/
def useChallenge (c : Cluster) : Cluster := { c with drawn := c.drawn + 1 }

/-- Changes a process. -/
def updateProcess (c : Cluster) (p : Nat) (f : Process → Process) : Cluster :=
  { c with processes := c.processes.modify p f }

/-- The engine of a process. -/
def engine (c : Cluster) (p : Nat) : Engine := ((c.processes.get? p).map (·.engine)).getD {}

/-- Replaces the engine of a process. -/
def setEngine (c : Cluster) (p : Nat) (e : Engine) : Cluster :=
  c.updateProcess p fun q => { q with engine := e }

/-- The connections of a process. -/
def connectionsOf (c : Cluster) (p : Nat) : Connections :=
  ((c.processes.get? p).map (·.connections)).getD {}

/-- Whether a process holds a connection of a device. -/
def hasLocal (c : Cluster) (p : Nat) (device : String) : Bool :=
  (c.connectionsOf p).hasLocal device

/-- The bodies in progress on a connection. -/
def bodiesOf (c : Cluster) (conn : Uuid) : Reassembly := c.bodies.getD conn Reassembly.empty

/-- Replaces the bodies in progress on a connection. -/
def setBodies (c : Cluster) (conn : Uuid) (r : Reassembly) : Cluster :=
  { c with bodies := c.bodies.put conn r }

/-- Adds lines to the device log. -/
def write (c : Cluster) (entries : List LogEntry) : Cluster := { c with log := c.log ++ entries }

/-- Lets a task go on, unless it is about to anyway. -/
def wake (c : Cluster) (t : TaskId) : Cluster :=
  if t ∈ c.ready then c else { c with ready := c.ready ++ [t] }

/-- Starts a task; it gets its turn behind those that can go on already. -/
def spawn (c : Cluster) (task : Task) : Cluster × TaskId :=
  ({ c with
      tasks := c.tasks.put c.nextTask task
      ready := c.ready ++ [c.nextTask]
      nextTask := c.nextTask + 1 }, c.nextTask)

/-- Makes a task wait for a signal, unless it does so already. -/
def park (c : Cluster) (t : TaskId) (s : Signal) : Cluster :=
  if (s, t) ∈ c.parked then c else { c with parked := c.parked ++ [(s, t)] }

/-- Lets every task go on that waits for a signal, longest waiting first. -/
def notify (c : Cluster) (s : Signal) : Cluster :=
  let woken := (c.parked.filter fun e => e.1 = s).map (·.2)
  woken.foldl wake { c with parked := c.parked.filter fun e => e.1 ≠ s }

/-- Takes a task's timer back. -/
def clearTimer (c : Cluster) (t : TaskId) : Cluster :=
  { c with timers := c.timers.filter fun e => e.2 ≠ t }

/-- Sets a task's timer, behind all that are set for the same time. -/
def setTimer (c : Cluster) (t : TaskId) (due : Nat) : Cluster :=
  let c := c.clearTimer t
  { c with timers := c.timers ++ [(due, t)] }

/-- Sets a task's timer unless it is set for that time already. -/
def keepTimer (c : Cluster) (t : TaskId) (due : Nat) : Cluster :=
  if (due, t) ∈ c.timers then c else c.setTimer t due

/-- Takes a task away, with all that it waits for. -/
def remove (c : Cluster) (t : TaskId) : Cluster :=
  let c := c.clearTimer t
  { c with
    tasks := c.tasks.erase t
    ready := c.ready.filter (· ≠ t)
    parked := c.parked.filter fun e => e.2 ≠ t }

/-- Takes back all that a task waits for. -/
def unwait (c : Cluster) (t : TaskId) : Cluster :=
  let c := c.clearTimer t
  { c with parked := c.parked.filter fun e => e.2 ≠ t }

/-- Replaces the state of a task. -/
def setTask (c : Cluster) (t : TaskId) (task : Task) : Cluster :=
  { c with tasks := c.tasks.put t task }

/-- Ends a task and tells those that wait for its end. -/
def finish (c : Cluster) (t : TaskId) : Cluster := (c.remove t).notify (.ended t)

/-- Hands in the result of a task. -/
def deliver (c : Cluster) (t : TaskId) (r : TaskResult) : Cluster :=
  { c with results := c.results ++ [(t, r)] }

/-- Changes a socket. -/
def updateSocket (c : Cluster) (s : Nat) (f : Socket → Socket) : Cluster :=
  { c with sockets := c.sockets.modify s f }

/-- Sends a frame on a socket; says whether that worked. -/
def transmit (c : Cluster) (s : Nat) (f : Frame) : Cluster × Bool :=
  match c.sockets.get? s with
  | none => (c, false)
  | some socket =>
    let (socket, sent) := socket.send f
    ({ c with sockets := c.sockets.put s socket }, sent)

/-- Whether the next frame on a socket has to wait. -/
def blocked (c : Cluster) (s : Nat) : Bool := ((c.sockets.get? s).map (·.blocked)).getD false

/-- Takes the next arrival off a socket. -/
def nextIncoming (c : Cluster) (s : Nat) : Cluster × Option Incoming :=
  match c.sockets.get? s with
  | none => (c, none)
  | some socket =>
    match socket.inbound with
    | [] => (c, none)
    | m :: rest => ({ c with sockets := c.sockets.put s { socket with inbound := rest } }, some m)

theorem processes_wake (c : Cluster) (t : TaskId) : (c.wake t).processes = c.processes := by
  unfold wake
  split <;> rfl

end Cluster

end FleetControl

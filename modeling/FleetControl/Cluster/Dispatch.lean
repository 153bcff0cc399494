import FleetControl.Bridge.Reply
import FleetControl.Cluster.State

/-!
# Dispatch in a cluster

The operations of engines, bridges and presence as they happen in a cluster: each changes the
state of its process or of the store, and lets the tasks go on that waited for the change.
-/
namespace FleetControl.Cluster

/-- Queues a command in a process's engine and starts its time limit. -/
def enqueue (c : Cluster) (p : Nat) (device : String) (command : Command)
    (blob : Option ByteArray) (timeout : Nat) : Cluster × Uuid :=
  let (c, id) := c.freshId
  let (c, _) := c.spawn (.expiry p id (c.now + timeout))
  let c := c.setEngine p ((c.engine p).enqueue id device command blob timeout c.now)
  (c.notify (.queued p device), id)

/-- Takes the next pending command of a device. -/
def popLive (c : Cluster) (p : Nat) (device : String) : Cluster × Option QueuedCommand :=
  let (e, item) := (c.engine p).popLive device
  (c.setEngine p e, item)

/-- Puts an undelivered command back at the head of its queue. -/
def requeueFront (c : Cluster) (p : Nat) (item : QueuedCommand) : Cluster :=
  (c.setEngine p ((c.engine p).requeueFront item)).notify (.queued p item.deviceId)

/-- Takes over an engine in which a command may have been decided. -/
def decide (c : Cluster) (p : Nat) (id : Uuid) (changed : Engine × Bool) : Cluster × Bool :=
  let c := c.setEngine p changed.1
  (if changed.2 then c.notify (.decided p id) else c, changed.2)

/-- Decides a command. -/
def resolve (c : Cluster) (p : Nat) (id : Uuid) (outcome : CommandOutcome) : Cluster × Bool :=
  c.decide p id ((c.engine p).resolve id outcome)

/-- Decides a command by a device's answer. -/
def resolveResponse (c : Cluster) (p : Nat) (id : Uuid) (ok : Bool) (result : Json)
    (body : Option ByteArray) : Cluster × Bool :=
  c.decide p id ((c.engine p).resolveResponse id ok result body)

/-- The time limit of a command ends. -/
def expire (c : Cluster) (p : Nat) (id : Uuid) : Cluster :=
  (c.decide p id ((c.engine p).expire id)).1

/-- Fails every unanswered command of a connection; says how many. -/
def failConnection (c : Cluster) (p : Nat) (conn : Uuid) : Cluster × Nat :=
  let (e, lost) := (c.engine p).failConnection conn
  (lost.foldl (fun c id => c.notify (.decided p id)) (c.setEngine p e), lost.length)

/-- Appends to a list of the store and lets those go on that wait for lists. -/
def push (c : Cluster) (key value : String) : Cluster × Outcome Unit :=
  let (store, result) := c.store.rpush key value c.now
  let c := { c with store := store }
  match result with
  | .ok () => (c.notify .pushed, .ok ())
  | .error e => (c, .error e)

/-- Attempts to take the head of a list of the store. -/
def tryPop (c : Cluster) (key : String) : Cluster × Outcome (Option String) :=
  let (store, result) := c.store.tryPop key c.now
  ({ c with store := store }, result)

/-- Leaves the reply to a job for its submitter; it lapses after a while. -/
def pushReply (c : Cluster) (job : Uuid) (reply : BridgeReply) : Cluster :=
  let key := BridgeJob.replyKey job
  match c.push key reply.text with
  | (c, .error _) => c
  | (c, .ok ()) => { c with store := (c.store.expire key BridgeReply.ttl c.now).1 }

/-- Disposes of a text that a worker took off its job list. -/
def handleJob (c : Cluster) (p : Nat) (device raw : String) : Cluster :=
  match BridgeJob.dispose raw c.wall with
  | .drop => c
  | .refuse job reply => c.pushReply job reply
  | .accept job command blob timeout =>
    let (c, id) := c.enqueue p device command blob timeout
    (c.spawn (.replier p id job)).1

/-- Runs a bridge worker for a device exactly while the process holds one of its connections; says
whether one runs. -/
def sync (c : Cluster) (p : Nat) (device : String) : Cluster × Bool :=
  match c.processes.get? p with
  | none => (c, false)
  | some q =>
    let wanted := q.connections.hasLocal device
    match wanted, q.workers.get? device with
    | true, none =>
      let (c, t) := c.spawn (.worker p device .ready)
      (c.updateProcess p fun q => { q with workers := q.workers.put device t }, true)
    | false, some t =>
      ((c.remove t).updateProcess p fun q => { q with workers := q.workers.erase device }, false)
    | wanted, _ => (c, wanted)

/-- Takes over the connections of a process. -/
def setConnections (c : Cluster) (p : Nat) (changed : Connections × Bool) : Cluster × Bool :=
  (c.updateProcess p fun q => { q with connections := changed.1 }, changed.2)

/-- Records a connection of a process; says whether it is the only one of its device there. -/
def register (c : Cluster) (p : Nat) (device : String) (conn : Uuid) : Cluster × Bool :=
  c.setConnections p ((c.connectionsOf p).register device conn)

/-- Drops a connection of a process; says whether it was the last one of its device there. -/
def unregister (c : Cluster) (p : Nat) (device : String) (conn : Uuid) : Cluster × Bool :=
  c.setConnections p ((c.connectionsOf p).unregister device conn)

/-- Records the presence of a connection. -/
def markAlive (c : Cluster) (p : Nat) (device : String) (conn : Uuid) : Cluster × Outcome Unit :=
  match c.processes.get? p with
  | none => (c, .ok ())
  | some q =>
    let (presence, store, result) := q.presence.markAlive c.store device conn c.now
    (({ c with store := store }).updateProcess p fun q => { q with presence := presence }, result)

/-- Refreshes the presence of a connection. -/
def refresh (c : Cluster) (p : Nat) (conn : Uuid) : Cluster × Outcome Unit :=
  match c.processes.get? p with
  | none => (c, .ok ())
  | some q =>
    let (store, result) := q.presence.refresh c.store conn c.now
    ({ c with store := store }, result)

/-- Drops the presence of a connection. -/
def dropPresence (c : Cluster) (p : Nat) (conn : Uuid) : Cluster × Outcome Unit :=
  match c.processes.get? p with
  | none => (c, .ok ())
  | some q =>
    let (presence, store, result) := q.presence.remove c.store conn
    (({ c with store := store }).updateProcess p fun q => { q with presence := presence }, result)

/-- The live connections of a device in all processes. -/
def countAlive (c : Cluster) (device : String) : Cluster × Outcome Nat :=
  let (store, result) := Presence.countAlive c.store device c.now
  ({ c with store := store }, result)

/-- Asks for the bridge lock of a device; says whether the task has it now. -/
def acquire (c : Cluster) (p : Nat) (device : String) (t : TaskId) : Cluster × Bool :=
  match c.processes.get? p with
  | none => (c, true)
  | some q =>
    let (lock, taken) := (q.locks.getD device {}).acquire t
    (c.updateProcess p fun q => { q with locks := q.locks.put device lock }, taken)

/-- Whether a task has the bridge lock of a device. -/
def holds (c : Cluster) (p : Nat) (device : String) (t : TaskId) : Bool :=
  match c.processes.get? p with
  | none => true
  | some q => (q.locks.getD device {}).owner == some t

/-- Passes the bridge lock of a device on. -/
def release (c : Cluster) (p : Nat) (device : String) : Cluster :=
  match c.processes.get? p with
  | none => c
  | some q =>
    let (lock, next) := (q.locks.getD device {}).release
    let c := c.updateProcess p fun q => { q with locks := q.locks.put device lock }
    match next with
    | none => c
    | some t => c.wake t

end FleetControl.Cluster

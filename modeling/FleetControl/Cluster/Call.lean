import FleetControl.Cluster.Dispatch

/-!
# Calls in a cluster

The turns of the tasks that want something of an engine or of the store, and of the calls of the
remote facade. A call whose process holds a connection of the device goes through its own engine.
Any other becomes a bridge job; a process has at most one job per device outstanding, so jobs stay
in order.
-/
namespace FleetControl.Cluster

/-- The turn of a command's time limit. -/
def expiryTurn (c : Cluster) (t : TaskId) (p : Nat) (id : Uuid) (deadline : Nat) : Cluster × Turn :=
  if deadline ≤ c.now then (c.expire p id, .over) else (c.setTimer t deadline, .waits)

/-- The turn of a task that wants the next command of a device. -/
def consumerTurn (c : Cluster) (t : TaskId) (p : Nat) (device : String) : Cluster × Turn :=
  match c.popLive p device with
  | (c, some item) => (c.deliver t (.item item), .over)
  | (c, none) => (c.park t (.queued p device), .waits)

/-- One attempt of a task to take the head of a list until a deadline: `none` says that it waits. -/
def awaitPop (c : Cluster) (t : TaskId) (key : String) (deadline : Nat) :
    Cluster × Option (Outcome (Option String)) :=
  match c.tryPop key with
  | (c, .ok none) =>
    if deadline ≤ c.now then (c.unwait t, some (.ok none))
    else ((c.park t .pushed).setTimer t deadline, none)
  | (c, result) => (c.unwait t, some result)

/-- The turn of a task that wants the head of a list. -/
def popperTurn (c : Cluster) (t : TaskId) (key : String) (deadline : Nat) : Cluster × Turn :=
  match c.awaitPop t key deadline with
  | (c, some result) => (c.deliver t (.popped result), .over)
  | (c, none) => (c, .waits)

/-- The outcome of a command, or a wait for it. -/
def awaitOutcome (c : Cluster) (t : TaskId) (p : Nat) (id : Uuid) :
    Cluster × Option CommandOutcome :=
  match (c.engine p).outcome? id with
  | some outcome => (c, some outcome)
  | none => (c.park t (.decided p id), none)

/-- The turn of a task that wants the outcome of a command. -/
def callerTurn (c : Cluster) (t : TaskId) (p : Nat) (id : Uuid) : Cluster × Turn :=
  match c.awaitOutcome t p id with
  | (c, some outcome) => (c.deliver t (.outcome outcome), .over)
  | (c, none) => (c, .waits)

/-- The turn of a task that returns the outcome of a command as the reply to a job. -/
def replierTurn (c : Cluster) (t : TaskId) (p : Nat) (id job : Uuid) : Cluster × Turn :=
  match c.awaitOutcome t p id with
  | (c, some outcome) => (c.pushReply job (.ofOutcome outcome), .over)
  | (c, none) => (c, .waits)

/-- How much longer than its command a job is waited for, so that the other process's own verdict
on the time limit arrives first; in milliseconds. -/
def replyGrace : Nat := 2000

/-- Puts a job on the list of its device, under a fresh identifier. A failure gives the lock of the
device back. -/
def submit (c : Cluster) (p : Nat) (device : String) (command : Command) (blob : Option ByteArray)
    (timeout : Nat) : Cluster × Outcome Uuid :=
  let (c, job) := c.freshId
  match c.push (BridgeJob.listKey device)
      (BridgeJob.make job device command blob timeout c.wall).text with
  | (c, .error e) => (c.release p device, .error e)
  | (c, .ok ()) =>
    match c.store.refusal? .blpop with
    | some e => (c.release p device, .error e)
    | none => (c, .ok job)

/-- Carries a program on until it waits or ends. A process starts no `ssh` client here, and knows
no transport besides its own. -/
def carry (c : Cluster) (t : TaskId) (p : Nat) (bridged : Bool) :
    Program (Outcome RemoteAnswer) → Cluster × Turn
  | .finish answer => (c.deliver t (.answer answer), .over)
  | .countAlive device next =>
    let (c, count) := c.countAlive device
    carry c t p bridged (next count)
  | .log entry next => carry (c.write [entry]) t p bridged next
  | .ssh run next => carry c t p bridged (next (.error ((run.refusal? false).getD .missing)))
  | .relay _ _ next => carry c t p bridged (next (.error (.transport "no such transport")))
  | .send device command blob timeout next =>
    if ¬ bridged ∧ c.hasLocal p device then
      let (c, id) := c.enqueue p device command blob timeout
      (c.setTask t (.call p bridged (.awaitingLocal id next)), .again)
    else
      let (c, taken) := c.acquire p device t
      (c.setTask t (.call p bridged (.submitting device command blob timeout next)),
        if taken then .again else .waits)

/-- The turn of a call. -/
def callTurn (c : Cluster) (t : TaskId) (p : Nat) (bridged : Bool) : CallPhase → Cluster × Turn
  | .running program => c.carry t p bridged program
  | .awaitingLocal id next =>
    match c.awaitOutcome t p id with
    | (c, some outcome) => c.carry t p bridged (next outcome)
    | (c, none) => (c, .waits)
  | .submitting device command blob timeout next =>
    if c.holds p device t then
      match c.submit p device command blob timeout with
      | (c, .error e) => c.carry t p bridged (next (.error e))
      | (c, .ok job) =>
        let deadline := c.now + timeout + replyGrace
        (c.setTask t (.call p bridged
          (.awaitingReply job device command.name timeout deadline next)), .again)
    else (c, .waits)
  | .awaitingReply job device command timeout deadline next =>
    match c.awaitPop t (BridgeJob.replyKey job) deadline with
    | (c, none) => (c, .waits)
    | (c, some result) =>
      let outcome := match result with
        | .ok (some raw) => BridgeReply.outcomeOf raw device command timeout
        | .ok none => .error (.timeout device command (timeout / 1000))
        | .error e => .error e
      (c.release p device).carry t p bridged (next outcome)

/-- How long a worker's pop blocks at a time, in milliseconds. -/
def workerPoll : Nat := 5000

/-- How long a worker waits after a failure of the store, in milliseconds. -/
def workerPause : Nat := 1000

/-- The turn of a bridge worker. -/
def workerTurn (c : Cluster) (t : TaskId) (p : Nat) (device : String) :
    WorkerPhase → Cluster × Turn
  | .ready =>
    let phase := match c.store.refusal? .blpop with
      | some _ => WorkerPhase.pausing (c.now + workerPause)
      | none => WorkerPhase.polling (c.now + workerPoll)
    (c.setTask t (.worker p device phase), .again)
  | .polling deadline =>
    match c.awaitPop t (BridgeJob.listKey device) deadline with
    | (c, none) => (c, .waits)
    | (c, some (.ok raw)) =>
      let c := match raw with
        | some raw => c.handleJob p device raw
        | none => c
      (c.setTask t (.worker p device .ready), .again)
    | (c, some (.error _)) =>
      (c.setTask t (.worker p device (.pausing (c.now + workerPause))), .again)
  | .pausing due =>
    if due ≤ c.now then (c.setTask t (.worker p device .ready), .again)
    else (c.setTimer t due, .waits)

end FleetControl.Cluster

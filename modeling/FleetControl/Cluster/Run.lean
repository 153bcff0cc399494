import FleetControl.Cluster.Call
import FleetControl.Cluster.Session

/-!
# Running a cluster

A cluster moves by turns of its tasks, first come first served, until nothing can move; then time
may go on to the next timer. Main statement: without a task that can go on, nothing changes.
-/
namespace FleetControl.Cluster

/-- One turn of a task. -/
def turn (c : Cluster) (t : TaskId) : Cluster × Turn :=
  match c.tasks.get? t with
  | none => (c, .over)
  | some (.expiry p id deadline) => c.expiryTurn t p id deadline
  | some (.consumer p device) => c.consumerTurn t p device
  | some (.popper key deadline) => c.popperTurn t key deadline
  | some (.caller p id) => c.callerTurn t p id
  | some (.replier p id job) => c.replierTurn t p id job
  | some (.call p bridged phase) => c.callTurn t p bridged phase
  | some (.worker p device phase) => c.workerTurn t p device phase
  | some (.session p s phase) => c.sessionTurn t p s phase
  | some (.sender p s device conn phase) => c.senderTurn t p s device conn phase
  | some (.heartbeat p conn interval due) => c.heartbeatTurn t p conn interval due

/-- Gives the first task that can go on a turn. -/
def step (c : Cluster) : Cluster :=
  match c.ready with
  | [] => c
  | t :: rest =>
    match turn { c with ready := rest } t with
    | (c, .again) => { c with ready := t :: c.ready.filter (· ≠ t) }
    | (c, .waits) => c
    | (c, .over) => c.finish t

/-- At most so many steps, until no task can go on. -/
def run : Nat → Cluster → Cluster
  | 0, c => c
  | fuel + 1, c => if c.ready.isEmpty then c else run fuel c.step

/-- More turns than any load takes at one instant: each turn uses up a frame, a command, a job, a
timer or a part of a call. -/
def turnLimit : Nat := 1000000000

/-- Runs all tasks until nothing moves. -/
def settle (c : Cluster) : Cluster := run turnLimit c

/-- The next point in time at which a task goes on. -/
def nextDue? (c : Cluster) : Option Nat := (c.timers.map (·.1)).min?

/-- Wakes the tasks whose time has come, in the order in which their timers were set. -/
def fire (c : Cluster) : Cluster :=
  let (due, later) := c.timers.partition fun e => e.1 ≤ c.now
  due.foldl (fun c e => c.wake e.2) { c with timers := later }

/-- Goes through at most so many instants at which timers are due, up to a point in time. -/
def runUntil (target : Nat) : Nat → Cluster → Cluster
  | 0, c => c
  | fuel + 1, c =>
    match c.nextDue? with
    | some due =>
      if due ≤ target then
        runUntil target fuel ({ c with now := max c.now due } : Cluster).fire.settle
      else { c with now := max c.now target }
    | none => { c with now := max c.now target }

/-- Lets time pass, in milliseconds. -/
def advance (c : Cluster) (ms : Nat) : Cluster := runUntil (c.now + ms) turnLimit c

theorem step_of_ready_eq_nil (c : Cluster) (h : c.ready = []) : c.step = c := by
  simp [step, h]

theorem run_of_ready_eq_nil (c : Cluster) (h : c.ready = []) (fuel : Nat) :
    run fuel c = c := by
  cases fuel <;> simp [run, h]

theorem run_add (m n : Nat) (c : Cluster) : run (m + n) c = run n (run m c) := by
  induction m generalizing c with
  | zero => simp [run]
  | succ m ih =>
    by_cases h : c.ready = []
    · simp [run_of_ready_eq_nil c h]
    · have : ¬ c.ready.isEmpty = true := by simpa using h
      rw [Nat.succ_add, run, run, if_neg this, if_neg this, ih]

end FleetControl.Cluster

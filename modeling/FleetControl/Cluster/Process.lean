import FleetControl.Config
import FleetControl.Connections
import FleetControl.Engine
import FleetControl.Presence
import FleetControl.RateLimiter
import FleetControl.Remote.Channel

/-!
# Controller processes

What one controller process keeps in memory: its dispatch engine, the connections that it holds
with their presence, the bridge workers that it runs, the locks of its bridge client, and its
limits. All spans are in milliseconds.
-/
namespace FleetControl

/-- Tasks are numbered in the order in which they start. -/
abbrev TaskId := Nat

/-- The settings of a running process. -/
structure ServerSettings where
  maxConnections : Nat
  helloTimeout : Nat
  idleTimeout : Nat
  presenceTtl : Nat
  presenceRefresh : Nat
  noncePolicy : NoncePolicy
  channel : ChannelSettings

/-- The settings that a configuration stands for. -/
def ServerSettings.ofConfig (c : Config) : ServerSettings where
  maxConnections := c.maxConnections
  helloTimeout := c.helloTimeout * 1000
  idleTimeout := c.idleTimeout * 1000
  presenceTtl := c.presenceTtl * 1000
  presenceRefresh := c.presenceRefresh * 1000
  noncePolicy := c.noncePolicy
  channel := ⟨c.commandTimeout * 1000, c.chunkSize, c.chunkRetries⟩

/-- The lock that keeps one bridge job per device outstanding. -/
structure DeviceLock where
  owner : Option TaskId := none
  /-- The tasks that wait for the lock, first come first served. -/
  waiting : List TaskId := []

namespace DeviceLock

/-- Takes the lock if it is free, else joins the queue; says whether it was taken. -/
def acquire (l : DeviceLock) (task : TaskId) : DeviceLock × Bool :=
  match l.owner with
  | none => ({ l with owner := some task }, true)
  | some _ => ({ l with waiting := l.waiting ++ [task] }, false)

/-- Passes the lock on to the first task that waits; names it. -/
def release (l : DeviceLock) : DeviceLock × Option TaskId :=
  match l.waiting with
  | [] => ({ l with owner := none }, none)
  | next :: rest => (⟨some next, rest⟩, some next)

theorem owner_release (l : DeviceLock) : l.release.1.owner = l.waiting.head? := by
  unfold release
  split <;> simp [*]

end DeviceLock

/-- The memory of one process. -/
structure Process where
  settings : ServerSettings
  engine : Engine := {}
  connections : Connections := {}
  presence : Presence
  /-- The bridge worker of each device. -/
  workers : Table String TaskId := []
  locks : Table String DeviceLock := []
  limiter : RateLimiter := RateLimiter.standard
  /-- The sockets that are open, authenticated or not. -/
  sockets : Nat := 0

/-- A process that has just started. -/
def Process.fresh (settings : ServerSettings) : Process where
  settings := settings
  presence := ⟨settings.presenceTtl, []⟩

end FleetControl

import FleetControl.Completion
import FleetControl.Message.Command
import FleetControl.Message.Device
import FleetControl.Reassembly
import FleetControl.Table

/-!
# Dispatch engine

Commands wait in one queue per device until a connection of the device takes them, and stay
pending until a reply, a lost connection or their time limit decides them. What is decided is
forgotten: a late reply finds nothing, and a copy still queued is passed over.
-/
namespace FleetControl

/-- A command that waits for a connection, or is being handed to one. -/
structure QueuedCommand where
  id : Uuid
  deviceId : String
  command : Command
  blob : Option ByteArray

/-- A command without an outcome. -/
structure Pending where
  deviceId : String
  command : String
  /-- The connection that it was sent on. -/
  owner : Option Uuid := none
  /-- Its time limit and the instant at which it ends, in milliseconds. -/
  timeout : Nat
  deadline : Nat
  deriving DecidableEq

/-- Queues, pending commands, and the completion of every command in order of submission. -/
structure Engine where
  queues : Table String (List QueuedCommand) := []
  pending : Table Uuid Pending := []
  completions : Table Uuid Completion := []

namespace Engine

/-- The queue of a device, head first. -/
def queue (e : Engine) (device : String) : List QueuedCommand := e.queues.getD device []

/-- Whether a command has no outcome yet. -/
def isPending (e : Engine) (id : Uuid) : Bool := e.pending.has id

/-- How many commands have no outcome yet. -/
def pendingCount (e : Engine) : Nat := e.pending.length

/-- How many commands are queued for a device, passed-over ones included. -/
def queuedCount (e : Engine) (device : String) : Nat := (e.queue device).length

/-- The outcome that the caller of a command gets, if it is decided. -/
def outcome? (e : Engine) (id : Uuid) : Option CommandOutcome :=
  (e.completions.get? id).bind (·.outcome? id.text)

/-- Queues a command under a fresh identifier. -/
def enqueue (e : Engine) (id : Uuid) (device : String) (command : Command)
    (blob : Option ByteArray) (timeout now : Nat) : Engine where
  queues := e.queues.put device (e.queue device ++ [⟨id, device, command, blob⟩])
  pending := e.pending.put id ⟨device, command.name, none, timeout, now + timeout⟩
  completions := e.completions.put id .unresolved

/-- Decides a command once and for all; says whether it was pending. -/
def resolve (e : Engine) (id : Uuid) (outcome : CommandOutcome) : Engine × Bool :=
  if e.isPending id then
    match ((e.completions.getD id .unresolved)).resolve outcome with
    | .ok c =>
      ({ e with pending := e.pending.erase id, completions := e.completions.put id c }, true)
    | .error _ => ({ e with pending := e.pending.erase id }, false)
  else (e, false)

/-- The time limit of a command ends. -/
def expire (e : Engine) (id : Uuid) : Engine × Bool :=
  match e.pending.get? id with
  | none => (e, false)
  | some p => e.resolve id (.error (.timeout p.deviceId p.command (p.timeout / 1000)))

/-- Takes the first pending command off a device's queue, dropping decided ones before it. -/
def popLive (e : Engine) (device : String) : Engine × Option QueuedCommand :=
  match (e.queue device).dropWhile fun item => ¬ e.isPending item.id with
  | [] =>
    if e.queues.has device then ({ e with queues := e.queues.put device [] }, none) else (e, none)
  | item :: rest => ({ e with queues := e.queues.put device rest }, some item)

/-- Records that a command goes out on a connection; says whether it is still pending. -/
def markSent (e : Engine) (id conn : Uuid) : Engine × Bool :=
  if e.isPending id then
    ({ e with pending := e.pending.modify id fun p => { p with owner := some conn } }, true)
  else (e, false)

/-- Records that a command was not sent after all. -/
def unmark (e : Engine) (id : Uuid) : Engine :=
  { e with pending := e.pending.modify id fun p => { p with owner := none } }

/-- Puts an undelivered command back at the head of its queue. -/
def requeueFront (e : Engine) (item : QueuedCommand) : Engine :=
  let e := e.unmark item.id
  { e with queues := e.queues.put item.deviceId (item :: e.queue item.deviceId) }

/-- The device and command name of a pending command; empty once it is decided. -/
def describe (e : Engine) (id : Uuid) : String × String :=
  match e.pending.get? id with
  | some p => (p.deviceId, p.command)
  | none => ("", "")

/-- The outcome that a device's answer stands for. -/
def answer (e : Engine) (id : Uuid) (ok : Bool) (result : Json) (body : Option ByteArray) :
    CommandOutcome :=
  if ok then Reply.merge result body
  else .error (.device (e.describe id).1 (e.describe id).2 (errorText result))

/-- Decides a command by a device's answer. -/
def resolveResponse (e : Engine) (id : Uuid) (ok : Bool) (result : Json)
    (body : Option ByteArray) : Engine × Bool :=
  e.resolve id (e.answer id ok result body)

/-- The pending commands that were sent on a connection. -/
def owned (e : Engine) (conn : Uuid) : List (Uuid × Pending) :=
  e.pending.filter fun p => p.2.owner = some conn

/-- Fails every unanswered command of a connection; names them. -/
def failConnection (e : Engine) (conn : Uuid) : Engine × List Uuid :=
  let lost := e.owned conn
  (lost.foldl
    (fun e p => (e.resolve p.1 (.error (.connectionClosed p.2.deviceId p.2.command))).1) e,
    lost.map (·.1))

theorem resolve_of_not_pending (e : Engine) (id : Uuid) (o : CommandOutcome)
    (h : e.isPending id = false) : e.resolve id o = (e, false) := by
  simp [resolve, h]

theorem isPending_resolve (e : Engine) (id : Uuid) (o : CommandOutcome) :
    (e.resolve id o).1.isPending id = false := by
  unfold resolve
  split
  · split <;> simp [isPending, Table.has]
  · simp_all

end Engine

end FleetControl

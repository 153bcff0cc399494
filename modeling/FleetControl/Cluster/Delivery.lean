import FleetControl.Cluster.Dispatch

/-!
# Delivery of commands

The turns of the two tasks beside a session: the sender, which hands the commands of the device to
the connection one by one, and the heartbeat, which keeps the presence of the connection alive.
-/
namespace FleetControl

/-- The largest binary frame of a blob. -/
def blobFrameSize : Nat := 1024 * 1024

/-- The frames of a blob, in order; an empty blob has none. -/
def blobFrames (blob : ByteArray) : List ByteArray :=
  (List.range ((blob.size + blobFrameSize - 1) / blobFrameSize)).map fun i =>
    blob.extract (i * blobFrameSize) (min ((i + 1) * blobFrameSize) blob.size)

/-- The frames in which a command goes out: the signed envelope, then its blob. -/
def commandFrames (device : DeviceRecord) (item : QueuedCommand) (nonce : Int) : List Frame :=
  let envelope := Envelope.sign (item.command.payload item.id) nonce device.apiKey
    device.sharedSecret
  .text envelope.text :: ((item.blob.map blobFrames).getD []).map .binary

namespace Cluster

/-- Begins to send a command that was taken off the queue. -/
def dispatch (c : Cluster) (t : TaskId) (p s : Nat) (device : DeviceRecord) (conn : Uuid)
    (item : QueuedCommand) : Cluster × Turn :=
  let c := if item.command.expectsBinary then c.setBodies conn ((c.bodiesOf conn).expect item.id)
    else c
  (c.setTask t (.sender p s device conn (.sending item (commandFrames device item c.wallSeconds))),
    .again)

/-- Takes the next command of the device, unless the sender shall stop. -/
def idleTurn (c : Cluster) (t : TaskId) (p s : Nat) (device : DeviceRecord) (conn : Uuid) :
    Cluster × Turn :=
  if conn ∈ c.stopping then (c, .over)
  else
    match c.popLive p device.deviceId with
    | (c, none) =>
      ((c.park t (.queued p device.deviceId)).park t (.stopped conn), .waits)
    | (c, some item) =>
      let (e, live) := (c.engine p).markSent item.id conn
      let c := c.setEngine p e
      if live then c.dispatch t p s device conn item else (c, .again)

/-- Sends the next frame of a command. A command that cannot be sent as a whole goes back to the
head of the queue, and the sender gives up. -/
def sendingTurn (c : Cluster) (t : TaskId) (p s : Nat) (device : DeviceRecord) (conn : Uuid)
    (item : QueuedCommand) : List Frame → Cluster × Turn
  | [] => (c.setTask t (.sender p s device conn .idle), .again)
  | f :: rest =>
    if c.blocked s then (c.park t (.writable s), .waits)
    else
      match c.transmit s f with
      | (c, true) => (c.setTask t (.sender p s device conn (.sending item rest)), .again)
      | (c, false) =>
        ((c.setBodies conn ((c.bodiesOf conn).cancel item.id)).requeueFront p item, .over)

/-- The turn of a sender. -/
def senderTurn (c : Cluster) (t : TaskId) (p s : Nat) (device : DeviceRecord) (conn : Uuid) :
    SenderPhase → Cluster × Turn
  | .idle => c.idleTurn t p s device conn
  | .sending item rest => c.sendingTurn t p s device conn item rest

/-- The turn of a heartbeat. A failed refresh is tried again at the next beat. -/
def heartbeatTurn (c : Cluster) (t : TaskId) (p : Nat) (conn : Uuid) (interval due : Nat) :
    Cluster × Turn :=
  if interval = 0 then (c, .over)
  else if due ≤ c.now then
    ((c.refresh p conn).1.setTask t (.heartbeat p conn interval (due + interval)), .again)
  else (c.setTimer t due, .waits)

end Cluster

end FleetControl

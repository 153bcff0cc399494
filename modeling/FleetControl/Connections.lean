import FleetControl.Table
import FleetControl.Uuid

/-!
# Connections of one process

The authenticated connections that a process holds, by device. Every change is announced.
-/
namespace FleetControl

/-- What observers of connections are told. -/
inductive DeviceEvent where
  | online (device : String) (conn : Uuid)
  | offline (device : String) (conn : Uuid)
  deriving DecidableEq

/-- The connections of each device; a device without connections has no entry. -/
structure Connections where
  byDevice : Table String (List Uuid) := []
  events : List DeviceEvent := []

namespace Connections

/-- The connections of a device. -/
def of (c : Connections) (device : String) : List Uuid := c.byDevice.getD device []

/-- Whether this process holds a connection of the device. -/
def hasLocal (c : Connections) (device : String) : Bool := c.byDevice.has device

/-- Records a connection. Says whether it is now the only one of its device. -/
def register (c : Connections) (device : String) (conn : Uuid) : Connections × Bool :=
  let before := c.of device
  let now := if conn ∈ before then before else before ++ [conn]
  (⟨c.byDevice.put device now, c.events ++ [.online device conn]⟩, now.length == 1)

/-- Drops a connection. Says whether it was the last one of its device. -/
def unregister (c : Connections) (device : String) (conn : Uuid) : Connections × Bool :=
  let before := c.of device
  if conn ∈ before then
    let now := before.filter (· ≠ conn)
    let byDevice := if now.isEmpty then c.byDevice.erase device else c.byDevice.put device now
    (⟨byDevice, c.events ++ [.offline device conn]⟩, now.isEmpty)
  else (c, false)

theorem hasLocal_register (c : Connections) (device : String) (conn : Uuid) :
    (c.register device conn).1.hasLocal device = true := by
  simp [register, hasLocal, Table.has]

end Connections

end FleetControl

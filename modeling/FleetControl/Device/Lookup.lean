import FleetControl.Device.Directory

/-!
# Looking devices up

The directory as the handshake sees it: lookups may fail altogether, and the record found by id
may differ from the one found by key when the directory changes in between.
-/
namespace FleetControl

/-- A directory service. -/
structure DirectoryService where
  directory : Directory
  /-- Records by id that stand in for those of the directory; `none` hides a device. -/
  overrides : Table String (Option DeviceRecord) := []
  /-- Whether every lookup fails. -/
  down : Bool := false

namespace DirectoryService

/-- The failure of every lookup while the service is down. -/
def unavailable : ChannelError := .store "directory unavailable"

/-- The device that owns a key. -/
def byApiKey (d : DirectoryService) (key : String) : Outcome (Option DeviceRecord) :=
  if d.down then .error unavailable else .ok (d.directory.byApiKey key)

/-- The device of an id. -/
def get (d : DirectoryService) (id : String) : Outcome (Option DeviceRecord) :=
  if d.down then .error unavailable
  else .ok ((d.overrides.get? id).getD (d.directory.get? id))

/-- Gives a device a new key. -/
def rotateKey (d : DirectoryService) (id fresh : String) :
    DirectoryService × Outcome DeviceRecord :=
  let (directory, result) := d.directory.rotateKey id fresh
  ({ d with directory := directory }, result)

/-- Makes lookups by an id find this record from now on, or none. -/
def override (d : DirectoryService) (id : String) (record : Option DeviceRecord) :
    DirectoryService :=
  { d with overrides := d.overrides.put id record }

end DirectoryService

end FleetControl

import FleetControl.Device.Record
import FleetControl.Error
import FleetControl.Table

/-!
# Device directory

The devices that the controller serves, found by API key during the handshake and by id for
dispatch. A directory is built only from records with complete and distinct credentials. Rotating
a device's key replaces the key and raises its version.
-/
namespace FleetControl

/-- The records by device id. -/
structure Directory where
  devices : Table String DeviceRecord := []

namespace Directory

/-- Adds a record, or says what is wrong with it. -/
def add (d : Directory) (record : DeviceRecord) : Outcome Directory :=
  if record.apiKey = "" ∨ record.sharedSecret = "" then
    .error (.config ("device " ++ record.deviceId ++ " needs both api_key and shared_secret"))
  else if d.devices.any fun e => e.2.apiKey = record.apiKey then
    .error (.config ("device " ++ record.deviceId ++ " reuses another device's api_key"))
  else if d.devices.has record.deviceId then
    .error (.config "duplicate device_id in config")
  else .ok ⟨d.devices.put record.deviceId record⟩

/-- Adds records one by one. -/
def addAll (d : Directory) : List DeviceRecord → Outcome Directory
  | [] => .ok d
  | record :: rest =>
    match d.add record with
    | .error e => .error e
    | .ok d => addAll d rest

/-- The directory of a list of records. -/
def ofRecords (records : List DeviceRecord) : Outcome Directory := addAll {} records

/-- The device that owns a key; the empty key has no owner. -/
def byApiKey (d : Directory) (key : String) : Option DeviceRecord :=
  if key = "" then none else (d.devices.find? fun e => e.2.apiKey = key).map (·.2)

/-- The device of an id. -/
def get? (d : Directory) (id : String) : Option DeviceRecord := d.devices.get? id

/-- Gives a device a fresh key and raises its key version. -/
def rotateKey (d : Directory) (id : String) (fresh : String) :
    Directory × Outcome DeviceRecord :=
  match d.get? id with
  | none => (d, .error (.unknownDevice id))
  | some record =>
    let record := { record with apiKey := fresh, keyVersion := record.keyVersion + 1 }
    (⟨d.devices.put id record⟩, .ok record)

theorem get?_rotateKey_of_ne (d : Directory) {id other : String} (fresh : String)
    (h : other ≠ id) : (d.rotateKey id fresh).1.get? other = d.get? other := by
  unfold rotateKey
  split
  · rfl
  · simp [get?, Table.get?_put_of_ne _ _ h]

end Directory

end FleetControl

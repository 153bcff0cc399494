import FleetControl.Device.Lookup
import FleetControl.Proofs.Table

/-! # Records without their secrets

What is left of a directory when the shared secrets are taken out of it. No lookup depends on a
secret, and a rotation does not either. -/
namespace FleetControl

def DeviceRecord.redacted (r : DeviceRecord) : DeviceRecord := { r with sharedSecret := "" }

namespace Directory

def redacted (d : Directory) : Directory := ⟨d.devices.image DeviceRecord.redacted⟩

theorem get?_redacted (d : Directory) (id : String) :
    d.redacted.get? id = (d.get? id).map DeviceRecord.redacted := Table.get?_image d.devices _ id

theorem byApiKey_redacted (d : Directory) (key : String) :
    d.redacted.byApiKey key = (d.byApiKey key).map DeviceRecord.redacted := by
  unfold byApiKey
  split
  · rfl
  · rw [redacted, Table.image, List.find?_map, Option.map_map, Option.map_map]
    rfl

theorem rotateKey_redacted (d : Directory) (id fresh : String) :
    d.redacted.rotateKey id fresh =
      ((d.rotateKey id fresh).1.redacted, (d.rotateKey id fresh).2.map DeviceRecord.redacted) := by
  unfold rotateKey
  rw [get?_redacted]
  cases d.get? id with
  | none => rfl
  | some record =>
    refine Prod.ext (congrArg Directory.mk ?_) rfl
    exact Table.put_image d.devices DeviceRecord.redacted id
      { record with apiKey := fresh, keyVersion := record.keyVersion + 1 }

end Directory

namespace DirectoryService

def redacted (d : DirectoryService) : DirectoryService where
  directory := d.directory.redacted
  overrides := d.overrides.image (Option.map DeviceRecord.redacted)
  down := d.down

theorem byApiKey_redacted (d : DirectoryService) (key : String) :
    d.redacted.byApiKey key = (d.byApiKey key).map (Option.map DeviceRecord.redacted) := by
  unfold byApiKey
  rw [redacted]
  split
  · rfl
  · exact congrArg Except.ok (d.directory.byApiKey_redacted key)

theorem get_redacted (d : DirectoryService) (id : String) :
    d.redacted.get id = (d.get id).map (Option.map DeviceRecord.redacted) := by
  unfold get
  rw [redacted]
  split
  · rfl
  · refine congrArg Except.ok ?_
    rw [Table.get?_image]
    cases d.overrides.get? id with
    | none => exact d.directory.get?_redacted id
    | some record => rfl

theorem rotateKey_redacted (d : DirectoryService) (id fresh : String) :
    d.redacted.rotateKey id fresh =
      ((d.rotateKey id fresh).1.redacted, (d.rotateKey id fresh).2.map DeviceRecord.redacted) := by
  unfold rotateKey
  dsimp only
  rw [redacted, Directory.rotateKey_redacted]
  rfl

/-- Services that differ in secrets only find the same, up to the secret. -/
theorem get_alike {d d' : DirectoryService} (h : d.redacted = d'.redacted) (id : String) :
    (∃ e, d.get id = .error e ∧ d'.get id = .error e) ∨
    (d.get id = .ok none ∧ d'.get id = .ok none) ∨
    ∃ r r', d.get id = .ok (some r) ∧ d'.get id = .ok (some r') ∧ r.redacted = r'.redacted := by
  have hget : (d.get id).map (Option.map DeviceRecord.redacted) =
      (d'.get id).map (Option.map DeviceRecord.redacted) := by
    rw [← get_redacted, ← get_redacted, h]
  generalize d.get id = found at hget ⊢
  generalize d'.get id = found' at hget ⊢
  rcases found with e | _ | r <;> rcases found' with e' | _ | r' <;> simp [Except.map] at hget
  · exact Or.inl ⟨e, rfl, hget ▸ rfl⟩
  · exact Or.inr (Or.inl ⟨rfl, rfl⟩)
  · exact Or.inr (Or.inr ⟨r, r', rfl, rfl, hget⟩)

end DirectoryService

end FleetControl

import FleetControl.Device.Directory
import FleetControl.Proofs.Table

/-! # Records under their own ids

A directory that was built from records files each under its own id, and rotation keeps it so. What
a lookup by key finds is then what a lookup by its id finds. -/
namespace FleetControl.Directory

structure Filed (d : Directory) : Prop where
  distinct : d.devices.Distinct
  named : ∀ id record, d.get? id = some record → record.deviceId = id

theorem filed_empty : Filed {} := by
  constructor <;> simp [Table.Distinct, Table.keys, get?, Table.get?]

theorem Filed.put {d : Directory} (h : d.Filed) {id : String} {record : DeviceRecord}
    (hid : record.deviceId = id) : Filed ⟨d.devices.put id record⟩ := by
  refine ⟨h.distinct.put id record, ?_⟩
  intro other r hr
  simp only [get?, Table.get?_put] at hr
  split at hr
  · rename_i ho
    cases hr
    exact hid.trans ho.symm
  · exact h.named other r hr

theorem filed_addAll {d d' : Directory} (h : d.Filed) (records : List DeviceRecord)
    (ha : d.addAll records = .ok d') : d'.Filed := by
  induction records generalizing d with
  | nil =>
    cases ha
    exact h
  | cons record rest ih =>
    simp only [addAll] at ha
    cases hadd : d.add record with
    | error e => rw [hadd] at ha; cases ha
    | ok d₁ =>
      rw [hadd] at ha
      refine ih ?_ ha
      simp only [add] at hadd
      split at hadd
      · cases hadd
      · split at hadd
        · cases hadd
        · split at hadd
          · cases hadd
          · cases hadd
            exact h.put rfl

theorem filed_ofRecords {d : Directory} {records : List DeviceRecord}
    (h : ofRecords records = .ok d) : d.Filed := filed_addAll filed_empty records h

theorem get?_rotateKey (d : Directory) (id fresh other : String) :
    (d.rotateKey id fresh).1.get? other =
      if other = id then
        (d.get? id).map fun r => { r with apiKey := fresh, keyVersion := r.keyVersion + 1 }
      else d.get? other := by
  by_cases ho : other = id
  · subst other
    unfold rotateKey
    cases hd : d.get? id with
    | none => simp [hd]
    | some record => simp [get?]
  · rw [if_neg ho, get?_rotateKey_of_ne d fresh ho]

theorem filed_rotateKey {d : Directory} (h : d.Filed) (id fresh : String) :
    (d.rotateKey id fresh).1.Filed := by
  unfold rotateKey
  cases hd : d.get? id with
  | none => exact h
  | some record => exact h.put (h.named id record hd)

theorem get?_of_byApiKey {d : Directory} (h : d.Filed) {key : String} {record : DeviceRecord}
    (hk : d.byApiKey key = some record) :
    d.get? record.deviceId = some record ∧ record.apiKey = key := by
  unfold byApiKey at hk
  split at hk
  · cases hk
  · obtain ⟨⟨id, r⟩, hf, rfl⟩ := Option.map_eq_some_iff.mp hk
    have hget := Table.get?_of_mem h.distinct (List.mem_of_find?_eq_some hf)
    have hid := h.named id r hget
    refine ⟨by rw [hid]; exact hget, ?_⟩
    simpa using List.find?_some hf

end FleetControl.Directory

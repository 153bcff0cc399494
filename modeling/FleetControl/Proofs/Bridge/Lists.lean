import FleetControl.Cluster.Call
import FleetControl.Proofs.Cluster.Frame
import FleetControl.Proofs.Store

/-! # Job lists and reply lists

What the parties of the bridge do to the lists of the store: each of their operations touches the
list that it is about, and nothing else in the store. -/
namespace FleetControl.Cluster
open SharedStore (Touches)

variable (c : Cluster)

theorem touches_push (key value : String) : Touches key c.store (c.push key value).1.store := by
  have hpush := c.store.touches_rpush key c.now value
  unfold push
  dsimp only
  split
  · rw [store_notify]
    exact hpush
  · exact hpush

theorem now_push (key value : String) : (c.push key value).1.now = c.now := by
  unfold push
  dsimp only
  split
  · exact now_notify _ _
  · rfl

theorem touches_tryPop (key : String) : Touches key c.store (c.tryPop key).1.store :=
  c.store.touches_tryPop key c.now

theorem touches_submit (p : Nat) (device : String) (command : Command) (blob : Option ByteArray)
    (timeout : Nat) : Touches (BridgeJob.listKey device) c.store
      (c.submit p device command blob timeout).1.store := by
  have hpush := c.freshId.1.touches_push (BridgeJob.listKey device)
    (BridgeJob.make c.freshId.2 device command blob timeout c.freshId.1.wall).text
  unfold submit
  dsimp only
  split <;> rename_i h <;> rw [h] at hpush
  · rw [store_release]
    exact hpush
  · split
    · rw [store_release]
      exact hpush
    · exact hpush

theorem now_submit (p : Nat) (device : String) (command : Command) (blob : Option ByteArray)
    (timeout : Nat) : (c.submit p device command blob timeout).1.now = c.now := by
  have hpush := c.freshId.1.now_push (BridgeJob.listKey device)
    (BridgeJob.make c.freshId.2 device command blob timeout c.freshId.1.wall).text
  unfold submit
  dsimp only
  split <;> rename_i h <;> rw [h] at hpush
  · exact (now_release _ p device).trans hpush
  · split
    · exact (now_release _ p device).trans hpush
    · exact hpush

end FleetControl.Cluster

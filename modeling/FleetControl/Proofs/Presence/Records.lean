import FleetControl.Cluster.Dispatch
import FleetControl.Proofs.Store

/-! # Records of connections

What a process does about a connection concerns the record of that connection, and nothing else in
the store. -/
namespace FleetControl

namespace Presence
open SharedStore (Touches)
variable (q : Presence) (s : SharedStore) (conn : Uuid) (now : Nat)

theorem touches_markAlive (device : String) :
    Touches (key device conn) s (q.markAlive s device conn now).2.1 := by
  have hset := s.touches_setEx (key device conn) now "1" q.ttl
  unfold markAlive
  split <;> rename_i h <;> rw [h] at hset <;> exact hset

theorem touches_refresh {device : String} (h : q.held.get? conn = some device) :
    Touches (key device conn) s (q.refresh s conn now).1 := by
  have hexpire := s.touches_expire (key device conn) now q.ttl
  unfold refresh
  rw [h]
  dsimp only
  split <;> rename_i he <;> rw [he] at hexpire
  · exact hexpire
  · exact hexpire
  · exact hexpire.trans (SharedStore.touches_setEx _ _ now "1" q.ttl)

theorem touches_remove {device : String} (h : q.held.get? conn = some device) :
    Touches (key device conn) s (q.remove s conn).2.1 := by
  unfold remove
  rw [h]
  exact s.touches_del (key device conn)

end Presence

namespace Cluster
open SharedStore (Touches)
variable (c : Cluster) (p : Nat) (conn : Uuid)

/-- A connection of a device has a live record. -/
def Present (c : Cluster) (device : String) (conn : Uuid) : Prop :=
  (c.store.store.live? (Presence.key device conn) c.now).isSome = true

instance (c : Cluster) (device : String) (conn : Uuid) : Decidable (c.Present device conn) :=
  inferInstanceAs (Decidable (_ = true))

/-- The records of the connections of a process. -/
def presence? (c : Cluster) (p : Nat) : Option Presence := (c.processes.get? p).map (·.presence)

/-- The device for which a process holds a connection with a record. -/
def recorded? (c : Cluster) (p : Nat) (conn : Uuid) : Option String :=
  (c.presence? p).bind (·.held.get? conn)

theorem touches_markAlive (device : String) :
    Touches (Presence.key device conn) c.store (c.markAlive p device conn).1.store := by
  unfold markAlive
  split
  · exact Touches.refl _ _
  · rename_i q _
    exact q.presence.touches_markAlive c.store conn c.now device

theorem now_markAlive (device : String) : (c.markAlive p device conn).1.now = c.now := by
  unfold markAlive
  split <;> rfl

theorem now_refresh : (c.refresh p conn).1.now = c.now := by
  unfold refresh
  split <;> rfl

theorem now_dropPresence : (c.dropPresence p conn).1.now = c.now := by
  unfold dropPresence
  split <;> rfl

theorem touches_refresh {device : String} (h : c.recorded? p conn = some device) :
    Touches (Presence.key device conn) c.store (c.refresh p conn).1.store := by
  obtain ⟨presence, hpresence, hheld⟩ := Option.bind_eq_some_iff.mp h
  obtain ⟨q, hq, rfl⟩ := Option.map_eq_some_iff.mp hpresence
  unfold refresh
  rw [hq]
  exact q.presence.touches_refresh c.store conn c.now hheld

theorem touches_dropPresence {device : String} (h : c.recorded? p conn = some device) :
    Touches (Presence.key device conn) c.store (c.dropPresence p conn).1.store := by
  obtain ⟨presence, hpresence, hheld⟩ := Option.bind_eq_some_iff.mp h
  obtain ⟨q, hq, rfl⟩ := Option.map_eq_some_iff.mp hpresence
  unfold dropPresence
  rw [hq]
  exact q.presence.touches_remove c.store conn hheld

end Cluster

end FleetControl

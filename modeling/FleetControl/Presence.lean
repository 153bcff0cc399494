import FleetControl.Store.Shared
import FleetControl.Uuid

/-!
# Presence

Every live connection of a device, in whichever process, owns one key in the shared store that
lapses unless it is refreshed. Counting the keys of a device says whether it is connected
anywhere.
-/
namespace FleetControl

/-- The presence records of the connections that one process holds. -/
structure Presence where
  /-- How long a record lives without a refresh, in milliseconds. -/
  ttl : Nat
  /-- The device of each connection with a record. -/
  held : Table Uuid String := []

namespace Presence

/-- What all presence keys of a device start with. -/
def keyStem (device : String) : String := "frame:" ++ device ++ ":conn:"

/-- The presence key of a connection. -/
def key (device : String) (conn : Uuid) : String := keyStem device ++ conn.text

/-- Records a freshly authenticated connection. -/
def markAlive (p : Presence) (s : SharedStore) (device : String) (conn : Uuid) (now : Nat) :
    Presence × SharedStore × Outcome Unit :=
  match s.setEx (key device conn) "1" p.ttl now with
  | (s, .error e) => (p, s, .error e)
  | (s, .ok ()) => ({ p with held := p.held.put conn device }, s, .ok ())

/-- Extends the record of a connection, creating it anew if it lapsed. -/
def refresh (p : Presence) (s : SharedStore) (conn : Uuid) (now : Nat) :
    SharedStore × Outcome Unit :=
  match p.held.get? conn with
  | none => (s, .ok ())
  | some device =>
    match s.expire (key device conn) p.ttl now with
    | (s, .error e) => (s, .error e)
    | (s, .ok true) => (s, .ok ())
    | (s, .ok false) => s.setEx (key device conn) "1" p.ttl now

/-- Drops the record of a connection; the process forgets it even if the store fails. -/
def remove (p : Presence) (s : SharedStore) (conn : Uuid) : Presence × SharedStore × Outcome Unit :=
  match p.held.get? conn with
  | none => (p, s, .ok ())
  | some device =>
    let (s, result) := s.del (key device conn)
    ({ p with held := p.held.erase conn }, s, result)

/-- The live connections of a device across all processes. -/
def countAlive (s : SharedStore) (device : String) (now : Nat) : SharedStore × Outcome Nat :=
  s.countPrefix (keyStem device) now

theorem held_remove (p : Presence) (s : SharedStore) (conn : Uuid) :
    (p.remove s conn).1.held.get? conn = none := by
  unfold remove
  split <;> simp [*]

end Presence

end FleetControl

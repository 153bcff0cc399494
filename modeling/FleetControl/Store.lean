import FleetControl.Error
import FleetControl.Table

/-!
# The shared store

Keys that lapse and queues of texts, shared by all controller processes. A lapsed key is as good
as absent: every operation that meets one removes it first. Waiting for a queue is the business of
whoever runs the store; `tryPop` is one attempt.
-/
namespace FleetControl

/-- What a key holds. -/
inductive StoreValue where
  | text (value : String)
  | list (values : List String)
  deriving DecidableEq, Repr

/-- A value with the instant at which it lapses, in milliseconds. -/
structure StoreSlot where
  value : StoreValue
  expiresAt : Option Nat := none
  deriving DecidableEq, Repr

/-- Whether a slot has not lapsed yet. -/
def StoreSlot.isLive (s : StoreSlot) (now : Nat) : Bool :=
  match s.expiresAt with
  | none => true
  | some t => now < t

/-- The keys with their slots; a lapsed slot stays until an operation meets it. -/
structure Store where
  slots : Table String StoreSlot := []

namespace Store

/-- The complaint about a key of the other kind. -/
def wrongKind (key : String) : ChannelError :=
  .store ("key " ++ key ++ " holds the wrong kind of value")

/-- The live slot of a key. -/
def live? (s : Store) (key : String) (now : Nat) : Option StoreSlot :=
  (s.slots.get? key).filter (·.isLive now)

/-- Forgets a key. -/
def del (s : Store) (key : String) : Store := ⟨s.slots.erase key⟩

/-- Sets a text that lapses after `ttl`. -/
def setEx (s : Store) (key value : String) (ttl now : Nat) : Store :=
  ⟨s.slots.put key ⟨.text value, some (now + ttl)⟩⟩

/-- Lets a live key lapse after `ttl` from now on; says whether there was one. -/
def expire (s : Store) (key : String) (ttl now : Nat) : Store × Bool :=
  match s.live? key now with
  | some slot => (⟨s.slots.put key { slot with expiresAt := some (now + ttl) }⟩, true)
  | none => (s.del key, false)

/-- How many live keys start with the given text. -/
def countPrefix (s : Store) (start : String) (now : Nat) : Store × Nat :=
  let live := s.slots.filter fun e => e.2.isLive now
  (⟨live⟩, live.countP fun e => start.isPrefixOf e.1)

/-- Appends to the queue at a key. A live queue keeps its expiry. -/
def rpush (s : Store) (key value : String) (now : Nat) : Outcome Store :=
  match s.live? key now with
  | none => .ok ⟨(s.slots.erase key).put key ⟨.list [value], none⟩⟩
  | some slot =>
    match slot.value with
    | .list values => .ok ⟨s.slots.put key { slot with value := .list (values ++ [value]) }⟩
    | .text _ => .error (wrongKind key)

/-- Takes the head of the queue at a key, if there is one. -/
def tryPop (s : Store) (key : String) (now : Nat) : Store × Outcome (Option String) :=
  match s.live? key now with
  | none => (s.del key, .ok none)
  | some slot =>
    match slot.value with
    | .text _ => (s, .error (wrongKind key))
    | .list [] => (s.del key, .ok none)
    | .list [value] => (s.del key, .ok (some value))
    | .list (value :: rest) =>
      (⟨s.slots.put key { slot with value := .list rest }⟩, .ok (some value))

theorem tryPop_del (s : Store) (key : String) (now : Nat) :
    ((s.del key).tryPop key now).2 = .ok none := by
  simp [tryPop, live?, del]

end Store

end FleetControl

import FleetControl.Store

/-!
# The store as processes see it

The shared store may refuse operations for a while. A refused operation fails before it touches
any key.
-/
namespace FleetControl

/-- The operations of the store. -/
inductive StoreOp where
  | setEx
  | expire
  | del
  | countPrefix
  | rpush
  | blpop
  deriving DecidableEq, Repr

/-- The name of an operation. -/
def StoreOp.name : StoreOp → String
  | setEx => "set_ex"
  | expire => "expire"
  | del => "del"
  | countPrefix => "count_prefix"
  | rpush => "rpush"
  | blpop => "blpop"

/-- All operations. -/
def StoreOp.all : List StoreOp := [setEx, expire, del, countPrefix, rpush, blpop]

/-- The operation of a name. -/
def StoreOp.ofName? (name : String) : Option StoreOp := all.find? fun op => op.name == name

/-- The store with the operations that it refuses at the moment. -/
structure SharedStore where
  store : Store := {}
  down : List StoreOp := []

namespace SharedStore

/-- The failure of a refused operation. -/
def refusal? (s : SharedStore) (op : StoreOp) : Option ChannelError :=
  if op ∈ s.down then some (.store (op.name ++ " unavailable")) else none

/-- Sets a text that lapses after `ttl`. -/
def setEx (s : SharedStore) (key value : String) (ttl now : Nat) : SharedStore × Outcome Unit :=
  match s.refusal? .setEx with
  | some e => (s, .error e)
  | none => ({ s with store := s.store.setEx key value ttl now }, .ok ())

/-- Renews the expiry of a live key. -/
def expire (s : SharedStore) (key : String) (ttl now : Nat) : SharedStore × Outcome Bool :=
  match s.refusal? .expire with
  | some e => (s, .error e)
  | none =>
    let (store, found) := s.store.expire key ttl now
    ({ s with store := store }, .ok found)

/-- Forgets a key. -/
def del (s : SharedStore) (key : String) : SharedStore × Outcome Unit :=
  match s.refusal? .del with
  | some e => (s, .error e)
  | none => ({ s with store := s.store.del key }, .ok ())

/-- Counts the live keys that start with the given text. -/
def countPrefix (s : SharedStore) (start : String) (now : Nat) : SharedStore × Outcome Nat :=
  match s.refusal? .countPrefix with
  | some e => (s, .error e)
  | none =>
    let (store, n) := s.store.countPrefix start now
    ({ s with store := store }, .ok n)

/-- Appends to a queue. -/
def rpush (s : SharedStore) (key value : String) (now : Nat) : SharedStore × Outcome Unit :=
  match s.refusal? .rpush with
  | some e => (s, .error e)
  | none =>
    match s.store.rpush key value now with
    | .ok store => ({ s with store := store }, .ok ())
    | .error e => (s, .error e)

/-- One attempt to take the head of a queue. A wait that has begun is not refused any more. -/
def tryPop (s : SharedStore) (key : String) (now : Nat) : SharedStore × Outcome (Option String) :=
  let (store, popped) := s.store.tryPop key now
  ({ s with store := store }, popped)

end SharedStore

end FleetControl

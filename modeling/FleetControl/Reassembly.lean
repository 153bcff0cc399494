import FleetControl.Gzip.Member
import FleetControl.Reply
import FleetControl.Uuid

/-!
# Reassembly of reply bodies

A device sends the binary body of a reply as frames without identifiers, before the reply itself,
and answers in the order in which commands were sent. So the commands of a connection that may get
a body wait in a queue, and a frame belongs to the first of them. A reply takes its command out.
-/
namespace FleetControl

/-- A command whose body may still arrive. -/
structure Awaited where
  id : Uuid
  data : ByteArray := ByteArray.empty
  /-- The body was longer than the limit and is no longer kept. -/
  overflowed : Bool := false

/-- Where a frame went. -/
inductive Appended where
  | stored
  /-- No command waits for a body. -/
  | noCommand
  /-- The command that it belongs to has timed out or overflowed. -/
  | discarded
  deriving DecidableEq, Repr

/-- The bodies in progress on one connection, oldest command first. -/
structure Reassembly where
  limit : Nat
  waiting : List Awaited := []

namespace Reassembly

/-- The largest body kept for one command. -/
def defaultLimit : Nat := 256 * 1024 * 1024

/-- No command waits. -/
def empty : Reassembly := ⟨defaultLimit, []⟩

/-- Queues the newest command that may get a body. -/
def expect (r : Reassembly) (id : Uuid) : Reassembly :=
  { r with waiting := r.waiting ++ [{ id := id }] }

/-- Adds a frame to the first command. One that is no longer live keeps its place, so that its
late frames are not taken for the next command's, but its data is dropped. -/
def append (r : Reassembly) (frame : ByteArray) (live : Uuid → Bool) : Reassembly × Appended :=
  match r.waiting with
  | [] => (r, .noCommand)
  | first :: rest =>
    let put (a : Awaited) : Reassembly := { r with waiting := a :: rest }
    if ¬ live first.id then (put { first with data := ByteArray.empty }, .discarded)
    else if first.overflowed then (r, .discarded)
    else if first.data.size + frame.size > r.limit then
      (put { first with data := ByteArray.empty, overflowed := true }, .discarded)
    else (put { first with data := first.data ++ frame }, .stored)

/-- The body of an entry that is taken. -/
def bodyOf (r : Reassembly) (a : Awaited) : Outcome (Option ByteArray) :=
  if a.overflowed then
    .error (.decode ("reply body for " ++ a.id.text ++ " exceeds " ++ toString r.limit ++ " bytes"))
  else if a.data.size = 0 then .ok none
  else .ok (some a.data)

/-- Takes a command's body on its reply. Commands queued ahead of it that are no longer live will
not be answered and are dropped too. -/
def take (r : Reassembly) (id : Uuid) (live : Uuid → Bool) :
    Reassembly × Outcome (Option ByteArray) :=
  match r.waiting.span fun a => a.id ≠ id with
  | (_, []) => (r, .ok none)
  | (ahead, entry :: behind) =>
    ({ r with waiting := (ahead.filter fun a => live a.id) ++ behind }, r.bodyOf entry)

/-- Forgets a command that was not sent after all. -/
def cancel (r : Reassembly) (id : Uuid) : Reassembly :=
  { r with waiting := r.waiting.filter fun a => a.id ≠ id }

/-- Drops everything; says how many commands waited. -/
def discardAll (r : Reassembly) : Reassembly × Nat := ({ r with waiting := [] }, r.waiting.length)

@[simp] theorem waiting_expect (r : Reassembly) (id : Uuid) :
    (r.expect id).waiting = r.waiting ++ [{ id := id }] := rfl

@[simp] theorem waiting_discardAll (r : Reassembly) : r.discardAll.1.waiting = [] := rfl

end Reassembly

namespace Reply

/-- Whether a result declares that its body is compressed. -/
def declaresGzip (result : Json) : Bool :=
  (result.get? "compressed").bind Json.asString? == some "gzip" ||
    (result.get? "gzip").bind Json.asBool? == some true

/-- A reply from a result and the body that came with it, inflated where the result says so. -/
def merge (result : Json) (body : Option ByteArray) : CommandOutcome :=
  match body with
  | none => .ok ⟨result, none⟩
  | some bytes =>
    if declaresGzip result then
      match Gzip.decode? bytes with
      | some content => .ok ⟨result, some content⟩
      | none => .error (.decode "gzip body: not a gzip member")
    else .ok ⟨result, some bytes⟩

end Reply

end FleetControl

import FleetControl.Error

/-!
# Nonce bookkeeping

Nonces are Unix seconds. The advisory policy accepts every nonce; the strict one wants each nonce
close to the local clock and above the last one accepted on the connection. Nonces and clock
readings are 64-bit words, and so is their distance.
-/
namespace FleetControl

/-- How nonces are checked. -/
inductive NoncePolicy where
  | advisory
  | strict
  deriving DecidableEq, Repr

/-- The name of a policy in configuration. -/
def NoncePolicy.name : NoncePolicy → String
  | advisory => "advisory"
  | strict => "strict"

/-- The policy of a name. -/
def NoncePolicy.ofName? (name : String) : Option NoncePolicy :=
  if name = "advisory" then some .advisory
  else if name = "strict" then some .strict
  else none

/-- The nonces seen on one connection. -/
structure NonceTracker where
  policy : NoncePolicy
  last : Option Int64 := none

namespace NonceTracker

/-- The largest distance in seconds between an accepted nonce and the clock. -/
def maxSkew : Int64 := 300

/-- The magnitude of a word; the least word has none and stays itself. -/
def magnitude (x : Int64) : Int64 := if x < 0 then -x else x

/-- The larger of the last accepted nonce and a new one. -/
def latest (t : NonceTracker) (nonce : Int64) : Int64 :=
  match t.last with
  | none => nonce
  | some last => if last < nonce then nonce else last

/-- Why the strict policy refuses a nonce. -/
def refusal? (t : NonceTracker) (nonce now : Int64) : Option ChannelError :=
  if magnitude (nonce - now) > maxSkew then some (.auth ("stale nonce " ++ toString nonce.toInt))
  else
    match t.last with
    | some last =>
      if nonce ≤ last then
        some (.auth ("nonce not increasing: " ++ toString nonce.toInt ++ " after " ++
          toString last.toInt))
      else none
    | none => none

/-- Checks a nonce and records it when accepted. -/
def check (t : NonceTracker) (nonce now : Int64) : Outcome NonceTracker :=
  match t.policy with
  | .advisory => .ok { t with last := some (t.latest nonce) }
  | .strict =>
    match t.refusal? nonce now with
    | some e => .error e
    | none => .ok { t with last := some (t.latest nonce) }

theorem check_advisory (last : Option Int64) (nonce now : Int64) :
    ∃ t, check ⟨.advisory, last⟩ nonce now = .ok t := ⟨_, rfl⟩

end NonceTracker

end FleetControl

import FleetControl.Net.Address
import FleetControl.Table

/-!
# Limit on failed handshakes

Counts the failed handshakes of each remote address within a sliding window. Only failures count,
so a fleet behind one address can reconnect all at once.
-/
namespace FleetControl

/-- The failures of each address, oldest first, in milliseconds. -/
structure RateLimiter where
  maxFailures : Nat
  window : Nat
  failures : Table Address (List Nat) := []

namespace RateLimiter

/-- Twenty failures in a minute. -/
def standard : RateLimiter := ⟨20, 60000, []⟩

/-- The times that are still inside the window. -/
def prune (r : RateLimiter) (now : Nat) (times : List Nat) : List Nat :=
  times.dropWhile fun t => now - t ≥ r.window

/-- The failures of an address inside the window. -/
def recent (r : RateLimiter) (address : Address) (now : Nat) : List Nat :=
  r.prune now (r.failures.getD address [])

/-- Whether an address may try a handshake. -/
def allows (r : RateLimiter) (address : Address) (now : Nat) : RateLimiter × Bool :=
  let times := r.recent address now
  ({ r with failures := r.failures.put address times }, times.length < r.maxFailures)

/-- Counts a failed handshake. -/
def recordFailure (r : RateLimiter) (address : Address) (now : Nat) : RateLimiter :=
  { r with failures := r.failures.put address (r.recent address now ++ [now]) }

/-- Forgets addresses without a failure inside the window. -/
def collect (r : RateLimiter) (now : Nat) : RateLimiter :=
  { r with
    failures := (r.failures.map fun e => (e.1, e.2.filter fun t => now - t < r.window)).filter
      fun e => ¬ e.2.isEmpty }

theorem allows_empty (max window now : Nat) (a : Address) (h : 0 < max) :
    ((⟨max, window, []⟩ : RateLimiter).allows a now).2 = true := by
  simp [allows, recent, prune, Table.getD, Table.get?, h]

end RateLimiter

end FleetControl

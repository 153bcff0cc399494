/-!
# Finite tables

Association lists that keep the order in which keys were first written. The read-over-write laws
say that a table is a finite map.
-/
namespace FleetControl

/-- A finite map as a list of entries in insertion order. -/
abbrev Table (κ ν : Type) := List (κ × ν)

namespace Table

variable {κ ν : Type} [DecidableEq κ]

/-- The value stored under a key. -/
def get? (t : Table κ ν) (k : κ) : Option ν :=
  match t with
  | [] => none
  | (k', v) :: rest => if k' = k then some v else get? rest k

/-- Whether a key is stored. -/
def has (t : Table κ ν) (k : κ) : Bool := (get? t k).isSome

/-- Stores a value: in place if the key is there, else at the end. -/
def put (t : Table κ ν) (k : κ) (v : ν) : Table κ ν :=
  match t with
  | [] => [(k, v)]
  | (k', v') :: rest => if k' = k then (k, v) :: rest else (k', v') :: put rest k v

/-- Forgets a key. -/
def erase (t : Table κ ν) (k : κ) : Table κ ν := t.filter fun e => e.1 ≠ k

/-- Changes the value under a key that is stored. -/
def modify (t : Table κ ν) (k : κ) (f : ν → ν) : Table κ ν :=
  t.map fun e => if e.1 = k then (e.1, f e.2) else e

/-- The value under a key, or a default. -/
def getD (t : Table κ ν) (k : κ) (d : ν) : ν := (get? t k).getD d

/-- The stored keys. -/
def keys (t : Table κ ν) : List κ := t.map (·.1)

@[simp] theorem get?_put_self (t : Table κ ν) (k : κ) (v : ν) : get? (put t k v) k = some v := by
  induction t with
  | nil => simp [put, get?]
  | cons e rest ih =>
    obtain ⟨k', v'⟩ := e
    by_cases h : k' = k <;> simp [put, get?, h, ih]

theorem get?_put_of_ne (t : Table κ ν) {k j : κ} (v : ν) (h : j ≠ k) :
    get? (put t k v) j = get? t j := by
  induction t with
  | nil => simp [put, get?, Ne.symm h]
  | cons e rest ih =>
    obtain ⟨k', v'⟩ := e
    by_cases hk : k' = k
    · subst hk; simp [put, get?, Ne.symm h]
    · by_cases hj : k' = j
      · subst hj; simp [put, get?, hk]
      · simp [put, get?, hk, hj, ih]

@[simp] theorem get?_erase_self (t : Table κ ν) (k : κ) : get? (erase t k) k = none := by
  induction t with
  | nil => rfl
  | cons e rest ih =>
    obtain ⟨k', v'⟩ := e
    by_cases h : k' = k
    · simpa [erase, h] using ih
    · simpa [erase, get?, h] using ih

theorem get?_erase_of_ne (t : Table κ ν) {k j : κ} (h : j ≠ k) :
    get? (erase t k) j = get? t j := by
  induction t with
  | nil => rfl
  | cons e rest ih =>
    obtain ⟨k', v'⟩ := e
    by_cases hk : k' = k
    · subst hk; simpa [erase, get?, Ne.symm h] using ih
    · by_cases hj : k' = j
      · subst hj; simp [erase, get?, hk]
      · simpa [erase, get?, hk, hj] using ih

end Table

end FleetControl

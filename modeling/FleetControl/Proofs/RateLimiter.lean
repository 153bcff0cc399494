import FleetControl.Proofs.Table
import FleetControl.RateLimiter

/-! # What a limiter remembers

Every operation of a limiter forgets only what lies outside the window, and only in front of what
it keeps: the latest failures of an address stay as long as they count. -/
namespace FleetControl

/-- What becomes of the failures of an address where none inside the window is forgotten. -/
structure Forgets (window now : Nat) (times times' : List Nat) : Prop where
  sub : times'.Sublist times
  latest : ∀ last, last <:+ times → (∀ t ∈ last, now - t < window) → last <:+ times'

theorem Forgets.refl (window now : Nat) (times : List Nat) : Forgets window now times times :=
  ⟨.refl _, fun _ h _ => h⟩

theorem Forgets.of_eq {window now : Nat} {times times' : List Nat} (h : times' = times) :
    Forgets window now times times' := h ▸ .refl window now times

theorem forgets_dropWhile (window now : Nat) (times : List Nat) :
    Forgets window now times (times.dropWhile fun t => now - t ≥ window) := by
  refine ⟨List.dropWhile_sublist _, ?_⟩
  rintro last ⟨older, rfl⟩ hrecent
  have hkept : last.dropWhile (fun t => Decidable.decide (now - t ≥ window)) = last := by
    cases last with
    | nil => rfl
    | cons t rest =>
      have ht := hrecent t (List.mem_cons_self ..)
      exact List.dropWhile_cons_of_neg (by simpa using ht)
  rw [List.dropWhile_append, hkept]
  split
  · exact List.suffix_refl last
  · exact List.suffix_append _ last

theorem forgets_filter (window now : Nat) (times : List Nat) :
    Forgets window now times (times.filter fun t => now - t < window) := by
  refine ⟨List.filter_sublist, ?_⟩
  rintro last ⟨older, rfl⟩ hrecent
  have hkept : last.filter (fun t => Decidable.decide (now - t < window)) = last :=
    List.filter_eq_self.mpr fun t ht => by simpa using hrecent t ht
  rw [List.filter_append, hkept]
  exact List.suffix_append _ last

namespace RateLimiter

/-- The failures of an address. -/
def of (r : RateLimiter) (address : Address) : List Nat := r.failures.getD address []

/-- A limiter like the standard one, whatever it remembers. -/
structure Usual (r : RateLimiter) : Prop where
  maxFailures : r.maxFailures = standard.maxFailures
  window : r.window = standard.window
  distinct : r.failures.Distinct

theorem usual_standard : standard.Usual := ⟨rfl, rfl, List.nodup_nil⟩

theorem of_put (r : RateLimiter) (a b : Address) (times : List Nat) :
    ({ r with failures := r.failures.put a times } : RateLimiter).of b =
      if b = a then times else r.of b := by
  simp only [of, Table.getD, Table.get?_put]
  split <;> rfl

/-- An operation of a limiter that forgets failures and adds none. -/
def Lapses (now : Nat) (f : RateLimiter → RateLimiter) : Prop :=
  ∀ r : RateLimiter, r.Usual →
    (f r).Usual ∧ ∀ a, Forgets standard.window now (r.of a) ((f r).of a)

theorem lapses_id (now : Nat) : Lapses now id := fun _ h => ⟨h, fun _ => .refl _ _ _⟩

theorem lapses_allows (address : Address) (now : Nat) :
    Lapses now fun r => (r.allows address now).1 := by
  refine fun r h => ⟨⟨h.maxFailures, h.window, h.distinct.put _ _⟩, fun a => ?_⟩
  simp only [allows, of_put]
  split
  · rename_i ha
    rw [ha, ← h.window]
    exact forgets_dropWhile r.window now (r.of address)
  · exact .refl _ _ _

theorem of_collect {r : RateLimiter} (hd : r.failures.Distinct) (a : Address) (now : Nat) :
    (r.collect now).of a = (r.of a).filter fun t => now - t < r.window := by
  let kept := r.failures.image fun times => times.filter fun t => now - t < r.window
  have hkept : kept.Distinct := by
    unfold Table.Distinct
    rw [Table.keys_image]
    exact hd
  change (Table.get? (kept.filter fun e => ¬ e.2.isEmpty) a).getD [] = _
  rw [Table.get?_filter hkept (fun times => ¬ times.isEmpty), Table.get?_image]
  unfold of Table.getD
  cases r.failures.get? a with
  | none => rfl
  | some times =>
    -- An address without a failure is as good as one that is not there.
    cases hleft : times.filter fun t => Decidable.decide (now - t < r.window) <;>
      simp [hleft, Option.filter]

theorem distinct_collect {r : RateLimiter} (hd : r.failures.Distinct) (now : Nat) :
    (r.collect now).failures.Distinct := by
  refine Table.Distinct.filter ?_ _
  change (r.failures.image fun times => times.filter fun t => now - t < r.window).keys.Nodup
  rw [Table.keys_image]
  exact hd

theorem lapses_collect (now : Nat) : Lapses now fun r => r.collect now := by
  refine fun r h => ⟨⟨h.maxFailures, h.window, distinct_collect h.distinct now⟩, fun a => ?_⟩
  rw [of_collect h.distinct, ← h.window]
  exact forgets_filter r.window now (r.of a)

theorem Usual.recordFailure {r : RateLimiter} (h : r.Usual) (address : Address) (now : Nat) :
    (r.recordFailure address now).Usual := ⟨h.maxFailures, h.window, h.distinct.put _ _⟩

/-- A failure is added behind those inside the window. -/
theorem of_recordFailure {r : RateLimiter} (h : r.Usual) (address a : Address) (now : Nat) :
    ∃ times, Forgets standard.window now (r.of a) times ∧
      (r.recordFailure address now).of a = if a = address then times ++ [now] else times := by
  rw [RateLimiter.recordFailure, of_put]
  split
  · rename_i ha
    refine ⟨r.recent address now, ?_, rfl⟩
    rw [ha, ← h.window]
    exact forgets_dropWhile r.window now (r.of address)
  · exact ⟨r.of a, .refl _ _ _, rfl⟩

/-- An address may try a handshake only while a failure more does not exceed the limit. -/
theorem length_of_allows {r : RateLimiter} (h : r.Usual) {address : Address} {now : Nat}
    (hallowed : (r.allows address now).2 = true) :
    ((r.allows address now).1.of address).length < standard.maxFailures := by
  rw [allows, of_put, if_pos rfl, ← h.maxFailures]
  exact of_decide_eq_true hallowed

end RateLimiter

end FleetControl

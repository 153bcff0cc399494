import FleetControl.Proofs.RateLimiter
import Mathlib.Data.List.Induction

/-! # The answers of a limiter

A limiter prunes what it remembers whenever it is asked, and only in front. Over a history whose
clock never goes back it still answers as if it had forgotten nothing: by the failures of the
address that lie inside the window. -/
namespace FleetControl.RateLimiter

/-- What a limiter can be called with. -/
inductive Call where
  | allows (address : Address)
  | recordFailure (address : Address)
  | collect
  deriving DecidableEq

/-- Whether a call is about an address. A collection is about none. -/
def Call.about (a : Address) : Call → Bool
  | .allows b | .recordFailure b => b = a
  | .collect => false

def serve (r : RateLimiter) (now : Nat) : Call → RateLimiter
  | .allows a => (r.allows a now).1
  | .recordFailure a => r.recordFailure a now
  | .collect => r.collect now

/-- A limiter after calls at their times. -/
def after (r : RateLimiter) (calls : List (Nat × Call)) : RateLimiter :=
  calls.foldl (fun r call => r.serve call.1 call.2) r

/-- The times at which failures of an address were recorded. -/
def recorded (a : Address) (calls : List (Nat × Call)) : List Nat :=
  (calls.filter fun call => call.2 = .recordFailure a).map (·.1)

/-- The failures of an address recorded later than a window ago. -/
def counting (window : Nat) (a : Address) (now : Nat) (calls : List (Nat × Call)) : Nat :=
  ((recorded a calls).filter fun t : Nat => (now : Int) - window < t).length

theorem after_concat (r : RateLimiter) (calls : List (Nat × Call)) (now : Nat) (call : Call) :
    r.after (calls ++ [(now, call)]) = (r.after calls).serve now call := by simp [after]

theorem recorded_concat (a : Address) (calls : List (Nat × Call)) (now : Nat) (call : Call) :
    recorded a (calls ++ [(now, call)]) =
      recorded a calls ++ if call = .recordFailure a then [now] else [] := by
  by_cases hcall : call = .recordFailure a <;> simp [recorded, List.filter_append, hcall]

theorem recorded_about (a : Address) (calls : List (Nat × Call)) :
    recorded a (calls.filter fun call => call.2.about a) = recorded a calls := by
  unfold recorded
  rw [List.filter_filter]
  refine congrArg _ (List.filter_congr fun call _ => ?_)
  by_cases hcall : call.2 = .recordFailure a <;> simp [hcall, Call.about]

section Windows
variable {window now : Nat}

/-- In a list that is in order, what is too old stands in front. -/
theorem dropWhile_eq_filter {times : List Nat} (h : times.Pairwise (· ≤ ·)) :
    (times.dropWhile fun t => now - t ≥ window) = times.filter fun t => now - t < window := by
  induction times with
  | nil => rfl
  | cons t rest ih =>
    have hrest := List.pairwise_cons.mp h
    by_cases hold : now - t ≥ window
    · simpa [hold, Nat.not_lt.mpr hold] using ih hrest.2
    · have hall : rest.filter (fun t => Decidable.decide (now - t < window)) = rest := by
        refine List.filter_eq_self.mpr fun u hu => ?_
        have := hrest.1 u hu
        simp only [decide_eq_true_eq]
        omega
      simp [hold, Nat.not_le.mp hold, hall]

/-- What counts later counts already now. -/
theorem filter_filter_of_le {later : Nat} (h : now ≤ later) (times : List Nat) :
    ((times.filter fun t => now - t < window).filter fun t => later - t < window) =
      times.filter fun t => later - t < window := by
  rw [List.filter_filter]
  refine List.filter_congr fun t _ => ?_
  simp only [Bool.and_eq_decide, decide_eq_true_eq, decide_eq_decide]
  omega

end Windows

/-- What a limiter holds of an address stands for all failures that were recorded: from now on as
many of them count. -/
structure Recalls (window now : Nat) (held times : List Nat) : Prop where
  inOrder : held.Pairwise (· ≤ ·)
  past : ∀ t ∈ held, t ≤ now
  counts : ∀ later, now ≤ later →
    (held.filter fun t => later - t < window) = times.filter fun t => later - t < window

section Recall
variable {window now : Nat} {held times : List Nat}

theorem recalls_nil : Recalls window now [] [] := ⟨List.Pairwise.nil, by simp, by simp⟩

theorem Recalls.wait (h : Recalls window now held times) {later : Nat} (hle : now ≤ later) :
    Recalls window later held times :=
  ⟨h.inOrder, fun t ht => Nat.le_trans (h.past t ht) hle,
    fun last hlast => h.counts last (Nat.le_trans hle hlast)⟩

theorem Recalls.filter (h : Recalls window now held times) :
    Recalls window now (held.filter fun t => now - t < window) times where
  inOrder := h.inOrder.filter _
  past t ht := h.past t (List.mem_filter.mp ht).1
  counts later hle := (filter_filter_of_le hle held).trans (h.counts later hle)

theorem Recalls.dropWhile (h : Recalls window now held times) :
    Recalls window now (held.dropWhile fun t => now - t ≥ window) times := by
  rw [dropWhile_eq_filter h.inOrder]
  exact h.filter

theorem Recalls.concat (h : Recalls window now held times) :
    Recalls window now (held ++ [now]) (times ++ [now]) where
  inOrder := by
    refine List.pairwise_append.mpr ⟨h.inOrder, List.pairwise_singleton .., fun t ht u hu => ?_⟩
    rw [List.mem_singleton.mp hu]
    exact h.past t ht
  past t ht := by
    rcases List.mem_append.mp ht with ht | ht
    · exact h.past t ht
    · exact Nat.le_of_eq (List.mem_singleton.mp ht)
  counts later hle := by rw [List.filter_append, List.filter_append, h.counts later hle]

end Recall

/-- A limiter that answers from a history up to a time. -/
structure Answers (max span now : Nat) (calls : List (Nat × Call)) (r : RateLimiter) : Prop where
  maxFailures : r.maxFailures = max
  window : r.window = span
  distinct : r.failures.Distinct
  recalls : ∀ a, Recalls span now (r.of a) (recorded a calls)

section Answer
variable {max window now : Nat} {calls : List (Nat × Call)} {r : RateLimiter}

theorem Answers.serve (h : Answers max window now calls r) {later : Nat} (hle : now ≤ later)
    (call : Call) : Answers max window later (calls ++ [(later, call)]) (r.serve later call) := by
  have hrecalls := fun a => (h.recalls a).wait hle
  cases call with
  | allows b =>
    refine ⟨h.maxFailures, h.window, h.distinct.put _ _, fun a => ?_⟩
    rw [recorded_concat, if_neg (by simp), List.append_nil, RateLimiter.serve, allows, of_put]
    split
    · rename_i hab
      rw [hab, recent, prune, h.window]
      exact (hrecalls b).dropWhile
    · exact hrecalls a
  | recordFailure b =>
    refine ⟨h.maxFailures, h.window, h.distinct.put _ _, fun a => ?_⟩
    rw [recorded_concat, RateLimiter.serve, RateLimiter.recordFailure, of_put]
    by_cases hab : a = b
    · rw [if_pos hab, if_pos (congrArg _ hab.symm), hab, recent, prune, h.window]
      exact (hrecalls b).dropWhile.concat
    · rw [if_neg hab, if_neg fun hcall => hab (Call.recordFailure.inj hcall).symm, List.append_nil]
      exact hrecalls a
  | collect =>
    refine ⟨h.maxFailures, h.window, distinct_collect h.distinct later, fun a => ?_⟩
    rw [recorded_concat, if_neg (by simp), List.append_nil, RateLimiter.serve,
      of_collect h.distinct, h.window]
    exact (hrecalls a).filter

theorem answers_after (max window : Nat) (htimes : calls.Pairwise (·.1 ≤ ·.1))
    (hnow : ∀ call ∈ calls, call.1 ≤ now) :
    Answers max window now calls (after ⟨max, window, []⟩ calls) := by
  induction calls using List.reverseRecOn generalizing now with
  | nil => exact ⟨rfl, rfl, List.nodup_nil, fun _ => recalls_nil⟩
  | append_singleton calls call ih =>
    obtain ⟨hcalls, -, hlast⟩ := List.pairwise_append.mp htimes
    have hbefore := ih hcalls fun other ho => hlast other ho call (List.mem_singleton_self call)
    rw [after_concat]
    have hserved := hbefore.serve (Nat.le_refl call.1) call.2
    refine ⟨hserved.maxFailures, hserved.window, hserved.distinct, fun a => ?_⟩
    exact (hserved.recalls a).wait (hnow call (by simp))

theorem Answers.allows_iff (h : Answers max window now calls r) (a : Address)
    (hnow : ∀ call ∈ calls, call.1 ≤ now) :
    (r.allows a now).2 = true ↔ counting window a now calls < max := by
  have hheld : r.recent a now = (recorded a calls).filter fun t => now - t < window := by
    rw [recent, prune, h.window]
    exact (dropWhile_eq_filter (h.recalls a).inOrder).trans
      ((h.recalls a).counts now (Nat.le_refl now))
  have hcount : (recorded a calls).filter (fun t => Decidable.decide (now - t < window)) =
      (recorded a calls).filter fun t : Nat => (now : Int) - window < t := by
    refine List.filter_congr fun t ht => ?_
    obtain ⟨call, hcall, rfl⟩ := List.mem_map.mp ht
    have := hnow call (List.mem_filter.mp hcall).1
    simp only [decide_eq_decide]
    omega
  simp only [allows, decide_eq_true_eq, hheld, hcount, h.maxFailures, counting]

end Answer

/-- Over every history an address is allowed exactly while fewer failures than the limit were
recorded for it within the window, and calls about other addresses and collections do not
matter. -/
theorem allows_iff_counting (max window : Nat) (calls : List (Nat × Call))
    (htimes : calls.Pairwise (·.1 ≤ ·.1)) (before later : List (Nat × Call)) (now : Nat)
    (a : Address) (hcalls : calls = before ++ (now, .allows a) :: later) :
    (((after ⟨max, window, []⟩ before).allows a now).2 = true ↔
        counting window a now before < max) ∧
      ((after ⟨max, window, []⟩ (before.filter fun call => call.2.about a)).allows a now).2 =
        ((after ⟨max, window, []⟩ before).allows a now).2 := by
  subst calls
  obtain ⟨hbefore, -, hnow⟩ := List.pairwise_append.mp htimes
  have hpast : ∀ call ∈ before, call.1 ≤ now := fun call hcall =>
    hnow call hcall _ (List.mem_cons_self ..)
  have hiff := (answers_after max window hbefore hpast).allows_iff a hpast
  refine ⟨hiff, ?_⟩
  have hpast' : ∀ call ∈ before.filter fun call => call.2.about a, call.1 ≤ now :=
    fun call hcall => hpast call (List.mem_filter.mp hcall).1
  have hiff' := (answers_after max window (hbefore.filter _) hpast').allows_iff a hpast'
  rw [Bool.eq_iff_iff, hiff, hiff', counting, counting, recorded_about]

/-- A failure counts for less than the window, however often the limiter was swept in between. -/
theorem allows_iff_counting_boundary :
    let calls : List (Nat × Call) :=
      [(0, .recordFailure (.v4 [10, 0, 0, 1])), (7, .recordFailure (.v4 [10, 0, 0, 2])),
        (59990, .collect)]
    ((after ⟨1, 60000, []⟩ calls).allows (.v4 [10, 0, 0, 1]) 59999).2 ≠ true ∧
      ((after ⟨1, 60000, []⟩ calls).allows (.v4 [10, 0, 0, 1]) 60000).2 = true := by
  constructor
  · rw [ne_eq, (allows_iff_counting 1 60000 _ (by decide) _ [] 59999 _ rfl).1]
    decide
  · exact (allows_iff_counting 1 60000 _ (by decide) _ [] 60000 _ rfl).1.mpr (by decide)

end FleetControl.RateLimiter

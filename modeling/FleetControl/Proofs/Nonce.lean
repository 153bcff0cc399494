import FleetControl.Cluster.Session
import FleetControl.Proofs.Envelope
import FleetControl.Proofs.Json.Records

/-! # Strict nonces

A strict tracker over any history of checks, with nonces and clock readings anywhere in their
64-bit range. The distance between them is a 64-bit word as well, so a nonce about half the range
or nearly the whole range away from the clock passes as close to it. The watermark holds
regardless: accepted nonces increase, and no text is taken twice on one connection. -/
namespace FleetControl

namespace NonceTracker

structure Check where
  nonce : Int64
  now : Int64

/-- The exact distance of a nonce from the clock. -/
def Check.distance (k : Check) : Nat := (k.nonce.toInt - k.now.toInt).natAbs

/-- How far nonce and clock may be apart for the check to take them as close: their distance as a
word wraps around. -/
def Check.SeemsNear (k : Check) : Prop :=
  k.distance ≤ 300 ∨ k.distance = 2 ^ 63 ∨ 2 ^ 64 - 300 ≤ k.distance

instance (k : Check) : Decidable k.SeemsNear :=
  inferInstanceAs (Decidable (_ ≤ _ ∨ _ = _ ∨ _ ≤ _))

/-- A tracker together with the checks that it has accepted, in their order. -/
structure History where
  tracker : NonceTracker
  accepted : List Check := []

def History.record (h : History) (k : Check) : History :=
  match h.tracker.check k.nonce k.now with
  | .ok tracker => ⟨tracker, h.accepted ++ [k]⟩
  | .error _ => h

/-- The history of a fresh strict tracker. -/
def strictHistory (checks : List Check) : History :=
  checks.foldl History.record ⟨{ policy := .strict }, []⟩

/-- A nonce is above all that were accepted. -/
def History.Below (h : History) (k : Check) : Prop := ∀ a ∈ h.accepted, a.nonce < k.nonce

instance (h : History) (k : Check) : Decidable (h.Below k) :=
  inferInstanceAs (Decidable (∀ a ∈ h.accepted, _))

/-- The watermark of a strict tracker is the last of the nonces that it accepted, which increase. -/
structure Watermark (h : History) : Prop where
  strict : h.tracker.policy = .strict
  last : h.tracker.last = h.accepted.getLast?.map Check.nonce
  increasing : h.accepted.Pairwise fun a b => a.nonce < b.nonce

theorem magnitude_toInt (x : Int64) :
    (magnitude x).toInt = if x.toInt = -2 ^ 63 then -2 ^ 63 else (x.toInt.natAbs : Int) := by
  have hlow := x.le_toInt
  have hhigh := x.toInt_lt
  unfold magnitude
  by_cases hneg : x < 0
  · have hneg' := Int64.lt_iff_toInt_lt.mp hneg
    rw [if_pos hneg, Int64.toInt_neg]
    rw [Int64.toInt_zero] at hneg'
    split
    · rename_i hleast
      rw [hleast]
      decide
    · rw [Int.bmod_eq_of_le (by omega) (by omega)]
      omega
  · have hneg' : ¬ x.toInt < 0 := by
      intro h
      exact hneg (Int64.lt_iff_toInt_lt.mpr h)
    rw [if_neg hneg, if_neg (by omega)]
    omega

theorem skewed_iff (k : Check) : magnitude (k.nonce - k.now) > maxSkew ↔ ¬ k.SeemsNear := by
  have hn := k.nonce.le_toInt
  have hn' := k.nonce.toInt_lt
  have hm := k.now.le_toInt
  have hm' := k.now.toInt_lt
  have hskew : maxSkew.toInt = 300 := by decide
  rw [gt_iff_lt, Int64.lt_iff_toInt_lt, magnitude_toInt, Int64.toInt_sub, hskew]
  unfold Check.SeemsNear Check.distance
  -- The distance wraps at most once, so there are three places where it can be.
  by_cases hhigh : k.nonce.toInt - k.now.toInt < 2 ^ 63
  · by_cases hlow : -2 ^ 63 ≤ k.nonce.toInt - k.now.toInt
    · rw [Int.bmod_eq_of_le (by omega) (by omega)]
      split <;> omega
    · rw [← Int.add_bmod_right, Int.bmod_eq_of_le (by omega) (by omega)]
      split <;> omega
  · rw [← Int.sub_bmod_right, Int.bmod_eq_of_le (by omega) (by omega)]
    split <;> omega

theorem check_strict {t : NonceTracker} (hstrict : t.policy = .strict) (k : Check) :
    (t.check k.nonce k.now = .ok ⟨.strict, some k.nonce⟩ ∧ k.SeemsNear ∧
      ∀ last, t.last = some last → last < k.nonce) ∨
    ∃ reason, t.check k.nonce k.now = .error (.auth reason) ∧
      ¬ (k.SeemsNear ∧ ∀ last, t.last = some last → last < k.nonce) := by
  obtain ⟨_, last⟩ := t
  cases hstrict
  by_cases hnear : k.SeemsNear
  · have hskew : ¬ magnitude (k.nonce - k.now) > maxSkew := fun h => (skewed_iff k).mp h hnear
    cases last with
    | none => exact .inl ⟨by simp only [check, refusal?, if_neg hskew, latest], hnear, nofun⟩
    | some last =>
      by_cases hle : k.nonce ≤ last
      · refine .inr ⟨_, by simp only [check, refusal?, if_neg hskew, if_pos hle]; rfl, ?_⟩
        intro hboth
        exact Int64.lt_irrefl (Int64.lt_of_le_of_lt hle (hboth.2 last rfl))
      · have hlt : last < k.nonce := Int64.not_le.mp hle
        refine .inl ⟨?_, hnear, fun _ h => Option.some.inj h ▸ hlt⟩
        simp only [check, refusal?, if_neg hskew, if_neg hle, latest, if_pos hlt]
  · have hskew := (skewed_iff k).mpr hnear
    exact .inr ⟨_, by simp only [check, refusal?, if_pos hskew]; rfl, fun h => hnear h.1⟩

namespace Watermark

variable {h : History}

theorem initial : Watermark ⟨{ policy := .strict }, []⟩ := ⟨rfl, rfl, .nil⟩

theorem below_iff (hw : Watermark h) (k : Check) :
    h.Below k ↔ ∀ last, h.tracker.last = some last → last < k.nonce := by
  obtain ⟨-, hlast, hincreasing⟩ := hw
  unfold History.Below
  rw [hlast]
  rcases List.eq_nil_or_concat h.accepted with hnone | ⟨before, b, hsnoc⟩
  · simp [hnone]
  · rw [hsnoc, List.concat_eq_append] at hincreasing ⊢
    have hb : ∀ a ∈ before, a.nonce < b.nonce := fun a ha =>
      (List.pairwise_append.mp hincreasing).2.2 a ha b (List.mem_singleton_self b)
    simp only [List.getLast?_append, List.getLast?_singleton, Option.some_or, Option.map_some,
      Option.some.injEq, forall_eq', List.mem_append, List.mem_singleton]
    constructor
    · intro hbelow
      exact hbelow b (.inr rfl)
    · rintro hk a (ha | rfl)
      · exact Int64.lt_trans (hb a ha) hk
      · exact hk

/-- A check is accepted exactly if its nonce seems close to the clock and is above all that were
accepted before; a refused one leaves the history as it was. -/
theorem check (hw : Watermark h) (k : Check) :
    (h.tracker.check k.nonce k.now = .ok ⟨.strict, some k.nonce⟩ ∧ k.SeemsNear ∧ h.Below k) ∨
    ∃ reason, h.tracker.check k.nonce k.now = .error (.auth reason) ∧
      ¬ (k.SeemsNear ∧ h.Below k) := by
  rw [hw.below_iff k]
  exact check_strict hw.strict k

theorem record (hw : Watermark h) (k : Check) : Watermark (h.record k) := by
  unfold History.record
  rcases hw.check k with ⟨hok, -, hbelow⟩ | ⟨reason, herror, -⟩
  · rw [hok]
    refine ⟨rfl, by simp, ?_⟩
    rw [List.pairwise_append]
    refine ⟨hw.increasing, List.pairwise_singleton .., ?_⟩
    rintro a ha b hb
    rw [List.mem_singleton.mp hb]
    exact hbelow a ha
  · rw [herror]
    exact hw

end Watermark

theorem watermark_run {h : History} (hw : Watermark h) (checks : List Check) :
    Watermark (checks.foldl History.record h) := by
  induction checks generalizing h with
  | nil => exact hw
  | cons k rest ih => exact ih (hw.record k)

end NonceTracker

namespace Cluster

/-- The texts that a session takes as signed messages with acceptable nonces, each in the state in
which it arrives, until the first that ends the session. -/
def taken (p : Nat) (session : SessionState) : List (Cluster × String) → List String
  | [] => []
  | (c, raw) :: rest =>
    match (c.takeText p session raw).2 with
    | some nonces => raw :: taken p { session with nonces := nonces } rest
    | none => []

/-- One text has an envelope's nonce below that of another. -/
def Precedes (raw raw' : String) : Prop :=
  ∃ e e', Envelope.parse? raw = some e ∧ Envelope.parse? raw' = some e' ∧ e.nonce < e'.nonce

theorem Precedes.ne {raw raw' : String} (h : Precedes raw raw') : raw ≠ raw' := by
  rintro rfl
  obtain ⟨e, e', he, he', hlt⟩ := h
  obtain rfl := Option.some.inj (he.symm.trans he')
  exact absurd hlt (Int.lt_irrefl _)

/-- The nonce of an envelope is read as a 64-bit word. -/
theorem nonce_toInt {raw : String} {e : Envelope} (h : Envelope.parse? raw = some e) :
    (Int64.ofInt e.nonce).toInt = e.nonce := by
  obtain ⟨tree, -, h⟩ := Option.bind_eq_some_iff.mp h
  obtain ⟨parts, -, h⟩ := Option.bind_eq_some_iff.mp h
  split at h
  · rename_i part payload mac
    obtain ⟨n, hn, h⟩ := Option.bind_eq_some_iff.mp h
    obtain ⟨value, -, h⟩ := Option.bind_eq_some_iff.mp h
    obtain ⟨text, -, h⟩ := Option.bind_eq_some_iff.mp h
    cases h
    obtain ⟨hlow, hhigh⟩ := Json.int64_bounds hn
    exact Int64.toInt_ofInt_of_le (by simpa using hlow) (by simp; omega)
  · cases h

theorem takeText_nonces {c : Cluster} {p : Nat} {session : SessionState} {raw : String}
    {nonces : NonceTracker} (h : (c.takeText p session raw).2 = some nonces) :
    ∃ e, Envelope.parse? raw = some e ∧
      session.nonces.check (.ofInt e.nonce) (.ofNat c.wallSeconds) = .ok nonces := by
  unfold takeText at h
  rcases Envelope.open_cases raw session.device.apiKey session.device.sharedSecret with
    ⟨e, he, -, hok⟩ | ⟨reason, herror, -⟩
  · rw [hok] at h
    simp only at h
    split at h
    · cases h
    · rename_i tracker hcheck
      split at h
      · cases h
      · cases h
        exact ⟨e, he, hcheck⟩
  · rw [herror] at h
    cases h

theorem taken_increasing {p : Nat} {session : SessionState}
    (hstrict : session.nonces.policy = .strict) (frames : List (Cluster × String)) :
    (∀ raw ∈ taken p session frames, ∃ e, Envelope.parse? raw = some e ∧
      ∀ last, session.nonces.last = some last → last.toInt < e.nonce) ∧
    (taken p session frames).Pairwise Precedes := by
  induction frames generalizing session with
  | nil => exact ⟨by simp [taken], .nil⟩
  | cons frame rest ih =>
    obtain ⟨c, raw⟩ := frame
    unfold taken
    cases htake : (c.takeText p session raw).2 with
    | none => exact ⟨by simp, .nil⟩
    | some nonces =>
      obtain ⟨e, he, hcheck⟩ := takeText_nonces htake
      have hword := nonce_toInt he
      obtain ⟨hok, -, hlast⟩ | ⟨reason, herror, -⟩ :=
        NonceTracker.check_strict hstrict ⟨.ofInt e.nonce, .ofNat c.wallSeconds⟩
      · obtain rfl := Except.ok.inj (hcheck.symm.trans hok)
        obtain ⟨habove, hpair⟩ :=
          @ih { session with nonces := ⟨.strict, some (.ofInt e.nonce)⟩ } rfl
        have hfirst : ∀ last, session.nonces.last = some last → last.toInt < e.nonce := by
          intro last hl
          exact hword ▸ Int64.lt_iff_toInt_lt.mp (hlast last hl)
        refine ⟨?_, List.pairwise_cons.mpr ⟨?_, hpair⟩⟩
        · intro raw' hraw'
          obtain rfl | hraw' := List.mem_cons.mp hraw'
          · exact ⟨e, he, hfirst⟩
          · obtain ⟨e', he', hlt⟩ := habove raw' hraw'
            exact ⟨e', he', fun last hl => Int.lt_trans (hfirst last hl) (hword ▸ hlt _ rfl)⟩
        · intro raw' hraw'
          obtain ⟨e', he', hlt⟩ := habove raw' hraw'
          exact ⟨e, e', he, he', hword ▸ hlt _ rfl⟩
      · cases hcheck.symm.trans herror

end Cluster

namespace NonceTracker

end NonceTracker

end FleetControl

import FleetControl.Decimal.Double
import Mathlib.Tactic.Ring
import Mathlib.Tactic.SplitIfs

/-! # Magnitudes of rounded numbers

A quotient below a power of two is rounded to a double whose stored exponent is bounded by that
power, so arithmetic on moderate magnitudes stays finite. Reading a decimal fails only where such
a bound is passed. -/
namespace FleetControl.Double

theorem scaled_lt {num den a b c : Nat} {e : Int} (hnum : num < 2 ^ a) (hden : 2 ^ b ≤ den)
    (h : (a : Int) + e ≤ b + c) : (scaled num den e).1 < (scaled num den e).2 * 2 ^ c := by
  unfold scaled
  split
  · calc num * 2 ^ e.toNat
        < 2 ^ a * 2 ^ e.toNat := Nat.mul_lt_mul_of_pos_right hnum (Nat.two_pow_pos _)
      _ = 2 ^ (a + e.toNat) := (Nat.pow_add ..).symm
      _ ≤ 2 ^ (b + c) := Nat.pow_le_pow_right (by decide) (by omega)
      _ = 2 ^ b * 2 ^ c := Nat.pow_add ..
      _ ≤ den * 2 ^ c := Nat.mul_le_mul_right _ hden
  · calc num < 2 ^ a := hnum
      _ ≤ 2 ^ (b + (-e).toNat + c) := Nat.pow_le_pow_right (by decide) (by omega)
      _ = 2 ^ b * 2 ^ (-e).toNat * 2 ^ c := by rw [Nat.pow_add, Nat.pow_add]
      _ ≤ den * 2 ^ (-e).toNat * 2 ^ c :=
        Nat.mul_le_mul_right _ (Nat.mul_le_mul_right _ hden)

theorem scaled_den_pos {num den : Nat} (h : 0 < den) (e : Int) : 0 < (scaled num den e).2 := by
  unfold scaled
  split
  · exact h
  · exact Nat.mul_pos h (Nat.two_pow_pos _)

theorem roundHalfEven_le (num den : Nat) : roundHalfEven num den ≤ num / den + 1 := by
  unfold roundHalfEven
  dsimp only
  split_ifs <;> omega

theorem lastPlace_ge (num den : Nat) :
    (Nat.log2 num : Int) - (Nat.log2 den : Int) - 53 ≤ lastPlace num den := by
  unfold lastPlace
  dsimp only
  split_ifs <;> omega

theorem log_le_of_lt {num den c : Nat} (h : num < den * 2 ^ c) :
    Nat.log2 num ≤ Nat.log2 den + c := by
  rcases Nat.eq_zero_or_pos num with rfl | hpos
  · simp
  · have hden : den < 2 ^ (Nat.log2 den + 1) := Nat.lt_log2_self
    have hlt : Nat.log2 num < Nat.log2 den + 1 + c := by
      rw [Nat.log2_lt (Nat.ne_of_gt hpos), Nat.pow_add]
      exact Nat.lt_of_lt_of_le h (Nat.mul_le_mul_right _ (Nat.le_of_lt hden))
    omega

theorem lastPlace_le {num den b : Nat} (h : num < den * 2 ^ b) :
    lastPlace num den ≤ (b : Int) - 52 ∨ lastPlace num den = -1074 := by
  have hlog := log_le_of_lt h
  unfold lastPlace
  dsimp only
  split_ifs <;> omega

/-- The digits that are kept before rounding, in the last place, fit 54 bits. -/
theorem kept_lt (num : Nat) {den : Nat} (hd : 0 < den) :
    (scaled num den (-lastPlace num den)).1 / (scaled num den (-lastPlace num den)).2 < 2 ^ 54 := by
  rw [Nat.div_lt_iff_lt_mul (scaled_den_pos hd _), Nat.mul_comm]
  have hge := lastPlace_ge num den
  exact scaled_lt Nat.lt_log2_self (Nat.log2_self_le (Nat.ne_of_gt hd)) (by omega)

theorem biased_ofNat_le (n : Nat) (h : n < 2 ^ 64) :
    (Double.mk (UInt64.ofNat n)).biased ≤ n / 2 ^ 52 := by
  have hn : (UInt64.ofNat n).toNat = n := UInt64.toNat_ofNat_of_lt h
  simp only [biased, hn]
  exact Nat.mod_le _ _

/-- The stored exponent of a rounded quotient is bounded by a power above the quotient. -/
theorem biased_ofRatio_le {num den b : Nat} (hd : 0 < den) (h : num < den * 2 ^ b)
    (hb : b ≤ 1020) : (ofRatio num den).biased ≤ b + 1026 := by
  unfold ofRatio
  split_ifs with hzero
  · exact Nat.zero_le _
  · have hplace := lastPlace_le h
    have hround := roundHalfEven_le (scaled num den (-lastPlace num den)).1
      (scaled num den (-lastPlace num den)).2
    have hkept := kept_lt num hd
    dsimp only
    generalize roundHalfEven (scaled num den (-lastPlace num den)).1
      (scaled num den (-lastPlace num den)).2 = q at *
    generalize lastPlace num den = e at *
    have hstored : ∀ s : Nat, s ≤ (b + 1026) * 2 ^ 52 →
        (if s ≥ 2047 * 2 ^ 52 then Double.mk (UInt64.ofNat (2047 * 2 ^ 52))
          else ⟨UInt64.ofNat s⟩).biased ≤ b + 1026 := by
      intro s hs
      rw [if_neg (by omega)]
      exact Nat.le_trans (biased_ofNat_le s (by omega)) (by omega)
    apply hstored
    split_ifs <;> omega

theorem biased_natural_le {n b : Nat} (h : n < 2 ^ b) (hb : b ≤ 1020) :
    (ofNat n).biased ≤ b + 1026 :=
  biased_ofRatio_le Nat.one_pos (by rwa [Nat.one_mul]) hb

theorem significand_lt (d : Double) : d.significand < 2 ^ 53 := by
  have hfraction : d.fraction < 2 ^ 52 := Nat.mod_lt _ (Nat.two_pow_pos _)
  unfold significand
  split <;> omega

theorem exponent_le {d : Double} {c : Nat} (h : d.biased ≤ c + 1022) : 53 + d.exponent ≤ c := by
  unfold exponent
  split <;> omega

theorem ratio_lt {d : Double} {c : Nat} (h : d.biased ≤ c + 1022) :
    d.ratio.1 < d.ratio.2 * 2 ^ c := by
  have he := exponent_le h
  exact scaled_lt (b := 0) (significand_lt d) (Nat.le_refl 1) (by omega)

theorem ratio_den_pos (d : Double) : 0 < d.ratio.2 := scaled_den_pos Nat.one_pos _

theorem biased_mul_le {a b : Double} {i j : Nat} (ha : a.biased ≤ i + 1022)
    (hb : b.biased ≤ j + 1022) (h : i + j ≤ 1020) : (mul a b).biased ≤ i + j + 1026 := by
  refine biased_ofRatio_le (Nat.mul_pos a.ratio_den_pos b.ratio_den_pos) ?_ h
  calc a.ratio.1 * b.ratio.1
      < (a.ratio.2 * 2 ^ i) * (b.ratio.2 * 2 ^ j) := Nat.mul_lt_mul'' (ratio_lt ha) (ratio_lt hb)
    _ = a.ratio.2 * b.ratio.2 * 2 ^ (i + j) := by
      rw [Nat.pow_add, Nat.mul_mul_mul_comm]

theorem biased_add_le {a b : Double} {i : Nat} (ha : a.biased ≤ i + 1022)
    (hb : b.biased ≤ i + 1022) (h : i + 1 ≤ 1020) : (add a b).biased ≤ i + 1 + 1026 := by
  refine biased_ofRatio_le (Nat.mul_pos a.ratio_den_pos b.ratio_den_pos) ?_ h
  have hleft := Nat.mul_lt_mul_of_pos_right (ratio_lt ha) b.ratio_den_pos
  have hright := Nat.mul_lt_mul_of_pos_right (ratio_lt hb) a.ratio_den_pos
  calc a.ratio.1 * b.ratio.2 + b.ratio.1 * a.ratio.2
      < a.ratio.2 * 2 ^ i * b.ratio.2 + b.ratio.2 * 2 ^ i * a.ratio.2 :=
        Nat.add_lt_add hleft hright
    _ = a.ratio.2 * b.ratio.2 * 2 ^ (i + 1) := by ring

/-- A negative power of ten is always taken, in at most as many steps as there is fuel. -/
theorem scaleTen_down (f : Double) {e : Int} {fuel : Nat} (hneg : e < 0)
    (hfuel : -(308 * fuel : Int) ≤ e) : ∃ d, scaleTen f e fuel = some d := by
  induction fuel generalizing f e with
  | zero => omega
  | succ fuel ih =>
    have hsign : ¬ e ≥ 0 := by omega
    by_cases hsmall : e.natAbs ≤ 308
    · exact ⟨_, by rw [scaleTen, if_pos hsmall, if_neg hsign]⟩
    · by_cases hzero : f.isZero = true
      · exact ⟨f, by rw [scaleTen, if_neg hsmall, if_pos hzero]⟩
      · rw [scaleTen, if_neg hsmall, if_neg hzero, if_neg hsign]
        exact ih _ (by omega) (by omega)

theorem biased_ten_le {k : Nat} (hk : k ≤ 200) : (ofNat (10 ^ k)).biased ≤ 4 * k + 1 + 1026 := by
  refine biased_natural_le ?_ (by omega)
  calc 10 ^ k ≤ (2 ^ 4) ^ k := Nat.pow_le_pow_left (by decide) k
    _ = 2 ^ (4 * k) := (Nat.pow_mul ..).symm
    _ < 2 ^ (4 * k + 1) := Nat.pow_lt_pow_right (by decide) (Nat.lt_succ_self _)

/-- A decimal is read unless its exponent is too large, or far beyond the smallest double. -/
theorem ofDecimal_some {significand : Nat} {e : Int} (hs : significand < 2 ^ 64) (hlow : -4900 ≤ e)
    (hhigh : e ≤ 200) : ∃ d, ofDecimal? significand e = some d := by
  rcases lt_or_ge e 0 with hneg | hpos
  · exact scaleTen_down _ hneg (by omega)
  · have hten := biased_ten_le (k := e.toNat) (by omega)
    have hfinite : (mul (ofNat significand) (ofNat (10 ^ e.toNat))).isFinite = true := by
      have h := biased_mul_le (i := 68) (j := 4 * e.toNat + 5)
        (biased_natural_le hs (by decide)) hten (by omega)
      simp only [isFinite, decide_eq_true_eq]
      omega
    refine ⟨mul (ofNat significand) (ofNat (10 ^ e.toNat)), ?_⟩
    unfold ofDecimal? scaleTen
    rw [if_pos (by omega), if_pos hpos]
    dsimp only
    rw [if_pos hfinite]

end FleetControl.Double

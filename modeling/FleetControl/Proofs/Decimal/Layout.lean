import FleetControl.Decimal.Shortest
import FleetControl.Proofs.Decimal.Numeral
import Mathlib.Tactic.NormNum
import Mathlib.Tactic.Ring

/-! # Written doubles

The shortest decimal of a double is laid out as a literal. The digits of a double that is not too
large stay within bounds, so its text is always read as a number again, though perhaps not as the
same one. -/
namespace FleetControl.Shortest

open FleetControl.Tree (numeral Literal)

/-- One digit, the others behind a point, and an exponent. -/
def scientific (negative : Bool) (ds : List Nat) (e : Int) : Literal where
  negative := negative
  whole := ds.take 1
  fraction := if ds.length ≤ 1 then none else some (ds.drop 1)
  exponent := some ⟨decide (e < 0), numeral e.natAbs⟩

/-- The literal that a layout writes. -/
def literal (negative : Bool) (n : Nat) (k : Int) : Literal :=
  let ds := numeral n
  let point : Int := (ds.length : Int) + k
  if 0 ≤ k ∧ point ≤ 16 then ⟨negative, ds ++ List.replicate k.toNat 0, some [0], none⟩
  else if 0 < point ∧ point ≤ 16 then
    ⟨negative, ds.take point.toNat, some (ds.drop point.toNat), none⟩
  else if -5 < point ∧ point ≤ 0 then
    ⟨negative, [0], some (List.replicate (-point).toNat 0 ++ ds), none⟩
  else scientific negative ds (point - 1)

theorem toString_chars (n : Nat) : (toString n).toList = (numeral n).map Nat.digitChar := by
  rw [Tree.numeral_chars]
  exact Nat.toList_repr

theorem scientific_chars (negative : Bool) (ds : List Nat) (e : Int) :
    (match ds.map Nat.digitChar with
      | [] => []
      | [c] => [c]
      | c :: rest => c :: '.' :: rest) ++
        'e' :: (if e < 0 then '-' else '+') :: (toString e.natAbs).toList =
      (scientific negative ds e).chars := by
  rw [toString_chars]
  match ds with
  | [] => simp [scientific, Literal.chars, Tree.fractionChars, Tree.exponentChars]
  | [d] => simp [scientific, Literal.chars, Tree.fractionChars, Tree.exponentChars]
  | d :: d' :: ds => simp [scientific, Literal.chars, Tree.fractionChars, Tree.exponentChars]

theorem toList_layout (negative : Bool) (n : Nat) (k : Int) :
    (layout n k).toList = (literal negative n k).chars := by
  have hzero : Nat.digitChar 0 = '0' := rfl
  unfold layout literal
  dsimp only
  rw [toString_chars, List.length_map]
  by_cases hzeros : 0 ≤ k ∧ (numeral n).length + k ≤ 16
  · rw [if_pos hzeros, if_pos hzeros]
    simp [Literal.chars, Tree.fractionChars, Tree.exponentChars, hzero]
  · rw [if_neg hzeros, if_neg hzeros]
    by_cases hinside : 0 < (numeral n).length + k ∧ (numeral n).length + k ≤ 16
    · rw [if_pos hinside, if_pos hinside]
      simp [Literal.chars, Tree.fractionChars, Tree.exponentChars]
    · rw [if_neg hinside, if_neg hinside]
      by_cases hbefore : -5 < (numeral n).length + k ∧ (numeral n).length + k ≤ 0
      · rw [if_pos hbefore, if_pos hbefore]
        simp [Literal.chars, Tree.fractionChars, Tree.exponentChars, hzero]
      · rw [if_neg hbefore, if_neg hbefore, String.toList_ofList]
        exact scientific_chars negative _ _

theorem proper_scientific (negative : Bool) {ds : List Nat} (h : Tree.Digits ds) (hne : ds ≠ [])
    (e : Int) : (scientific negative ds e).Proper where
  whole := h.take 1
  present := by simp [scientific, hne]
  leading := by
    intro tail htail
    have hlen := congrArg List.length htail
    simp only [scientific, List.length_take, List.length_cons] at hlen
    exact List.length_eq_zero_iff.mp (by omega)
  fraction := by
    intro tail htail
    simp only [scientific] at htail
    split_ifs at htail with hshort
    · cases htail
    · obtain rfl := Option.some.inj htail
      refine ⟨h.drop 1, ?_⟩
      simp only [ne_eq, List.drop_eq_nil_iff]
      exact hshort
  exponent := by
    intro x hx
    obtain rfl := Option.some.inj hx
    exact ⟨Tree.digits_numeral _, Tree.numeral_ne_nil _⟩

/-- No digits but a single zero begin with a zero. -/
theorem proper_literal (negative : Bool) {n : Nat} {k : Int} (h : n = 0 → k = 0) :
    (literal negative n k).Proper := by
  have hdigits := Tree.digits_numeral n
  obtain ⟨d, tail, hd⟩ := List.exists_cons_of_ne_nil (Tree.numeral_ne_nil n)
  have hlead : d = 0 → n = 0 ∧ tail = [] := by
    rintro rfl
    exact Tree.numeral_leading hd
  unfold literal
  dsimp only
  split_ifs with hzeros hinside hbefore
  · refine ⟨by simp, by simp [hd], ?_, by simp, by simp⟩
    intro ds hds
    rw [hd, List.cons_append, List.cons.injEq] at hds
    obtain ⟨hn, rfl⟩ := hlead hds.1
    rw [← hds.2, h hn]
    rfl
  · obtain ⟨p, hp⟩ := Nat.exists_eq_succ_of_ne_zero (n := ((numeral n).length + k).toNat) (by omega)
    refine ⟨hdigits.take _, by rw [hp, hd]; simp, ?_, ?_, by simp⟩
    · intro ds hds
      rw [hp, hd, List.take_succ_cons, List.cons.injEq] at hds
      rw [← hds.2, (hlead hds.1).2, List.take_nil]
    · intro ds hds
      obtain rfl := Option.some.inj hds
      refine ⟨hdigits.drop _, ?_⟩
      simp only [ne_eq, List.drop_eq_nil_iff]
      omega
  · refine ⟨by simp, by simp, by simp, ?_, by simp⟩
    intro ds hds
    obtain rfl := Option.some.inj hds
    exact ⟨by simp, by simp [hd]⟩
  · exact proper_scientific negative hdigits (by simp [hd]) _

/-! ## The digits of a double -/

theorem decimal_zero (k : Int) : (decimal 0 k).num = 0 := by
  unfold decimal
  split <;> simp

theorem decimal_den_pos (n : Nat) (k : Int) : 0 < (decimal n k).den := by
  unfold decimal
  split
  · exact Nat.one_pos
  · exact Nat.pow_pos (by decide)

theorem significand_pos {d : Double} (h : d.isZero = false) : 0 < d.significand := by
  unfold Double.significand
  split
  · rename_i hb
    have hf : d.fraction ≠ 0 := by simpa [Double.isZero, hb] using h
    exact Nat.pos_of_ne_zero hf
  · omega

theorem scaled_num_pos {num : Nat} (h : 0 < num) (den : Nat) (e : Int) :
    0 < (Double.scaled num den e).1 := by
  unfold Double.scaled
  split
  · exact Nat.mul_pos h (Nat.two_pow_pos _)
  · exact h

theorem low_pos {d : Double} (h : d.isZero = false) : 0 < (intervalOf d).low.num := by
  have hm := significand_pos h
  refine scaled_num_pos ?_ 4 d.exponent
  split <;> omega

/-- Zero lies in the interval of no other double. -/
theorem ne_zero_of_has {d : Double} (h : d.isZero = false) {n : Nat} {k : Int}
    (hhas : (intervalOf d).has (decimal n k) = true) : n ≠ 0 := by
  rintro rfl
  have hlow := low_pos h
  have hpos := Nat.mul_pos hlow (decimal_den_pos 0 k)
  have hzero : (decimal 0 k).num * (intervalOf d).low.den = 0 := by
    rw [decimal_zero, Nat.zero_mul]
  unfold Interval.has at hhas
  split at hhas
  · have hle := (Bool.and_eq_true _ _ ▸ hhas).1
    simp only [Ratio.le, decide_eq_true_eq, hzero] at hle
    omega
  · have hlt := (Bool.and_eq_true _ _ ▸ hhas).1
    simp only [Ratio.lt, decide_eq_true_eq, hzero] at hlt
    omega

/-- The grid point below a value. -/
def below (v : Ratio) (k : Int) : Nat :=
  v.num * (decimal 1 k).den / (v.den * (decimal 1 k).num)

theorem hit_spec {i : Interval} {k : Int} {n : Nat} (h : hit? i k = some n) :
    i.has (decimal n k) = true ∧ n ≤ below i.value k + 1 := by
  unfold hit? at h
  unfold below
  dsimp only at h
  generalize i.value.num * (decimal 1 k).den / (i.value.den * (decimal 1 k).num) = b at *
  split at h
  · cases h
  · obtain rfl := Option.some.inj h
    exact ⟨‹_›, Nat.le_succ _⟩
  · obtain rfl := Option.some.inj h
    exact ⟨‹_›, Nat.le_refl _⟩
  · split_ifs at h
    all_goals obtain rfl := Option.some.inj h
    all_goals exact ⟨‹_›, by omega⟩

theorem search_spec (i : Interval) (top : Int) (count fuel : Nat) :
    search i top count fuel = (0, 0) ∨ ∃ n k, search i top count fuel = (n, k) ∧
      hit? i k = some n ∧ top - count - fuel + 1 ≤ k ∧ k ≤ top - count + 1 := by
  induction fuel generalizing count with
  | zero => exact Or.inl rfl
  | succ fuel ih =>
    unfold search
    dsimp only
    split
    · exact Or.inr ⟨_, _, rfl, ‹_›, by omega, by omega⟩
    · rcases ih (count + 1) with hnone | ⟨n, k, hfound, hhit, hlow, hhigh⟩
      · exact Or.inl hnone
      · exact Or.inr ⟨n, k, hfound, hhit, by omega, by omega⟩

theorem trim_spec (n : Nat) (k : Int) (fuel : Nat) :
    (trim n k fuel).1 ≤ n ∧ k ≤ (trim n k fuel).2 ∧ (trim n k fuel).2 ≤ k + fuel ∧
      ((trim n k fuel).1 = 0 → n = 0 ∧ (trim n k fuel).2 = k) := by
  induction fuel generalizing n k with
  | zero => exact ⟨Nat.le_refl _, by simp [trim], by simp [trim], fun h => ⟨h, rfl⟩⟩
  | succ fuel ih =>
    unfold trim
    split
    · obtain ⟨hle, hlow, hhigh, hzero⟩ := ih (n / 10) (k + 1)
      refine ⟨by omega, by omega, by omega, ?_⟩
      intro h
      have := (hzero h).1
      omega
    · exact ⟨Nat.le_refl _, Int.le_refl _, by omega, fun h => ⟨h, rfl⟩⟩

theorem digits_zero {d : Double} (h : d.isZero = false) (hn : (digits d).1 = 0) :
    (digits d).2 = 0 := by
  unfold digits at *
  dsimp only at *
  obtain ⟨-, -, -, hzero⟩ := trim_spec (search (intervalOf d) (order (intervalOf d).value) 1 18).1
    (search (intervalOf d) (order (intervalOf d).value) 1 18).2 20
  obtain ⟨hs, hk⟩ := hzero hn
  rw [hk]
  rcases search_spec (intervalOf d) (order (intervalOf d).value) 1 18 with hnone |
    ⟨n, k, hfound, hhit, -⟩
  · rw [hnone]
  · rw [hfound] at hs
    exact absurd hs (ne_zero_of_has h (hit_spec hhit).1)

theorem decimal_one_den (k : Int) : (decimal 1 k).den = 10 ^ (-k).toNat := by
  unfold decimal
  split
  · rw [show (-k).toNat = 0 by omega, Nat.pow_zero]
  · rfl

theorem decimal_one_num_pos (k : Int) : 0 < (decimal 1 k).num := by
  unfold decimal
  split
  · exact Nat.mul_pos Nat.one_pos (Nat.pow_pos (by decide))
  · exact Nat.one_pos

theorem below_lt {v : Ratio} {c : Nat} (hden : 0 < v.den) (h : v.num < v.den * 2 ^ c) (k : Int) :
    below v k < 2 ^ c * 10 ^ (-k).toNat := by
  unfold below
  rw [Nat.div_lt_iff_lt_mul (Nat.mul_pos hden (decimal_one_num_pos k)), decimal_one_den]
  calc v.num * 10 ^ (-k).toNat
      < v.den * 2 ^ c * 10 ^ (-k).toNat :=
        Nat.mul_lt_mul_of_pos_right h (Nat.pow_pos (by decide))
    _ = 2 ^ c * 10 ^ (-k).toNat * v.den := by ring
    _ ≤ 2 ^ c * 10 ^ (-k).toNat * (v.den * (decimal 1 k).num) :=
        Nat.mul_le_mul_left _ (Nat.le_mul_of_pos_right _ (decimal_one_num_pos k))

theorem orderFrom_spec (r : Ratio) (k : Int) (fuel : Nat) :
    k ≤ orderFrom r k fuel ∧ orderFrom r k fuel ≤ k + fuel := by
  induction fuel generalizing k with
  | zero => exact ⟨Int.le_refl _, by simp [orderFrom]⟩
  | succ fuel ih =>
    unfold orderFrom
    split
    · have := ih (k + 1)
      omega
    · omega

theorem value_lt {d : Double} {c : Nat} (h : d.biased ≤ c + 1022) :
    (intervalOf d).value.num < (intervalOf d).value.den * 2 ^ c := by
  have hm := d.significand_lt
  have he := Double.exponent_le h
  exact Double.scaled_lt (a := 55) (b := 2) (by omega) (Nat.le_refl 4) (by omega)

theorem value_den_pos (d : Double) : 0 < (intervalOf d).value.den :=
  Double.scaled_den_pos (by decide) _

theorem log_value_den (d : Double) : Nat.log2 (intervalOf d).value.den ≤ 1076 := by
  have hexp : -1074 ≤ d.exponent := by
    unfold Double.exponent
    split <;> omega
  have hden : (intervalOf d).value.den = 2 ^ (2 + (-d.exponent).toNat) := by
    rw [Nat.pow_add]
    change (Double.scaled (4 * d.significand) 4 d.exponent).2 = _
    unfold Double.scaled
    split
    · rw [show (-d.exponent).toNat = 0 by omega]
    · rfl
  rw [hden, Nat.log2_two_pow]
  omega

theorem order_bounds {d : Double} (h : d.biased ≤ 1200) :
    -330 ≤ order (intervalOf d).value ∧ order (intervalOf d).value ≤ 58 := by
  have hlog := Double.log_le_of_lt (value_lt (c := 178) h)
  have hden := log_value_den d
  obtain ⟨hlow, hhigh⟩ := orderFrom_spec (intervalOf d).value
    (((Nat.log2 (intervalOf d).value.num : Int) - (Nat.log2 (intervalOf d).value.den : Int) - 1) *
      30103 / 100000 - 1) 6
  unfold order
  dsimp only
  omega

/-- The digits of a double below `2 ^ 178` and the place of its point. -/
theorem digits_bounds {d : Double} (h : d.biased ≤ 1200) : ∃ len : Nat, 0 < len ∧ len ≤ 500 ∧
    (digits d).1 < 10 ^ len ∧ -400 ≤ (digits d).2 ∧ len + (digits d).2 ≤ 140 := by
  obtain ⟨hlow, hhigh⟩ := order_bounds h
  have htrim := trim_spec (search (intervalOf d) (order (intervalOf d).value) 1 18).1
    (search (intervalOf d) (order (intervalOf d).value) 1 18).2 20
  change (digits d).1 ≤ _ ∧ _ ≤ (digits d).2 ∧ (digits d).2 ≤ _ ∧ _ at htrim
  obtain ⟨hn, hk, hk', -⟩ := htrim
  rcases search_spec (intervalOf d) (order (intervalOf d).value) 1 18 with hnone |
    ⟨n, k, hfound, hhit, hklow, hkhigh⟩
  · rw [hnone] at hn hk hk'
    simp only at hn hk hk'
    exact ⟨1, by omega, by omega, by omega, by omega, by omega⟩
  · rw [hfound] at hn hk hk'
    have hbelow := below_lt (value_den_pos d) (value_lt (c := 178) h) k
    have hcount := (hit_spec hhit).2
    refine ⟨54 + (-k).toNat, by omega, by omega, ?_, by omega, by omega⟩
    calc (digits d).1 ≤ 2 ^ 178 * 10 ^ (-k).toNat := by omega
      _ < 10 ^ 54 * 10 ^ (-k).toNat :=
        Nat.mul_lt_mul_of_pos_right (by norm_num) (Nat.pow_pos (by decide))
      _ = 10 ^ (54 + (-k).toNat) := (Nat.pow_add ..).symm

theorem moderate_literal (negative : Bool) {n len : Nat} {k : Int} (hpos : 0 < len)
    (hlen : len ≤ 500) (hn : n < 10 ^ len) (hk : -400 ≤ k) (hpoint : len + k ≤ 140) :
    (literal negative n k).Moderate := by
  have hle := Tree.numeral_length hpos hn
  have hone := List.length_pos_iff.mpr (Tree.numeral_ne_nil n)
  unfold literal
  dsimp only
  split_ifs with hzeros hinside hbefore
  · refine ⟨?_, ?_, by simp⟩
    · simp only [List.length_append, List.length_replicate]
      omega
    · intro ds hds
      obtain rfl := Option.some.inj hds
      simp
  · refine ⟨?_, ?_, by simp⟩
    · simp only [List.length_take]
      omega
    · intro ds hds
      obtain rfl := Option.some.inj hds
      simp only [List.length_drop]
      omega
  · refine ⟨by simp, ?_, by simp⟩
    intro ds hds
    obtain rfl := Option.some.inj hds
    simp only [List.length_append, List.length_replicate]
    omega
  · refine ⟨?_, ?_, ?_⟩
    · simp only [scientific, List.length_take]
      omega
    · intro ds hds
      simp only [scientific] at hds
      split_ifs at hds
      · cases hds
      · obtain rfl := Option.some.inj hds
        simp only [List.length_drop]
        omega
    · intro e he
      obtain rfl := Option.some.inj he
      refine ⟨_, Tree.magnitude_numeral _ (by unfold Tree.exponentBound; omega), by omega, ?_⟩
      intro hsign
      have : ¬ ((numeral n).length + k - 1 < 0) := of_decide_eq_false hsign
      omega

/-- The literal that a double is written as. -/
def literalOf (d : Double) : Literal :=
  if d.isZero then ⟨d.isNegative, [0], some [0], none⟩
  else literal d.isNegative (digits d).1 (digits d).2

theorem toList_text (d : Double) :
    (text d).toList = (if d.isNegative then ['-'] else []) ++ (literalOf d).chars := by
  have hmagnitude : (if d.isZero then "0.0" else layout (digits d).1 (digits d).2).toList =
      (literalOf d).chars := by
    unfold literalOf
    split
    · rfl
    · exact toList_layout d.isNegative _ _
  unfold text
  dsimp only
  split
  · rw [String.toList_append]
    exact congrArg _ hmagnitude
  · exact hmagnitude

theorem negative_literalOf (d : Double) : (literalOf d).negative = d.isNegative := by
  unfold literalOf
  split
  · rfl
  · unfold literal scientific
    dsimp only
    split_ifs <;> rfl

theorem proper_literalOf (d : Double) : (literalOf d).Proper := by
  unfold literalOf
  split
  · exact ⟨by simp, by simp, by simp, by simp, by simp⟩
  · rename_i h
    exact proper_literal _ (digits_zero (by simpa using h))

/-- The text of a double that is not too large denotes a number. -/
theorem number_literalOf {d : Double} (h : d.biased ≤ 1200) :
    ∃ n, (literalOf d).number? = some n := by
  apply Literal.Moderate.number_some
  unfold literalOf
  split
  · exact ⟨by simp, by simp, by simp⟩
  · obtain ⟨len, hpos, hlen, hn, hk, hpoint⟩ := digits_bounds h
    exact moderate_literal _ hpos hlen hn hk hpoint

end FleetControl.Shortest

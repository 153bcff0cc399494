import FleetControl.Json.Tree
import FleetControl.Proofs.Decimal.Magnitude
import Mathlib.Data.List.Basic
import Mathlib.Tactic.IntervalCases

/-! # Literals of numbers

The characters of a literal, and what is read from them: the same literal, up to what cannot go on
a number. A literal denotes a number unless its digits and exponent lie far beyond a double. -/
namespace FleetControl.Tree

/-- The decimal digits of a natural number, high end first. -/
def numeral (n : Nat) : List Nat :=
  if n < 10 then [n] else numeral (n / 10) ++ [n % 10]

/-- Nothing but decimal digits. -/
def Digits (ds : List Nat) : Prop := ∀ d ∈ ds, d < 10

@[simp] theorem digits_nil : Digits [] := by simp [Digits]

@[simp] theorem digits_cons {d : Nat} {ds : List Nat} :
    Digits (d :: ds) ↔ d < 10 ∧ Digits ds := List.forall_mem_cons

@[simp] theorem digits_append {a b : List Nat} :
    Digits (a ++ b) ↔ Digits a ∧ Digits b := List.forall_mem_append

@[simp] theorem digits_zeros (n : Nat) : Digits (List.replicate n 0) := by
  intro d hd
  rw [List.eq_of_mem_replicate hd]
  decide

theorem Digits.take {ds : List Nat} (h : Digits ds) (n : Nat) : Digits (ds.take n) :=
  fun d hd => h d (List.mem_of_mem_take hd)

theorem Digits.drop {ds : List Nat} (h : Digits ds) (n : Nat) : Digits (ds.drop n) :=
  fun d hd => h d (List.mem_of_mem_drop hd)

@[simp] theorem digits_numeral (n : Nat) : Digits (numeral n) := by
  fun_induction numeral n with
  | case1 n h => simpa using h
  | case2 n h ih =>
    rw [digits_append]
    exact ⟨ih, by simpa using Nat.mod_lt n (by decide)⟩

theorem numeral_ne_nil (n : Nat) : numeral n ≠ [] := by
  unfold numeral
  split <;> simp

theorem numeral_chars (n : Nat) : (numeral n).map Nat.digitChar = Nat.toDigits 10 n := by
  fun_induction numeral n with
  | case1 n h => rw [Nat.toDigits_of_lt_base h, List.map_singleton]
  | case2 n h ih =>
    rw [List.map_append, ih, List.map_singleton,
      Nat.toDigits_of_base_le (by decide) (Nat.le_of_not_lt h)]

/-- A leading zero stands alone. -/
theorem numeral_leading {n : Nat} {ds : List Nat} (h : numeral n = 0 :: ds) : n = 0 ∧ ds = [] := by
  fun_induction numeral n generalizing ds with
  | case1 n hn =>
    simp only [List.cons.injEq] at h
    exact ⟨h.1, h.2.symm⟩
  | case2 n hn ih =>
    obtain ⟨d, tail, hhead⟩ := List.exists_cons_of_ne_nil (numeral_ne_nil (n / 10))
    rw [hhead, List.cons_append, List.cons.injEq] at h
    rw [h.1] at hhead
    have hzero := (ih hhead).1
    omega

/-- The value of digits behind those that are read already. -/
def valueOf (start : Nat) (ds : List Nat) : Nat := ds.foldl (fun n d => n * 10 + d) start

theorem valueOf_numeral (n : Nat) : valueOf 0 (numeral n) = n := by
  fun_induction numeral n with
  | case1 n h => simp [valueOf]
  | case2 n h ih =>
    rw [valueOf, List.foldl_append]
    change valueOf 0 (numeral (n / 10)) * 10 + n % 10 = n
    rw [ih]
    omega

theorem le_valueOf (start : Nat) (ds : List Nat) : start ≤ valueOf start ds := by
  induction ds generalizing start with
  | nil => exact Nat.le_refl _
  | cons d ds ih =>
    have h := ih (start * 10 + d)
    change start ≤ valueOf (start * 10 + d) ds
    omega

theorem numeral_length {n k : Nat} (hk : 0 < k) (h : n < 10 ^ k) : (numeral n).length ≤ k := by
  have hlen := (Nat.length_toDigits_le_iff (by decide) hk).mpr h
  rwa [← numeral_chars, List.length_map] at hlen

/-! ## Reading a literal -/

/-- No digit follows. -/
def NoDigit (rest : Rest) : Prop := ∀ c ∈ rest.head?, c.isDigit = false

/-- Nothing follows that belongs to the value before it. -/
def Delimited (rest : Rest) : Prop := ∀ c ∈ rest.head?, c = ',' ∨ c = ']' ∨ c = '\x7d'

theorem delimited_nil : Delimited [] := by simp [Delimited]

theorem delimited_cons {c : Char} (h : c = ',' ∨ c = ']' ∨ c = '\x7d') (rest : Rest) :
    Delimited (c :: rest) := by
  simpa [Delimited] using h

theorem noDigit_cons {c : Char} (h : c.isDigit = false) (rest : Rest) : NoDigit (c :: rest) := by
  simpa [NoDigit] using h

theorem Delimited.noDigit {rest : Rest} (h : Delimited rest) : NoDigit rest := by
  intro c hc
  rcases h c hc with rfl | rfl | rfl <;> rfl

theorem digit_back {d : Nat} (h : d < 10) :
    (Nat.digitChar d).isDigit = true ∧ (Nat.digitChar d).toNat - '0'.toNat = d := by
  interval_cases d <;> decide

theorem digitsOf_chars {ds : List Nat} (h : Digits ds) {rest : Rest} (hrest : NoDigit rest) :
    digitsOf (ds.map Nat.digitChar ++ rest) = (ds, rest) := by
  induction ds with
  | nil =>
    cases rest with
    | nil => rfl
    | cons c rest => simp [digitsOf, hrest c rfl]
  | cons d ds ih =>
    obtain ⟨hd, hds⟩ := digits_cons.mp h
    obtain ⟨hdigit, hvalue⟩ := digit_back hd
    rw [List.map_cons, List.cons_append, digitsOf, if_pos hdigit, ih hds]
    simp only [hvalue]

def fractionChars : Option (List Nat) → List Char
  | none => []
  | some ds => '.' :: ds.map Nat.digitChar

def exponentChars : Option Exponent → List Char
  | none => []
  | some e => 'e' :: (if e.negative then '-' else '+') :: e.digits.map Nat.digitChar

namespace Literal

/-- The characters behind the sign. -/
def chars (l : Literal) : List Char :=
  l.whole.map Nat.digitChar ++ (fractionChars l.fraction ++ exponentChars l.exponent)

/-- What the grammar demands of the digits. -/
structure Proper (l : Literal) : Prop where
  whole : Digits l.whole
  present : l.whole ≠ []
  leading : ∀ ds, l.whole = 0 :: ds → ds = []
  fraction : ∀ ds ∈ l.fraction, Digits ds ∧ ds ≠ []
  exponent : ∀ e ∈ l.exponent, Digits e.digits ∧ e.digits ≠ []

end Literal

theorem readExponent_chars {e : Option Exponent}
    (h : ∀ x ∈ e, Digits x.digits ∧ x.digits ≠ []) {rest : Rest} (hrest : Delimited rest) :
    readExponent (exponentChars e ++ rest) = some (e, rest) := by
  cases e with
  | none =>
    cases rest with
    | nil => rfl
    | cons c rest => rcases hrest c rfl with rfl | rfl | rfl <;> rfl
  | some e =>
    obtain ⟨negative, digits⟩ := e
    obtain ⟨hdigits, hne⟩ := h _ rfl
    have hread := digitsOf_chars hdigits hrest.noDigit
    obtain ⟨d, ds, rfl⟩ := List.exists_cons_of_ne_nil hne
    cases negative
    all_goals
      simp only [exponentChars, List.cons_append, readExponent, Bool.false_eq_true, if_true,
        if_false, true_or, hread]

theorem noDigit_exponentChars (e : Option Exponent) {rest : Rest} (hrest : Delimited rest) :
    NoDigit (exponentChars e ++ rest) := by
  cases e with
  | none => exact hrest.noDigit
  | some e => exact noDigit_cons rfl _

theorem readFraction_chars {f : Option (List Nat)} (h : ∀ ds ∈ f, Digits ds ∧ ds ≠ [])
    (e : Option Exponent) {rest : Rest} (hrest : Delimited rest) :
    readFraction (fractionChars f ++ (exponentChars e ++ rest)) =
      some (f, exponentChars e ++ rest) := by
  cases f with
  | none =>
    cases e with
    | some e => rfl
    | none =>
      cases rest with
      | nil => rfl
      | cons c rest => rcases hrest c rfl with rfl | rfl | rfl <;> rfl
  | some ds =>
    obtain ⟨hdigits, hne⟩ := h ds rfl
    have hread := digitsOf_chars hdigits (noDigit_exponentChars e hrest)
    obtain ⟨d, ds, rfl⟩ := List.exists_cons_of_ne_nil hne
    simp only [fractionChars, List.cons_append, readFraction, hread]

theorem noDigit_fractionChars (f : Option (List Nat)) {rest : Rest} (hrest : NoDigit rest) :
    NoDigit (fractionChars f ++ rest) := by
  cases f with
  | none => exact hrest
  | some ds => exact noDigit_cons rfl _

/-- A literal is read back whole. -/
theorem readNumber_chars {l : Literal} (h : l.Proper) {rest : Rest} (hrest : Delimited rest) :
    readNumber l.negative (l.chars ++ rest) = some (l.number?, rest) := by
  obtain ⟨negative, whole, fraction, exponent⟩ := l
  have hwhole := digitsOf_chars h.whole
    (noDigit_fractionChars fraction (noDigit_exponentChars exponent hrest))
  have hfraction := readFraction_chars h.fraction exponent hrest
  have hexponent := readExponent_chars h.exponent hrest
  have hpresent := h.present
  have hleading := h.leading
  simp only at hwhole hfraction hexponent hpresent hleading
  unfold readNumber Literal.chars
  simp only [List.append_assoc, hwhole]
  split
  · exact absurd rfl hpresent
  · rename_i d ds
    cases hleading _ rfl
  · simp [hfraction, hexponent]

/-! ## What a literal denotes -/

theorem accumulate_all {start : Nat} {ds : List Nat} (h : valueOf start ds < 2 ^ 64) :
    accumulate start ds = (valueOf start ds, []) := by
  induction ds generalizing start with
  | nil => rfl
  | cons d ds ih =>
    have hle := le_valueOf (start * 10 + d) ds
    change valueOf (start * 10 + d) ds < 2 ^ 64 at h
    rw [accumulate, if_pos (Nat.lt_of_le_of_lt hle h), ih h]
    rfl

theorem accumulate_lt {start : Nat} (h : start < 2 ^ 64) (ds : List Nat) :
    (accumulate start ds).1 < 2 ^ 64 := by
  induction ds generalizing start with
  | nil => exact h
  | cons d ds ih =>
    unfold accumulate
    split
    · exact ih ‹_›
    · exact h

theorem accumulate_left (start : Nat) (ds : List Nat) :
    (accumulate start ds).2.length ≤ ds.length := by
  induction ds generalizing start with
  | nil => exact Nat.le_refl _
  | cons d ds ih =>
    unfold accumulate
    split
    · exact Nat.le_succ_of_le (ih _)
    · exact Nat.le_refl _

theorem magnitude_fold {start : Nat} {ds : List Nat} (h : valueOf start ds ≤ exponentBound) :
    ds.foldl (fun acc d => acc.bind fun n =>
      if n * 10 + d ≤ exponentBound then some (n * 10 + d) else none) (some start) =
      some (valueOf start ds) := by
  induction ds generalizing start with
  | nil => rfl
  | cons d ds ih =>
    have hle := le_valueOf (start * 10 + d) ds
    change valueOf (start * 10 + d) ds ≤ exponentBound at h
    rw [List.foldl_cons, Option.bind_some, if_pos (Nat.le_trans hle h), ih h]
    rfl

theorem magnitude_numeral (negative : Bool) {n : Nat} (h : n ≤ exponentBound) :
    (Exponent.mk negative (numeral n)).magnitude? = some n := by
  have hbound : valueOf 0 (numeral n) ≤ exponentBound := by rwa [valueOf_numeral]
  exact (magnitude_fold hbound).trans (by rw [valueOf_numeral])

theorem clamp_of_le {i : Int} (hlow : -(2 ^ 31) ≤ i) (hhigh : i ≤ 2 ^ 31 - 1) : clamp i = i := by
  unfold clamp
  split_ifs <;> omega

namespace Literal

/-- The literal of an integer. -/
def ofInt (i : Int) : Literal := ⟨decide (i < 0), numeral i.natAbs, none, none⟩

theorem proper_ofInt (i : Int) : (ofInt i).Proper where
  whole := digits_numeral _
  present := numeral_ne_nil _
  leading _ h := (numeral_leading h).2
  fraction _ h := by cases h
  exponent _ h := by cases h

/-- An integer that fits 64 bits stays exact. -/
theorem number_ofInt {i : Int} (hlow : -(2 ^ 63) ≤ i) (hhigh : i < 2 ^ 64) :
    (ofInt i).number? = some (.int i) := by
  have hfits : valueOf 0 (numeral i.natAbs) < 2 ^ 64 := by
    rw [valueOf_numeral]
    omega
  unfold number? ofInt
  simp only [accumulate_all hfits, valueOf_numeral, decide_eq_true_eq]
  split_ifs with hneg hbound
  · congr 2
    omega
  · omega
  · congr 2
    omega

/-- Few enough digits, and an exponent within bounds: what is read is then a number. -/
structure Moderate (l : Literal) : Prop where
  whole : l.whole.length ≤ 50
  fraction : ∀ ds ∈ l.fraction, ds.length ≤ 2000
  exponent : ∀ e ∈ l.exponent,
    ∃ m, e.magnitude? = some m ∧ m ≤ 2000 ∧ (e.negative = false → m ≤ 150)

theorem Moderate.number_some {l : Literal} (h : l.Moderate) : ∃ n, l.number? = some n := by
  obtain ⟨negative, whole, fraction, exponent⟩ := l
  have hdropped := accumulate_left 0 whole
  have hstart : 0 < 2 ^ 64 := by decide
  have hsig := accumulate_lt (accumulate_lt hstart whole) (fraction.getD [])
  have hwhole : whole.length ≤ 50 := h.whole
  have hfraction : (fraction.getD []).length ≤ 2000 := by
    cases fraction with
    | none => exact Nat.zero_le _
    | some ds => exact h.fraction ds rfl
  have hread : ∀ e : Int, -4900 ≤ e → e ≤ 200 → ∀ signed : Double → Number, ∃ n,
      (Double.ofDecimal? (accumulate (accumulate 0 whole).1 (fraction.getD [])).1 e).map signed =
        some n := by
    intro e hlow hhigh signed
    obtain ⟨d, hd⟩ := Double.ofDecimal_some hsig hlow hhigh
    exact ⟨signed d, by rw [hd]; rfl⟩
  have hexp := h.exponent
  unfold number?
  dsimp only
  split
  · split_ifs <;> exact ⟨_, rfl⟩
  · split
    · exact hread _ (by omega) (by omega) _
    · rename_i e hne
      obtain ⟨m, hm, hbound, hpositive⟩ := hexp e rfl
      rw [hm]
      dsimp only
      cases hsign : e.negative with
      | false =>
        have := hpositive hsign
        rw [if_neg (by decide), clamp_of_le (by omega) (by omega)]
        exact hread _ (by omega) (by omega) _
      | true =>
        rw [if_pos rfl, clamp_of_le (by omega) (by omega)]
        exact hread _ (by omega) (by omega) _

end Literal

end FleetControl.Tree

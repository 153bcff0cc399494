import FleetControl.Proofs.Text.Hex
import FleetControl.Uuid
import Mathlib.Data.List.Basic

/-! # Reading identifiers back

The 32 digits of an identifier lie between hyphens at five places, and stand for its bits. -/
namespace FleetControl.Uuid

theorem strip_hyphenated (f : Nat → Char) :
    stripHyphens? (hyphenated ((List.range 32).map f)) = some ((List.range 32).map f) := rfl

theorem length_hyphenated (f : Nat → Char) :
    (hyphenated ((List.range 32).map f)).length = 36 := rfl

/-- The value of the low digits of a number, high end first. -/
theorem foldl_digits (n k : Nat) :
    ((List.range k).map fun i => n / 16 ^ (k - 1 - i) % 16).foldl (fun m v => 16 * m + v) 0 =
      n % 16 ^ k := by
  induction k generalizing n with
  | zero => simp [Nat.mod_one]
  | succ k ih =>
    have hshift : ((List.range k).map fun i => n / 16 ^ (k - i) % 16) =
        (List.range k).map fun i => n / 16 / 16 ^ (k - 1 - i) % 16 := by
      apply List.map_congr_left
      intro i hi
      have hlt := List.mem_range.mp hi
      rw [Nat.div_div_eq_div_mul, ← Nat.pow_succ', show (k - 1 - i).succ = k - i by omega]
    rw [List.range_succ, List.map_append, List.foldl_append]
    simp only [Nat.add_sub_cancel, hshift, ih, List.map_cons, List.map_nil, List.foldl_cons,
      List.foldl_nil, Nat.sub_self, Nat.pow_zero, Nat.div_one]
    rw [Nat.pow_succ', Nat.mod_mul]
    omega

theorem ofDigits_digits (id : Uuid) : ofDigits? id.digits = some id := by
  have hvalues : id.digits.mapM Hex.value? =
      some ((List.range 32).map fun i => id.bits.toNat / 16 ^ (32 - 1 - i) % 16) := by
    rw [digits, List.mapM_map]
    simp only [Function.comp_def, Hex.value_digit]
    exact List.mapM_pure
  have hlen : id.digits.length = 32 := rfl
  have hbits : id.bits.toNat % 16 ^ 32 = id.bits.toNat := Nat.mod_eq_of_lt id.bits.isLt
  rw [ofDigits?, if_pos hlen, hvalues, Option.map_some, foldl_digits, hbits, BitVec.ofNat_toNat]
  rfl

/-- A written identifier is read back. -/
theorem parse_text (id : Uuid) : parse? id.text = some id := by
  have hstrip : stripHyphens? (hyphenated id.digits) = some id.digits := strip_hyphenated _
  have hlen : (hyphenated id.digits).length = 36 := length_hyphenated _
  rw [parse?, text, String.toList_ofList, ofChars?, if_neg (by omega), if_pos hlen, hstrip]
  exact ofDigits_digits id

end FleetControl.Uuid

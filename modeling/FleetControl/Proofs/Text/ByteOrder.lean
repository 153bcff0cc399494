import FleetControl.Power
import Mathlib.Tactic.SplitIfs
import Mathlib.Data.List.Basic

/-! # The order of texts as bytes

Texts are ordered as their UTF-8 bytes are. The first byte of a character tells how many follow,
and the further bytes are its digits to the base 64, so a smaller character has a smaller byte at
the first place where the bytes of the two differ. -/
namespace FleetControl.Utf8

/-- A smaller byte decides; behind the same byte the rest does. -/
theorem cons_lt_cons {m n : Nat} {u v : List UInt8} (hn : n < 256)
    (h : m < n ∨ m = n ∧ u < v) : UInt8.ofNat m :: u < UInt8.ofNat n :: v := by
  rw [List.cons_lt_cons_iff]
  rcases h with h | ⟨rfl, h⟩
  · refine Or.inl ?_
    rw [UInt8.lt_iff_toNat_lt, UInt8.toNat_ofNat', UInt8.toNat_ofNat']
    omega
  · exact Or.inr ⟨rfl, h⟩

/-- The last `k` digits of a number as continuation bytes. -/
def digits (n : Nat) : Nat → List UInt8
  | 0 => []
  | k + 1 => UInt8.ofNat (n / 64 ^ k % 64 + 128) :: digits n k

theorem digits_lt {m n k : Nat} (h : m % 64 ^ k < n % 64 ^ k) (u v : List UInt8) :
    digits m k ++ u < digits n k ++ v := by
  induction k with
  | zero => omega
  | succ k ih =>
    rw [Nat.pow_succ, Nat.mod_mul, Nat.mod_mul] at h
    have hm := Nat.mod_lt m (Nat.pow_pos (n := k) (show 0 < 64 by decide))
    refine cons_lt_cons (by omega) ?_
    rcases Nat.lt_trichotomy (m / 64 ^ k % 64) (n / 64 ^ k % 64) with hlt | heq | hgt
    · exact Or.inl (by omega)
    · rw [heq] at h ⊢
      exact Or.inr ⟨rfl, ih (by omega)⟩
    · have hstep := Nat.mul_le_mul_left (64 ^ k) hgt
      rw [Nat.mul_succ] at hstep
      omega

/-- Where the first bytes begin that so many bytes follow. -/
def lead : Nat → Nat
  | 0 => 0
  | 1 => 0xc0
  | 2 => 0xe0
  | 3 => 0xf0
  | _ => 0xf8

/-- Where the characters end that so many bytes besides the first are enough for. -/
def room : Nat → Nat
  | 0 => 0x80
  | 1 => 0x800
  | 2 => 0x10000
  | _ => 0x110000

theorem room_le : ∀ k ≤ 3, ∀ j < k, room j ≤ room (k - 1) := by decide

/-- The bytes of a character: one that says how many follow and holds its leading digits, and the
further digits. There are no more of them than it needs. -/
theorem utf8EncodeChar_eq (c : Char) : ∃ k ≤ 3, String.utf8EncodeChar c =
      UInt8.ofNat (c.val.toNat / 64 ^ k + lead k) :: digits c.val.toNat k ∧
    c.val.toNat / 64 ^ k + lead k < lead (k + 1) ∧ c.val.toNat < room k ∧
      ∀ j < k, room j ≤ c.val.toNat := by
  have hbound : c.val.toNat < 0x110000 := by
    rcases c.valid with hv | ⟨-, hv⟩
    · exact Nat.lt_trans hv (by decide)
    · exact hv
  simp only [String.utf8EncodeChar]
  generalize c.val.toNat = n at hbound ⊢
  have hleast : ∀ k ≤ 3, (room (k - 1) ≤ n ∨ k = 0) → ∀ j < k, room j ≤ n := by
    intro k hk hroom j hj
    have := room_le k hk j hj
    omega
  split_ifs
  · refine ⟨0, by decide, ?_, ?_, ?_, hleast 0 (by decide) (Or.inr rfl)⟩
    · simp [lead, digits]
    all_goals
      simp only [lead, room]
      omega
  · refine ⟨1, by decide, ?_, ?_, ?_, hleast 1 (by decide) (Or.inl (by simp only [room]; omega))⟩
    · simp only [lead, digits, Nat.pow_one, Nat.pow_zero, Nat.div_one]
      rw [Nat.mod_eq_of_lt (a := n / 64) (by omega)]
    all_goals
      simp only [lead, room]
      omega
  · refine ⟨2, by decide, ?_, ?_, ?_, hleast 2 (by decide) (Or.inl (by simp only [room]; omega))⟩
    · simp only [lead, digits, Nat.reducePow, Nat.pow_one, Nat.pow_zero, Nat.div_one]
      rw [Nat.mod_eq_of_lt (a := n / 4096) (by omega)]
    all_goals
      simp only [lead, room]
      omega
  · refine ⟨3, by decide, ?_, ?_, ?_, hleast 3 (by decide) (Or.inl (by simp only [room]; omega))⟩
    · simp only [lead, digits, Nat.reducePow, Nat.pow_one, Nat.pow_zero, Nat.div_one]
      rw [Nat.mod_eq_of_lt (a := n / 262144) (by omega)]
    all_goals
      simp only [lead, room]
      omega

theorem lead_le : ∀ k ≤ 3, lead (k + 1) ≤ 256 ∧ ∀ j < k, lead (j + 1) ≤ lead k := by decide

/-- The bytes of a smaller character are smaller, whatever follows. -/
theorem utf8EncodeChar_lt {c d : Char} (h : c < d) (u v : List UInt8) :
    String.utf8EncodeChar c ++ u < String.utf8EncodeChar d ++ v := by
  have hlt : c.val.toNat < d.val.toNat := h
  obtain ⟨j, hj, hc, hcfirst, hcroom, hcleast⟩ := utf8EncodeChar_eq c
  obtain ⟨k, hk, hd, hdfirst, hdroom, hdleast⟩ := utf8EncodeChar_eq d
  obtain ⟨hbyte, hmono⟩ := lead_le k hk
  rw [hc, hd]
  refine cons_lt_cons (by omega) ?_
  rcases Nat.lt_trichotomy j k with hjk | rfl | hkj
  · -- more bytes follow the larger one, so it has the larger first byte
    exact Or.inl (Nat.lt_of_lt_of_le hcfirst
      (Nat.le_trans (hmono j hjk) (Nat.le_add_left _ _)))
  · have hdiv := Nat.div_le_div_right (c := 64 ^ j) (Nat.le_of_lt hlt)
    rcases Nat.lt_or_eq_of_le hdiv with hdiv | hdiv
    · exact Or.inl (by omega)
    · have hcsplit := Nat.div_add_mod c.val.toNat (64 ^ j)
      have hdsplit := Nat.div_add_mod d.val.toNat (64 ^ j)
      rw [hdiv] at hcsplit
      exact Or.inr ⟨by omega, digits_lt (by omega) u v⟩
  · have := hcleast k hkj
    omega

theorem utf8Encode_lt {s t : List Char} (h : s < t) :
    s.flatMap String.utf8EncodeChar < t.flatMap String.utf8EncodeChar := by
  induction s generalizing t with
  | nil =>
    cases t with
    | nil => cases h
    | cons d t =>
      obtain ⟨k, -, hd, -⟩ := utf8EncodeChar_eq d
      rw [List.flatMap_cons, hd]
      exact List.nil_lt_cons _ _
  | cons c s ih =>
    cases t with
    | nil => cases h
    | cons d t =>
      rw [List.flatMap_cons, List.flatMap_cons]
      rcases List.cons_lt_cons_iff.mp h with hlt | ⟨rfl, hlt⟩
      · exact utf8EncodeChar_lt hlt _ _
      · exact List.append_left_lt (ih hlt)

/-- Texts are ordered as their bytes are. -/
theorem bytes_lt {s t : String} (h : s < t) : s.toUTF8.data.toList < t.toUTF8.data.toList := by
  have hbytes (s : String) : s.toUTF8.data.toList = s.toList.flatMap String.utf8EncodeChar := by
    rw [String.toUTF8_eq_toByteArray, ← String.utf8Encode_toList, List.utf8Encode,
      List.toList_data_toByteArray]
  rw [hbytes, hbytes]
  exact utf8Encode_lt h

end FleetControl.Utf8

import FleetControl.Gzip.Deflate
import Mathlib.Data.Nat.Bitwise
import Mathlib.Tactic.Ring

/-! # Bits written and read

A sink and a source are seen as the bits that they hold: what is put into a sink stands at its end,
and what a source reads next is the front of its rest. -/
namespace FleetControl.Inflate

/-- The low bits of a number, the lowest first. -/
def digits (v n : Nat) : List Bool := (List.range n).map v.testBit

@[simp] theorem length_digits (v n : Nat) : (digits v n).length = n := by simp [digits]

theorem digits_add (v m n : Nat) : digits v (m + n) = digits v m ++ digits (v / 2 ^ m) n := by
  rw [digits, List.range_add, List.map_append, List.map_map]
  congr 1
  refine List.map_congr_left fun i _ => ?_
  rw [Nat.testBit_div_two_pow, Nat.add_comm i]
  rfl

theorem digits_succ (v n : Nat) : digits v (n + 1) = v.testBit 0 :: digits (v / 2) n := by
  rw [Nat.add_comm, digits_add]
  rfl

theorem digits_mod (v n : Nat) : digits (v % 2 ^ n) n = digits v n := by
  refine List.map_congr_left fun i hi => ?_
  rw [Nat.testBit_mod_two_pow, decide_eq_true (List.mem_range.1 hi), Bool.true_and]

/-- A number set behind the bits of a smaller one. -/
theorem digits_weave {p c : Nat} (h : p < 2 ^ c) (v n : Nat) :
    digits (p + v * 2 ^ c) (c + n) = digits p c ++ digits v n := by
  have hpos := Nat.two_pow_pos c
  have hlow : (p + v * 2 ^ c) % 2 ^ c = p := by
    rw [Nat.add_mul_mod_self_right, Nat.mod_eq_of_lt h]
  rw [digits_add, ← digits_mod (p + v * 2 ^ c) c, hlow, Nat.add_mul_div_right _ _ hpos,
    Nat.div_eq_of_lt h, Nat.zero_add]

theorem byteAt_lt {bytes : ByteArray} {i : Nat} (h : i < bytes.size) :
    byteAt bytes i = bytes[i] := dif_pos h

theorem byteAt_push (bytes : ByteArray) (b : UInt8) (i : Nat) :
    byteAt (bytes.push b) i = if i = bytes.size then b else byteAt bytes i := by
  rcases Nat.lt_trichotomy i bytes.size with h | rfl | h
  · have hpush : i < (bytes.push b).size := by rw [ByteArray.size_push]; omega
    rw [byteAt_lt hpush, byteAt_lt h, if_neg (by omega)]
    exact Array.getElem_push_lt h
  · have hpush : bytes.size < (bytes.push b).size := by rw [ByteArray.size_push]; omega
    rw [byteAt_lt hpush, if_pos rfl]
    exact Array.getElem_push_eq
  · have hpush : ¬ i < (bytes.push b).size := by rw [ByteArray.size_push]; omega
    rw [if_neg (by omega), byteAt, byteAt, dif_neg hpush, dif_neg (by omega)]

/-- The bits of some bytes, in the order in which they are read. -/
def bitsOf (bytes : ByteArray) : List Bool :=
  (List.range (8 * bytes.size)).map fun k => (byteAt bytes (k / 8)).toNat.testBit (k % 8)

@[simp] theorem length_bitsOf (bytes : ByteArray) : (bitsOf bytes).length = 8 * bytes.size := by
  simp [bitsOf]

theorem bitsOf_push (bytes : ByteArray) (b : UInt8) :
    bitsOf (bytes.push b) = bitsOf bytes ++ digits b.toNat 8 := by
  rw [bitsOf, ByteArray.size_push, Nat.mul_add, List.range_add, List.map_append, List.map_map]
  congr 1
  · refine List.map_congr_left fun k hk => ?_
    have := List.mem_range.1 hk
    rw [byteAt_push, if_neg (by omega)]
  · refine List.map_congr_left fun k hk => ?_
    have := List.mem_range.1 hk
    rw [Function.comp_apply, byteAt_push, if_pos (by omega), Nat.mul_add_mod,
      Nat.mod_eq_of_lt (by omega)]

/-- Bytes are known by their bits. -/
theorem byteAt_of_front {a b : ByteArray} (h : bitsOf a <+: bitsOf b) {i : Nat}
    (hi : i < a.size) : byteAt b i = byteAt a i := by
  have hsize := h.length_le
  rw [length_bitsOf, length_bitsOf] at hsize
  refine UInt8.toNat.inj (Nat.eq_of_testBit_eq fun j => ?_)
  by_cases hj : j < 8
  · have := h.getElem (i := 8 * i + j) (by rw [length_bitsOf]; omega)
    simp only [bitsOf, List.getElem_map, List.getElem_range] at this
    rw [Nat.mul_add_div (by decide), Nat.div_eq_of_lt hj, Nat.mul_add_mod, Nat.mod_eq_of_lt hj,
      Nat.add_zero] at this
    exact this.symm
  · have high (x : UInt8) : x.toNat.testBit j = false :=
      Nat.testBit_lt_two_pow (lt_of_lt_of_le x.toNat_lt (Nat.pow_le_pow_right (by decide) (by omega)))
    rw [high, high]

/-! ### Reading -/

/-- The bits that are not read yet. -/
def Source.rest (s : Source) : List Bool := (bitsOf s.bytes).drop s.bit

/-- The source behind `n` more bits. -/
def Source.skip (s : Source) (n : Nat) : Source := { s with bit := s.bit + n }

@[simp] theorem skip_zero (s : Source) : s.skip 0 = s := rfl

@[simp] theorem skip_skip (s : Source) (m n : Nat) : (s.skip m).skip n = s.skip (m + n) := by
  simp only [Source.skip, Nat.add_assoc]

theorem rest_skip {s : Source} {l r : List Bool} (h : s.rest = l ++ r) :
    (s.skip l.length).rest = r := by
  rw [Source.rest] at h
  rw [Source.rest, Source.skip, ← List.drop_drop, h, List.drop_left]

/-- The bits that are left bound the rest. -/
theorem length_rest (s : Source) : s.rest.length = s.left := by
  rw [Source.rest, List.length_drop, length_bitsOf, Source.left]

theorem bit?_of_rest {s : Source} {b : Bool} {r : List Bool} (h : s.rest = b :: r) :
    s.bit? = some (b.toNat, s.skip 1) := by
  have hleft := congrArg List.length h
  rw [length_rest, Source.left, List.length_cons] at hleft
  have hb : (bitsOf s.bytes)[s.bit]? = some b := by
    have hfirst : s.rest[0]? = (bitsOf s.bytes)[s.bit + 0]? := List.getElem?_drop
    rw [h] at hfirst
    exact hfirst.symm
  rw [bitsOf, List.getElem?_map, List.getElem?_range (by omega), Option.map_some,
    Option.some.injEq] at hb
  rw [Source.bit?, if_pos (by omega), ← hb, Nat.toNat_testBit, Nat.shiftRight_eq_div_pow]
  rfl

theorem bitsOnto_of_rest {v n : Nat} (hv : v < 2 ^ n) {s : Source} {r : List Bool}
    (h : s.rest = digits v n ++ r) (acc place : Nat) :
    s.bitsOnto acc place n = some (acc + v * 2 ^ place, s.skip n) := by
  induction n generalizing v s acc place with
  | zero =>
    have : v = 0 := by omega
    subst this
    simp [Source.bitsOnto]
  | succ n ih =>
    rw [digits_succ, List.cons_append] at h
    have hrest : (s.skip 1).rest = digits (v / 2) n ++ r := rest_skip (l := [_]) h
    rw [Source.bitsOnto, bit?_of_rest h]
    have hv2 : v / 2 < 2 ^ n := by omega
    have hsplit := Nat.div_add_mod v 2
    simp only [ih hv2 hrest, skip_skip, Nat.toNat_testBit, Nat.pow_zero, Nat.div_one]
    rw [Nat.add_comm 1 n, Nat.pow_succ]
    congr 2
    calc acc + v % 2 * 2 ^ place + v / 2 * (2 ^ place * 2)
        = acc + (2 * (v / 2) + v % 2) * 2 ^ place := by ring
      _ = acc + v * 2 ^ place := by rw [hsplit]

theorem bits?_of_rest {v n : Nat} (hv : v < 2 ^ n) {s : Source} {r : List Bool}
    (h : s.rest = digits v n ++ r) : s.bits? n = some (v, s.skip n) := by
  rw [Source.bits?, bitsOnto_of_rest hv h]
  simp

end FleetControl.Inflate

namespace FleetControl.Deflate

open FleetControl.Inflate (digits digits_add digits_mod digits_weave bitsOf bitsOf_push)

/-! ### Writing -/

/-- Everything that was put into a sink. -/
def Sink.bits (s : Sink) : List Bool := bitsOf s.out ++ digits s.pending s.count

/-- Less than a byte waits. -/
structure Sink.Tidy (s : Sink) : Prop where
  count : s.count < 8
  pending : s.pending < 2 ^ s.count

theorem flush_bits (s : Sink) (n : Nat) : (s.flush n).bits = s.bits := by
  induction n generalizing s with
  | zero => rfl
  | succ n ih =>
    rw [Sink.flush]
    split
    · rename_i h
      obtain ⟨k, hk⟩ := Nat.exists_eq_add_of_le h
      rw [ih, Sink.bits, Sink.bits, bitsOf_push, hk, Nat.add_sub_cancel_left, digits_add,
        List.append_assoc]
      congr 2
      rw [UInt8.toNat_ofNat']
      exact digits_mod _ 8
    · rfl

theorem flush_tidy {s : Sink} {n : Nat} (hc : s.count < 8 * (n + 1))
    (hp : s.pending < 2 ^ s.count) : (s.flush n).Tidy := by
  induction n generalizing s with
  | zero => exact ⟨hc, hp⟩
  | succ n ih =>
    rw [Sink.flush]
    split
    · rename_i h
      obtain ⟨k, hk⟩ := Nat.exists_eq_add_of_le h
      refine ih (by simp only; omega) ?_
      rw [hk, Nat.pow_add] at hp
      simp only [hk, Nat.add_sub_cancel_left]
      omega
    · exact ⟨by omega, hp⟩

/-- What is put into a sink stands at its end. -/
theorem put_bits {s : Sink} (hs : s.Tidy) {v n : Nat} (hv : v < 2 ^ n) (hn : n ≤ 16) :
    (s.put v n).Tidy ∧ (s.put v n).bits = s.bits ++ digits v n := by
  obtain ⟨hc, hp⟩ := hs
  constructor
  · refine flush_tidy (by simp only; omega) ?_
    simp only [Nat.pow_add]
    have := Nat.mul_le_mul_right (2 ^ s.count) (Nat.succ_le_of_lt hv)
    rw [Nat.succ_mul, Nat.mul_comm (2 ^ n)] at this
    omega
  · rw [Sink.put, flush_bits, Sink.bits, Sink.bits, digits_weave hp, List.append_assoc]

end FleetControl.Deflate

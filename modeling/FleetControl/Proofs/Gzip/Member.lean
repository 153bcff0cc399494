import FleetControl.Gzip.Member
import FleetControl.Proofs.Gzip.Stream

/-! # Members read back

Decompressing undoes compressing, for every content. -/
namespace FleetControl.Gzip

open FleetControl.Inflate FleetControl.Deflate

/-- Bytes pushed one by one stand behind what was there. -/
theorem push_all (out : ByteArray) (f : Nat → UInt8) (k : Nat) :
    let all := (List.range k).foldl (fun out i => out.push (f i)) out
    all.size = out.size + k ∧ bitsOf out <+: bitsOf all ∧
      ∀ i < k, byteAt all (out.size + i) = f i := by
  induction k with
  | zero => exact ⟨rfl, List.prefix_rfl, fun i hi => absurd hi (Nat.not_lt_zero i)⟩
  | succ k ih =>
    obtain ⟨hsize, hbits, hat⟩ := ih
    simp only [List.range_succ, List.foldl_append, List.foldl_cons, List.foldl_nil]
    refine ⟨by rw [ByteArray.size_push, hsize]; rfl, ?_, fun i hi => ?_⟩
    · rw [bitsOf_push]
      exact hbits.trans (List.prefix_append _ _)
    · rw [byteAt_push, hsize]
      rcases Nat.lt_succ_iff_lt_or_eq.1 hi with hi | rfl
      · rw [if_neg (by omega), hat i hi]
      · rw [if_pos rfl]

theorem size_pushLittle (out : ByteArray) (n : Nat) : (pushLittle out n).size = out.size + 4 :=
  (push_all out _ 4).1

theorem bitsOf_pushLittle (out : ByteArray) (n : Nat) :
    bitsOf out <+: bitsOf (pushLittle out n) :=
  (push_all out _ 4).2.1

/-- A number is the sum of its bytes. -/
theorem sum_bytes (n k : Nat) :
    (List.range k).foldl (fun acc i => acc + n / 256 ^ i % 256 * 256 ^ i) 0 = n % 256 ^ k := by
  induction k with
  | zero => rw [Nat.pow_zero, Nat.mod_one]; rfl
  | succ k ih =>
    rw [List.range_succ, List.foldl_append, ih, Nat.pow_succ, Nat.mod_mul, Nat.mul_comm (256 ^ k)]
    rfl

theorem little_congr {a : ByteArray} {start n : Nat} {f : Nat → Nat}
    (h : ∀ i < n, (byteAt a (start + i)).toNat = f i) :
    little a start n = (List.range n).foldl (fun acc i => acc + f i * 256 ^ i) 0 := by
  refine List.foldl_ext _ _ _ fun acc i hi => ?_
  rw [h i (List.mem_range.1 hi)]

/-- A number of 32 bits is read where it was written, also if more bytes follow. -/
theorem little_of_front {out file : ByteArray} {n : Nat} (hn : n < 2 ^ 32)
    (h : bitsOf (pushLittle out n) <+: bitsOf file) : little file out.size 4 = n := by
  have hbyte : ∀ i < 4, (byteAt file (out.size + i)).toNat = n / 256 ^ i % 256 := by
    intro i hi
    have hat : byteAt (pushLittle out n) (out.size + i) = UInt8.ofNat (n / 256 ^ i) :=
      (push_all out _ 4).2.2 i hi
    rw [byteAt_of_front h (by rw [size_pushLittle]; omega), hat, UInt8.toNat_ofNat']
  rw [little_congr hbyte, sum_bytes]
  exact Nat.mod_eq_of_lt hn

/-- The header that is written. -/
def head : ByteArray := [0x1f, 0x8b, 8, 0, 0, 0, 0, 0, 0, 0xff].toByteArray

theorem header?_of_front {file : ByteArray} (h : bitsOf head <+: bitsOf file) :
    header? file = some 10 := by
  have hsize : head.size = 10 := rfl
  have hlength := h.length_le
  rw [length_bitsOf, length_bitsOf, hsize] at hlength
  have at0 : byteAt file 0 = 0x1f := byteAt_of_front h (by decide)
  have at1 : byteAt file 1 = 0x8b := byteAt_of_front h (by decide)
  have at2 : byteAt file 2 = 8 := byteAt_of_front h (by decide)
  have at3 : byteAt file 3 = 0 := byteAt_of_front h (by decide)
  rw [header?, if_neg (by omega), at0, at1, at2, at3]
  rfl

/-- Decompressing undoes compressing. -/
theorem decode?_encode (content : ByteArray) : decode? (encode content) = some content := by
  obtain ⟨l, pad, hl, hpad, hbits⟩ := streamOnto_bits head content
  have hencode : encode content = pushLittle (pushLittle (streamOnto head content)
    (Crc32.checksum content).toNat) (content.size % 2 ^ 32) := rfl
  rw [hencode]
  generalize streamOnto head content = out at hbits
  generalize hsum : pushLittle out (Crc32.checksum content).toNat = summed
  generalize hfile : pushLittle summed (content.size % 2 ^ 32) = file
  have hsummed : bitsOf summed <+: bitsOf file := hfile ▸ bitsOf_pushLittle summed _
  have hout : bitsOf out <+: bitsOf file := (hsum ▸ bitsOf_pushLittle out _).trans hsummed
  -- the parts of the file lie behind one another
  have hstop : (8 * 10 + (3 + (l.length + 7)) + 7) / 8 = out.size := by
    have := congrArg List.length hbits
    rw [length_bitsOf, List.length_append, List.length_append, List.length_append,
      List.length_append, length_bitsOf, length_digits] at this
    have hend : (literalBits 256).length = 7 := rfl
    have hhead : head.size = 10 := rfl
    omega
  have hsize : summed.size = out.size + 4 := by rw [← hsum, size_pushLittle]
  have htotal : file.size = out.size + 8 := by rw [← hfile, size_pushLittle, hsize]
  -- and each is read where it lies
  have hheader : header? file = some 10 :=
    header?_of_front ((hbits ▸ List.prefix_append (bitsOf head) _).trans hout)
  have hstream : Inflate.stream? file 10 = some (content, out.size) := by
    obtain ⟨r, hr⟩ := hout
    have hdrop : (bitsOf file).drop (8 * 10) =
        digits 3 3 ++ (l ++ (literalBits 256 ++ (pad ++ r))) := by
      have hhead : (bitsOf head).length = 8 * 10 := length_bitsOf head
      rw [← hr, hbits, List.append_assoc, ← hhead, List.drop_left]
      simp only [List.append_assoc]
    rw [stream?_of_bits hl hdrop, hstop]
  have hcrc : little file out.size 4 = (Crc32.checksum content).toNat :=
    little_of_front (UInt32.toNat_lt _) (hsum ▸ hsummed)
  have hlen : little file (out.size + 4) 4 = content.size % 2 ^ 32 := by
    rw [← hsize]
    exact little_of_front (Nat.mod_lt _ (by decide)) (hfile ▸ List.prefix_rfl)
  rw [decode?, hheader]
  simp only [Option.bind_eq_bind, Option.bind_some, hstream]
  exact if_pos ⟨htotal.ge, hcrc, hlen⟩

end FleetControl.Gzip

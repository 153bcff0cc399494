import FleetControl.Proofs.Gzip.Codes

/-! # Deflating and inflating

What the writer puts down for some bytes is a sequence of literals and of references to what came
before. The reader keeps what it has read equal to the bytes up to its place, so a reference gives
it the bytes that the writer compared. -/
namespace FleetControl.Deflate

open FleetControl.Inflate

/-- A symbol and its extra bits stand for a number. -/
def Extends (codes : Array (Nat × Nat)) (i n : Nat) (bits : List Bool) : Prop :=
  ∃ d, codes[i]? = some d ∧ d.1 ≤ n ∧ n - d.1 < 2 ^ d.2 ∧ bits = digits (n - d.1) d.2

/-- The bits of a literal or a length symbol. -/
def literalBits (symbol : Nat) : List Bool :=
  word (literalWord symbol).1 (literalWord symbol).2

/-- The bits of a reference. -/
def Refers (length distance : Nat) (bits : List Bool) : Prop :=
  ∃ i a j b, Extends lengthCodes i length a ∧ Extends distanceCodes j distance b ∧
    bits = literalBits (257 + i) ++ (a ++ (word j 5 ++ b))

/-- The bits carry the bytes from a place on. -/
inductive Coded (bytes : ByteArray) : Nat → List Bool → Prop where
  | done : Coded bytes bytes.size []
  | literal {i l} : i < bytes.size → Coded bytes (i + 1) l →
      Coded bytes i (literalBits (byteAt bytes i).toNat ++ l)
  | reference {i length distance a l} : Refers length distance a →
      0 < distance → distance ≤ i → i + length ≤ bytes.size →
      (∀ k < length, byteAt bytes (i - distance + k) = byteAt bytes (i + k)) →
      Coded bytes (i + length) l → Coded bytes i (a ++ l)

/-! ### Writing -/

theorem reference_bits {s : Sink} (hs : s.Tidy) {length distance : Nat}
    (hlength : 3 ≤ length ∧ length ≤ 258) (hdistance : 1 ≤ distance ∧ distance ≤ 32768) :
    ∃ l, Refers length distance l ∧ (s.reference length distance).Tidy ∧
      (s.reference length distance).bits = s.bits ++ l := by
  obtain ⟨d, hd, hle, hlt⟩ := length_entry hlength.1 hlength.2
  obtain ⟨e, he, hle', hlt'⟩ := distance_entry hdistance.1 hdistance.2
  have extra (codes : Array (Nat × Nat)) (h : ∀ d ∈ codes, d.2 ≤ 16) {i : Nat} {d : Nat × Nat}
    (hi : codes[i]? = some d) : d.2 ≤ 16 := h d (Array.mem_of_getElem? hi)
  refine ⟨_, ⟨_, _, _, _, ⟨d, hd, hle, hlt, rfl⟩, ⟨e, he, hle', hlt', rfl⟩, rfl⟩, ?_⟩
  have h₁ := literal_bits hs (257 + entry lengthCodes length)
  have h₂ := put_bits h₁.1 hlt (extra lengthCodes (by decide) hd)
  have h₃ := code_bits h₂.1 (entry distanceCodes distance) (by decide : 5 ≤ 16)
  have h₄ := put_bits h₃.1 hlt' (extra distanceCodes (by decide) he)
  have unfold : s.reference length distance =
      ((((s.literal (257 + entry lengthCodes length)).put (length - d.1) d.2).code
        (entry distanceCodes distance) 5).put (distance - e.1) e.2) := by
    simp only [Sink.reference, Array.getD_eq_getD_getElem?, hd, he, Option.getD_some]
  rw [unfold]
  refine ⟨h₄.1, ?_⟩
  rw [h₄.2, h₃.2, h₂.2, h₁.2]
  simp only [literalBits, List.append_assoc]

/-- The positions agree so far. -/
def Agree (bytes : ByteArray) (i j n : Nat) : Prop :=
  j + n ≤ bytes.size ∧ ∀ k < n, byteAt bytes (i + k) = byteAt bytes (j + k)

theorem agree_spec {bytes : ByteArray} {i j n : Nat} (h : Agree bytes i j n) (fuel : Nat) :
    Agree bytes i j (agree bytes i j n fuel) ∧ agree bytes i j n fuel ≤ n + fuel := by
  induction fuel generalizing n with
  | zero => exact ⟨h, Nat.le_refl _⟩
  | succ fuel ih =>
    rw [agree]
    split
    · rename_i hnext
      have hn : Agree bytes i j (n + 1) := by
        refine ⟨by omega, fun k hk => ?_⟩
        rcases Nat.lt_succ_iff_lt_or_eq.1 hk with hk | rfl
        · exact h.2 k hk
        · exact hnext.2
      obtain ⟨hagree, hle⟩ := ih hn
      exact ⟨hagree, by omega⟩
    · exact ⟨h, by omega⟩

/-- The table of places holds no place that lies ahead. -/
def Behind (seen : Array Nat) (i : Nat) : Prop := ∀ k, seen.getD k 0 ≤ i

theorem behind_set {seen : Array Nat} {i : Nat} (h : Behind seen i) (k : Nat) {n : Nat}
    (hn : i + 1 ≤ n) : Behind (seen.setIfInBounds k (i + 1)) n := by
  intro j
  have hj := h j
  rw [Array.getD_eq_getD_getElem?] at hj ⊢
  rw [Array.getElem?_setIfInBounds]
  split_ifs
  · exact hn
  · simp
  · omega

/-- What is written from a place on carries the bytes from there on. -/
theorem symbols_bits {bytes : ByteArray} {seen : Array Nat} {s : Sink} {i fuel : Nat}
    (hs : s.Tidy) (hseen : Behind seen i) (hi : i ≤ bytes.size) (hfuel : bytes.size ≤ i + fuel) :
    ∃ l, Coded bytes i l ∧ (symbols bytes seen s i fuel).Tidy ∧
      (symbols bytes seen s i fuel).bits = s.bits ++ l := by
  induction fuel generalizing seen s i with
  | zero =>
    obtain rfl : i = bytes.size := by omega
    exact ⟨[], .done, hs, by simp [symbols]⟩
  | succ fuel ih =>
    rw [symbols]
    split
    · obtain rfl : i = bytes.size := by omega
      exact ⟨[], .done, hs, by simp⟩
    · have hbefore := hseen (slot bytes i)
      simp only
      generalize seen.getD (slot bytes i) 0 = before at hbefore
      generalize hn : (if before = 0 ∨ i + 1 - before > 32768 then 0
        else agree bytes (before - 1) i 0 258) = n
      split
      · rename_i hlong
        have hpast : before ≠ 0 ∧ i + 1 - before ≤ 32768 := by
          by_contra h
          rw [if_pos (by omega)] at hn
          omega
        rw [if_neg (by omega)] at hn
        have hnothing : Agree bytes (before - 1) i 0 := ⟨hi, nofun⟩
        obtain ⟨⟨hinside, hsame⟩, hle⟩ := agree_spec hnothing 258
        rw [hn] at hinside hsame hle
        have hlength : 3 ≤ n ∧ n ≤ 258 := ⟨hlong, by omega⟩
        have hdistance : 1 ≤ i + 1 - before ∧ i + 1 - before ≤ 32768 := ⟨by omega, hpast.2⟩
        obtain ⟨a, ha, htidy, hbits⟩ := reference_bits hs hlength hdistance
        obtain ⟨l, hl, htidy', hbits'⟩ := ih htidy
          (behind_set hseen (slot bytes i) (by omega : i + 1 ≤ i + n)) hinside (by omega)
        refine ⟨a ++ l, .reference ha (by omega) (by omega) hinside ?_ hl, htidy', ?_⟩
        · rwa [show i - (i + 1 - before) = before - 1 by omega]
        · rw [hbits', hbits, List.append_assoc]
      · obtain ⟨htidy, hbits⟩ := literal_bits hs (byteAt bytes i).toNat
        obtain ⟨l, hl, htidy', hbits'⟩ := ih htidy
          (behind_set hseen (slot bytes i) (Nat.le_refl _)) (by omega) (by omega)
        refine ⟨_, .literal (by omega) hl, htidy', ?_⟩
        rw [hbits', hbits, List.append_assoc]
        rfl

/-- The stream: the head of its one block, the bytes, the end mark, and zeros up to the next
byte. -/
theorem streamOnto_bits (out bytes : ByteArray) : ∃ l pad, Coded bytes 0 l ∧ pad.length < 8 ∧
    bitsOf (streamOnto out bytes) =
      bitsOf out ++ (digits 3 3 ++ (l ++ (literalBits 256 ++ pad))) := by
  have hout : (Sink.mk out 0 0).Tidy := ⟨Nat.succ_pos 7, Nat.one_pos⟩
  obtain ⟨htidy, hbits⟩ := put_bits hout (v := 3) (n := 3) (by decide) (by decide)
  have hempty : Behind (Array.replicate 32768 0) 0 := by
    intro k
    rw [Array.getD_eq_getD_getElem?, Array.getElem?_replicate]
    split <;> exact Nat.le_refl 0
  obtain ⟨l, hl, htidy', hbits'⟩ :=
    symbols_bits htidy hempty (Nat.zero_le bytes.size) (Nat.le_add_left _ _)
  obtain ⟨⟨hcount, hpending⟩, hclosed⟩ := literal_bits htidy' 256
  rw [hbits', hbits] at hclosed
  simp only [streamOnto]
  generalize (symbols _ _ _ _ _).literal 256 = closed at *
  have hall : closed.bits = bitsOf out ++ (digits 3 3 ++ (l ++ literalBits 256)) := by
    rw [hclosed]
    simp [Sink.bits, digits, literalBits]
  rw [Sink.bits] at hall
  split
  · rename_i hzero
    refine ⟨l, [], hl, by decide, ?_⟩
    rw [hzero] at hall
    simpa [digits] using hall
  · rename_i hrest
    refine ⟨l, digits 0 (8 - closed.count), hl, by simp; omega, ?_⟩
    have hbyte : digits (UInt8.ofNat closed.pending).toNat 8 =
        digits closed.pending closed.count ++ digits 0 (8 - closed.count) := by
      rw [UInt8.toNat_ofNat', digits_mod _ 8, ← digits_weave hpending, Nat.zero_mul, Nat.add_zero,
        Nat.add_sub_of_le hcount.le]
    rw [bitsOf_push, hbyte, ← List.append_assoc, hall]
    simp

/-! ### Reading -/

theorem extra?_of_rest {codes : Array (Nat × Nat)} {i n : Nat} {a r : List Bool}
    (h : Extends codes i n a) {s : Source} (hs : s.rest = a ++ r) :
    extra? codes i s = some (n, s.skip a.length) := by
  obtain ⟨⟨base, k⟩, hd, hle, hlt, rfl⟩ := h
  rw [extra?, hd]
  simp only [bits?_of_rest hlt hs, Option.map_some, length_digits]
  rw [Nat.add_sub_of_le hle]

theorem byteAt_extract {bytes : ByteArray} {i n : Nat} (hi : i < n) (hn : n ≤ bytes.size) :
    byteAt (bytes.extract 0 n) i = byteAt bytes i := by
  have hsize : i < (bytes.extract 0 n).size := by rw [ByteArray.size_extract]; omega
  rw [byteAt_lt hsize, byteAt_lt (by omega), ByteArray.getElem_extract]
  simp

theorem extract_push {bytes : ByteArray} {i : Nat} (h : i < bytes.size) :
    (bytes.extract 0 i).push (byteAt bytes i) = bytes.extract 0 (i + 1) := by
  rw [← ByteArray.append_toByteArray_singleton, byteAt_lt h, ← ByteArray.extract_add_one h,
    ByteArray.extract_append_extract]
  simp

/-- A reference repeats the bytes that it was compared with, also those that it gives itself. -/
theorem copy_extract {bytes : ByteArray} {i distance n : Nat} (h0 : 0 < distance)
    (hd : distance ≤ i) (hn : i + n ≤ bytes.size)
    (same : ∀ k < n, byteAt bytes (i - distance + k) = byteAt bytes (i + k)) :
    copy (bytes.extract 0 i) distance n = bytes.extract 0 (i + n) := by
  induction n generalizing i with
  | zero => rfl
  | succ n ih =>
    have hbehind : behind (bytes.extract 0 i) distance = byteAt bytes i := by
      have hsize : (bytes.extract 0 i).size = i := by rw [ByteArray.size_extract]; omega
      rw [behind, hsize, if_pos hd, byteAt_extract (by omega) (by omega)]
      exact same 0 (Nat.succ_pos n)
    rw [copy, hbehind, extract_push (by omega), ih (by omega) (by omega), Nat.add_right_comm]
    · rfl
    · intro k hk
      have := same (k + 1) (by omega)
      rwa [← Nat.add_assoc, ← Nat.add_assoc, Nat.add_right_comm i, Nat.add_right_comm,
        show i - distance + 1 = i + 1 - distance by omega] at this

theorem literal_symbol? {k : Nat} (hk : k < 288) {s : Source} {r : List Bool}
    (hs : s.rest = literalBits k ++ r) :
    literalCode.symbol? s = some (k, s.skip (literalBits k).length) := by
  rw [literalBits, length_word]
  exact symbol?_of_rest rfl (literals_have hk) hs

theorem Extends.lt {codes : Array (Nat × Nat)} {i n : Nat} {a : List Bool}
    (h : Extends codes i n a) : i < codes.size := by
  obtain ⟨d, hd, _⟩ := h
  exact (Array.getElem?_eq_some_iff.1 hd).1

theorem length_literalBits (k : Nat) : 0 < (literalBits k).length := by
  rw [literalBits, length_word, literalWord]
  split_ifs
  all_goals exact Nat.succ_pos _

/-- A source that holds the bits of the bytes from a place on and the end mark gives the rest of
the bytes. -/
theorem symbols?_of_rest {bytes : ByteArray} {i : Nat} {l : List Bool} (h : Coded bytes i l)
    {s : Source} {r : List Bool} (hs : s.rest = l ++ (literalBits 256 ++ r)) {fuel : Nat}
    (hfuel : l.length < fuel) :
    symbols? literalCode distanceCode (bytes.extract 0 i) s fuel =
      some (bytes, s.skip (l.length + 7)) := by
  induction h generalizing s fuel with
  | done =>
    obtain ⟨n, rfl⟩ : ∃ n, fuel = n + 1 := Nat.exists_eq_add_of_le' hfuel
    rw [symbols?, literal_symbol? (by decide) hs, ByteArray.extract_zero_size]
    rfl
  | @literal i l hi _ ih =>
    obtain ⟨n, rfl⟩ : ∃ n, fuel = n + 1 := Nat.exists_eq_add_of_le' (Nat.zero_lt_of_lt hfuel)
    have hbyte := (byteAt bytes i).toNat_lt
    have hpos := length_literalBits (byteAt bytes i).toNat
    rw [List.append_assoc] at hs
    rw [List.length_append] at hfuel
    rw [symbols?, literal_symbol? (Nat.lt_trans hbyte (by decide)) hs]
    simp only
    rw [if_pos hbyte, UInt8.ofNat_toNat, extract_push hi, ih (rest_skip hs) (by omega),
      skip_skip, List.length_append, Nat.add_assoc]
  | @reference i length distance a l ha h0 hle hin same _ ih =>
    obtain ⟨n, rfl⟩ : ∃ n, fuel = n + 1 := Nat.exists_eq_add_of_le' (Nat.zero_lt_of_lt hfuel)
    obtain ⟨j, x, k, y, hx, hy, rfl⟩ := ha
    have hj : j < 29 := hx.lt
    have hk : k < 30 := hy.lt
    have hpos := length_literalBits (257 + j)
    simp only [List.append_assoc] at hs
    simp only [List.length_append] at hfuel
    have hs₁ := rest_skip hs
    have hs₂ := rest_skip hs₁
    have hs₃ := rest_skip hs₂
    rw [length_word] at hs₃
    rw [symbols?, literal_symbol? (by omega) hs]
    simp only
    rw [if_neg (by omega), if_neg (by omega), Nat.add_sub_cancel_left, extra?_of_rest hx hs₁]
    simp only
    rw [symbol?_of_rest rfl (distances_have k (by omega)) hs₂]
    simp only
    rw [extra?_of_rest hy hs₃]
    simp only
    rw [copy_extract h0 hle hin same, ih (rest_skip hs₃) (by omega)]
    simp only [skip_skip, List.length_append, length_word, Nat.add_assoc]

/-- A stream gives its content and ends with the byte that its end mark ends in. -/
theorem stream?_of_bits {file bytes : ByteArray} {start : Nat} {l r : List Bool}
    (h : Coded bytes 0 l)
    (hs : (bitsOf file).drop (8 * start) = digits 3 3 ++ (l ++ (literalBits 256 ++ r))) :
    stream? file start = some (bytes, (8 * start + (3 + (l.length + 7)) + 7) / 8) := by
  have hs₀ : (Source.mk file (8 * start)).rest = digits 3 3 ++ (l ++ (literalBits 256 ++ r)) := hs
  have hs₁ : ((Source.mk file (8 * start)).skip 3).rest = l ++ (literalBits 256 ++ r) :=
    rest_skip (l := digits 3 3) hs₀
  have hfuel : l.length < ((Source.mk file (8 * start)).skip 3).left + 1 := by
    rw [← length_rest, hs₁, List.length_append]
    omega
  have hread := symbols?_of_rest h hs₁ hfuel
  rw [ByteArray.extract_same] at hread
  have hblock : block? 1 ByteArray.empty ((Source.mk file (8 * start)).skip 3) =
      some (bytes, (Source.mk file (8 * start)).skip (3 + (l.length + 7))) := by
    rw [block?, if_neg (by decide), if_pos rfl, literals_fixed, distances_fixed]
    rw [← skip_skip]
    exact hread
  rw [stream?, blocks?, bits?_of_rest (v := 3) (by decide) hs₀]
  simp only [hblock]
  rfl

end FleetControl.Deflate

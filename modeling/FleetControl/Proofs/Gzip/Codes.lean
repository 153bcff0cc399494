import FleetControl.Proofs.Gzip.Bits
import Mathlib.Data.List.Chain

/-! # The fixed codes

Every symbol has a word in its code, and reading the word gives the symbol. Lengths and distances
are a symbol and some extra bits: each number lies between the base of one symbol and the next. -/
namespace FleetControl.Inflate

/-- The symbol that a code has for one whole word, from some place in the walk on. -/
def Code.walk (c : Code) (code first index length : Nat) : List Bool → Option Nat
  | [] => none
  | b :: l =>
    let code := code + b.toNat
    let count := c.counts.getD length 0
    if code < first + count then
      if l = [] then c.symbols[index + (code - first)]? else none
    else walk c (2 * code) (2 * (first + count)) (index + count) (length + 1) l

theorem symbolFrom?_of_rest {c : Code} {l r : List Bool} {code first index length k : Nat}
    (hw : c.walk code first index length l = some k) {s : Source} (h : s.rest = l ++ r)
    {fuel : Nat} (hf : l.length ≤ fuel) :
    c.symbolFrom? s code first index length fuel = some (k, s.skip l.length) := by
  induction l generalizing s code first index length fuel with
  | nil => simp [Code.walk] at hw
  | cons b l ih =>
    obtain ⟨fuel, rfl⟩ : ∃ n, fuel = n + 1 := Nat.exists_eq_add_of_le' (Nat.le_trans (by simp) hf)
    rw [Code.walk] at hw
    rw [Code.symbolFrom?, bit?_of_rest h]
    simp only at hw ⊢
    split at hw
    · rename_i hc
      split at hw
      · rename_i hl
        rw [if_pos hc, hw, hl]
        rfl
      · simp at hw
    · rename_i hc
      have hrest : (s.skip 1).rest = l ++ r := rest_skip (l := [b]) h
      rw [if_neg hc, ih hw hrest (Nat.le_of_succ_le_succ hf), skip_skip, List.length_cons,
        Nat.add_comm 1]

/-- How many words of a length a code has. -/
def Code.count (c : Code) (n : Nat) : Nat := c.counts.getD n 0

/-- The first word of a length: words of one length are consecutive numbers, and those of the next
length begin behind them. -/
def Code.first (c : Code) : Nat → Nat
  | 0 => 0
  | n + 1 => 2 * (c.first n + c.count n)

/-- The index of the symbol of the first word of a length. -/
def Code.index (c : Code) : Nat → Nat
  | 0 => 0
  | n + 1 => c.index n + c.count n

/-- The bits of a number, the highest first. -/
def word (v n : Nat) : List Bool := (digits v n).reverse

@[simp] theorem length_word (v n : Nat) : (word v n).length = n := by simp [word]

theorem word_succ (v n : Nat) : word v (n + 1) = v.testBit n :: word v n := by
  simp [word, digits, List.range_succ]

/-- A number that lies behind the shorter words and among those of its length is read whole. `m` is
the length of the first word that is looked at. -/
theorem walk_word {c : Code} {v n m : Nat}
    (behind : ∀ j < n, c.first (m + j) + c.count (m + j) ≤ v / 2 ^ (n - j))
    (among : v < c.first (m + n) + c.count (m + n)) :
    c.walk (2 * (v / 2 ^ (n + 1))) (c.first m) (c.index m) m (word v (n + 1)) =
      c.symbols[c.index (m + n) + (v - c.first (m + n))]? := by
  have hnext : 2 * (v / 2 ^ (n + 1)) + (v.testBit n).toNat = v / 2 ^ n := by
    rw [Nat.toNat_testBit, Nat.pow_succ, ← Nat.div_div_eq_div_mul]
    omega
  rw [word_succ, Code.walk]
  simp only [hnext]
  cases n with
  | zero =>
    rw [Nat.pow_zero, Nat.div_one]
    exact if_pos among
  | succ n =>
    have hlong := behind 0 (Nat.succ_pos n)
    rw [Nat.add_zero, Nat.sub_zero] at hlong
    rw [if_neg (by exact Nat.not_lt.2 hlong)]
    have ih := walk_word (c := c) (v := v) (n := n) (m := m + 1)
      (fun j hj => by simpa [Nat.add_assoc, Nat.add_comm 1] using behind (j + 1) (by omega))
      (by simpa [Nat.add_assoc, Nat.add_comm 1] using among)
    rw [Nat.add_assoc, Nat.add_comm 1] at ih
    exact ih

theorem first_reaches (c : Code) (m d : Nat) :
    (c.first m + c.count m) * 2 ^ (d + 1) ≤ c.first (m + 1 + d) := by
  induction d with
  | zero =>
    rw [Nat.pow_one, Nat.mul_comm]
    rfl
  | succ d ih =>
    calc (c.first m + c.count m) * 2 ^ (d + 1 + 1)
        = 2 * ((c.first m + c.count m) * 2 ^ (d + 1)) := by rw [Nat.pow_succ]; ring
      _ ≤ 2 * (c.first (m + 1 + d) + c.count (m + 1 + d)) :=
        Nat.mul_le_mul_left _ (Nat.le_add_right_of_le ih)

/-- The `n` bits of `v` are a word of a code, with the symbol `k`. -/
def Code.Has (c : Code) (v n k : Nat) : Prop :=
  (0 < n ∧ n ≤ 15) ∧ v < 2 ^ n ∧ (c.first n ≤ v ∧ v < c.first n + c.count n) ∧
    c.symbols[c.index n + (v - c.first n)]? = some k

instance (c : Code) (v n k : Nat) : Decidable (c.Has v n k) :=
  inferInstanceAs (Decidable (_ ∧ _ ∧ _ ∧ _))

/-- A word is read as its symbol: it lies behind every shorter word. -/
theorem symbol?_of_rest {c : Code} (none : c.count 0 = 0) {v n k : Nat} (h : c.Has v n k)
    {s : Source} {r : List Bool} (hs : s.rest = word v n ++ r) :
    c.symbol? s = some (k, s.skip n) := by
  obtain ⟨⟨hpos, h15⟩, short, ⟨from_first, among⟩, symbol⟩ := h
  obtain ⟨n, rfl⟩ : ∃ d, n = 1 + d := ⟨n - 1, by omega⟩
  have behind : ∀ j < n, c.first (1 + j) + c.count (1 + j) ≤ v / 2 ^ (n - j) := by
    intro j hj
    obtain ⟨d, rfl⟩ : ∃ d, n = j + d + 1 := ⟨n - j - 1, by omega⟩
    rw [Nat.le_div_iff_mul_le (Nat.two_pow_pos _), show j + d + 1 - j = d + 1 by omega]
    refine Nat.le_trans (first_reaches c (1 + j) d) ?_
    rwa [show 1 + j + 1 + d = 1 + (j + d + 1) by omega]
  have first : c.first 1 = 0 := by simp [Code.first, none]
  have index : c.index 1 = 0 := by simp [Code.index, none]
  have walk := walk_word behind among
  rw [Nat.add_comm n 1, Nat.div_eq_of_lt short, first, index, symbol] at walk
  have hfuel : (word v (1 + n)).length ≤ 15 := by rwa [length_word]
  have hread := symbolFrom?_of_rest walk hs hfuel
  rwa [length_word] at hread

/-! ### Bases and extra bits -/

/-- The bases increase, and the extra bits of each reach up to the next. -/
def Rises (codes : List (Nat × Nat)) : Prop :=
  codes.IsChain fun a b => a.1 < b.1 ∧ b.1 ≤ a.1 + 2 ^ a.2

instance (codes : List (Nat × Nat)) : Decidable (Rises codes) :=
  inferInstanceAs (Decidable (List.IsChain _ _))

theorem foldl_count (n : Nat) (codes : List (Nat × Nat)) (i : Nat) :
    codes.foldl (fun i e => if e.1 ≤ n then i + 1 else i) i =
      i + codes.countP (·.1 ≤ n) := by
  induction codes generalizing i with
  | nil => rfl
  | cons e l ih =>
    rw [List.foldl_cons, ih, List.countP_cons]
    by_cases h : e.1 ≤ n
    · simp only [h, if_true, decide_true]
      omega
    · simp [h]

theorem count_eq_zero {n : Nat} {e : Nat × Nat} {l : List (Nat × Nat)} (h : Rises (e :: l))
    (hn : n < e.1) : (e :: l).countP (·.1 ≤ n) = 0 := by
  induction l generalizing e with
  | nil => simp; omega
  | cons d l ih =>
    obtain ⟨⟨hlt, _⟩, htail⟩ := List.isChain_cons_cons.1 h
    rw [List.countP_cons, ih htail (by omega)]
    simp; omega

/-- Among rising bases, the last one that is not above a number leaves the extra bits. -/
theorem base_of_rises {n : Nat} {e : Nat × Nat} {l : List (Nat × Nat)} (h : Rises (e :: l))
    (hn : e.1 ≤ n) (top : ∀ d ∈ (e :: l).getLast?, n < d.1 + 2 ^ d.2) :
    ∃ d, (e :: l)[l.countP (·.1 ≤ n)]? = some d ∧ d.1 ≤ n ∧ n - d.1 < 2 ^ d.2 := by
  induction l generalizing e with
  | nil => exact ⟨e, rfl, hn, by have := top e rfl; omega⟩
  | cons d l ih =>
    obtain ⟨⟨_, hreach⟩, htail⟩ := List.isChain_cons_cons.1 h
    by_cases hd : d.1 ≤ n
    · obtain ⟨b, hb, hle, hlt⟩ := ih htail hd (by simpa using top)
      refine ⟨b, ?_, hle, hlt⟩
      rw [List.countP_cons, if_pos (by simpa using hd)]
      exact hb
    · rw [count_eq_zero htail (by omega)]
      exact ⟨e, rfl, hn, by omega⟩

end FleetControl.Inflate

namespace FleetControl.Deflate

open FleetControl.Inflate

theorem entry_spec {codes : Array (Nat × Nat)} {e : Nat × Nat} {l : List (Nat × Nat)}
    (hcodes : codes.toList = e :: l) (h : Rises (e :: l)) {n : Nat} (hn : e.1 ≤ n)
    (top : ∀ d ∈ (e :: l).getLast?, n < d.1 + 2 ^ d.2) :
    ∃ d, codes[entry codes n]? = some d ∧ d.1 ≤ n ∧ n - d.1 < 2 ^ d.2 := by
  obtain ⟨d, hd, hle, hlt⟩ := base_of_rises h hn top
  refine ⟨d, ?_, hle, hlt⟩
  rw [entry, ← Array.foldl_toList, hcodes, foldl_count, List.countP_cons,
    if_pos (by simpa using hn), ← Array.getElem?_toList, hcodes]
  simpa using hd

/-- A length is the base of its symbol and the extra bits. -/
theorem length_entry {n : Nat} (h3 : 3 ≤ n) (h258 : n ≤ 258) :
    ∃ d, lengthCodes[entry lengthCodes n]? = some d ∧ d.1 ≤ n ∧ n - d.1 < 2 ^ d.2 := by
  refine entry_spec rfl (by decide) h3 ?_
  rintro d ⟨⟩
  exact Nat.lt_succ_of_le h258

/-- A distance is the base of its symbol and the extra bits. -/
theorem distance_entry {n : Nat} (h1 : 1 ≤ n) (h32768 : n ≤ 32768) :
    ∃ d, distanceCodes[entry distanceCodes n]? = some d ∧ d.1 ≤ n ∧ n - d.1 < 2 ^ d.2 := by
  refine entry_spec rfl (by decide) h1 ?_
  rintro d ⟨⟩
  exact Nat.lt_succ_of_le h32768

/-! ### Words -/

/-- Reversing puts the low bits of a number, from the top, before what is there. -/
theorem digits_reverseBits (v acc n k : Nat) :
    digits (reverseBits v acc n) (n + k) = word v n ++ digits acc k := by
  induction n generalizing v acc k with
  | zero => simp [reverseBits, word, digits]
  | succ n ih =>
    have hacc : digits (2 * acc + v % 2) (k + 1) = v.testBit 0 :: digits acc k := by
      have hhalf : (2 * acc + v % 2) / 2 = acc := by omega
      rw [digits_succ, hhalf, Nat.testBit_zero, Nat.testBit_zero, Nat.mul_add_mod, Nat.mod_mod]
    rw [reverseBits, Nat.add_assoc, Nat.add_comm 1, ih, hacc, word, word, digits_succ,
      List.reverse_cons, List.append_assoc]
    rfl

theorem reverseBits_lt (v acc n : Nat) : reverseBits v acc n < (acc + 1) * 2 ^ n := by
  induction n generalizing v acc with
  | zero => simp [reverseBits]
  | succ n ih =>
    have hstep : 2 * acc + v % 2 + 1 ≤ (acc + 1) * 2 := by omega
    calc reverseBits v acc (n + 1)
        < (2 * acc + v % 2 + 1) * 2 ^ n := ih _ _
      _ ≤ (acc + 1) * 2 * 2 ^ n := Nat.mul_le_mul_right _ hstep
      _ = (acc + 1) * 2 ^ (n + 1) := by rw [Nat.pow_succ]; ring

theorem code_bits {s : Sink} (hs : s.Tidy) (v : Nat) {n : Nat} (hn : n ≤ 16) :
    (s.code v n).Tidy ∧ (s.code v n).bits = s.bits ++ word v n := by
  have h := put_bits hs (by simpa using reverseBits_lt v 0 n) hn
  rwa [show digits (reverseBits v 0 n) n = word v n by
    simpa [digits] using digits_reverseBits v 0 n 0] at h

/-- The number and the bits of a symbol in the fixed code of literals and lengths. -/
def literalWord (symbol : Nat) : Nat × Nat :=
  if symbol < 144 then (0x30 + symbol, 8)
  else if symbol < 256 then (0x190 + (symbol - 144), 9)
  else if symbol < 280 then (symbol - 256, 7)
  else (0xc0 + (symbol - 280), 8)

theorem literal_bits {s : Sink} (hs : s.Tidy) (symbol : Nat) : (s.literal symbol).Tidy ∧
    (s.literal symbol).bits =
      s.bits ++ word (literalWord symbol).1 (literalWord symbol).2 := by
  rw [Sink.literal, literalWord]
  split_ifs
  all_goals exact code_bits hs _ (by decide)

/-- The fixed code of literals and lengths. -/
def literalCode : Code where
  counts := #[0, 0, 0, 0, 0, 0, 0, 24, 152, 112, 0, 0, 0, 0, 0, 0]
  symbols := (List.range' 256 24 ++ (List.range' 0 144 ++ (List.range' 280 8 ++
    (List.range' 144 112 ++ [])))).toArray

/-- The fixed code of distances. -/
def distanceCode : Code where
  counts := #[0, 0, 0, 0, 0, 32, 0, 0, 0, 0, 0, 0, 0, 0, 0, 0]
  symbols := (List.range' 0 32).toArray

/-- Codes agree if their lists do. -/
theorem eq_of_lists {x : Option Code} {c : Code}
    (h : x.map (fun c => (c.counts.toList, c.symbols.toList)) =
      some (c.counts.toList, c.symbols.toList)) : x = some c := by
  obtain ⟨d, rfl, h⟩ := Option.map_eq_some_iff.1 h
  cases c
  cases d
  simpa using h

theorem literals_fixed : Code.ofLengths? fixedLiterals = some literalCode :=
  eq_of_lists (by decide +kernel)

theorem distances_fixed : Code.ofLengths? fixedDistances = some distanceCode :=
  eq_of_lists (by decide)

theorem getElem?_range_append (a n i : Nat) (l : List Nat) :
    (List.range' a n ++ l)[i]? = if i < n then some (a + i) else l[i - n]? := by
  rw [List.getElem?_append, List.length_range']
  split_ifs with h
  · rw [List.getElem?_range' h, Nat.one_mul]
  · rfl

/-- The symbols of seven bits come first, then those of eight and of nine. -/
theorem literal_symbol (i : Nat) : literalCode.symbols[i]? =
    if i < 24 then some (256 + i)
    else if i < 168 then some (i - 24)
    else if i < 176 then some (112 + i)
    else if i < 288 then some (i - 32) else none := by
  simp only [literalCode, List.getElem?_toArray, getElem?_range_append]
  grind

theorem literal_places :
    (literalCode.first 7 = 0 ∧ literalCode.count 7 = 24 ∧ literalCode.index 7 = 0) ∧
    (literalCode.first 8 = 48 ∧ literalCode.count 8 = 152 ∧ literalCode.index 8 = 24) ∧
    (literalCode.first 9 = 400 ∧ literalCode.count 9 = 112 ∧ literalCode.index 9 = 176) := by
  decide

theorem literals_have {k : Nat} (hk : k < 288) :
    literalCode.Has (literalWord k).1 (literalWord k).2 k := by
  obtain ⟨⟨first7, count7, index7⟩, ⟨first8, count8, index8⟩, first9, count9, index9⟩ :=
    literal_places
  rw [literalWord]
  split_ifs with h144 h256 h280
  all_goals
    simp only [Code.Has, literal_symbol, first7, count7, index7, first8, count8, index8, first9,
      count9, index9]
    grind

theorem distances_have : ∀ k < 32, distanceCode.Has k 5 k := by decide

end FleetControl.Deflate

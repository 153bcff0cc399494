import FleetControl.Text.Base64
import Mathlib.Data.List.Basic

/-! # Reading Base64 text back

Three bytes are four symbols, and each group of symbols is read as the bytes that it was written
for. -/
namespace FleetControl.Base64

/-- The symbols of bytes, padded to groups of four. -/
def symbols : List UInt8 → List Char
  | [] => []
  | [a] => [symbol (a.toNat * 16 / 64), symbol (a.toNat * 16), '=', '=']
  | [a, b] =>
    let n := (a.toNat * 256 + b.toNat) * 4
    [symbol (n / 4096), symbol (n / 64), symbol n, '=']
  | a :: b :: c :: rest =>
    let n := (a.toNat * 256 + b.toNat) * 256 + c.toNat
    symbol (n / 262144) :: symbol (n / 4096) :: symbol (n / 64) :: symbol n :: symbols rest

theorem toList_encodeOnto (text : String) (bs : List UInt8) :
    (encodeOnto text bs).toList = text.toList ++ symbols bs := by
  fun_induction symbols bs generalizing text with
  | case1 => simp [encodeOnto]
  | case2 a => simp [encodeOnto]
  | case3 a b n => simp [encodeOnto, n]
  | case4 a b c rest n ih =>
    rw [encodeOnto, ih]
    simp [n]

theorem value_symbol (n : Nat) : value? (symbol n) = some (n % 64) := by
  have h : ∀ m < 64, value? (symbol m) = some m := by decide
  have hmod : symbol n = symbol (n % 64) := by simp [symbol]
  rw [hmod]
  exact h _ (Nat.mod_lt _ (by decide))

theorem symbol_ne_pad (n : Nat) : symbol n ≠ '=' := by
  intro h
  have hv := value_symbol n
  rw [h] at hv
  cases hv

theorem ofNat_eq {b : UInt8} {n : Nat} (h : n = b.toNat) : UInt8.ofNat n = b := by
  rw [h, UInt8.ofNat_toNat]

theorem decodeOnto_symbols (bytes : ByteArray) (bs : List UInt8) :
    ∃ read, decodeOnto bytes (symbols bs) = some read ∧
      read.data.toList = bytes.data.toList ++ bs := by
  fun_induction symbols bs generalizing bytes with
  | case1 => exact ⟨bytes, rfl, by simp⟩
  | case2 a =>
    have ha := a.toNat_lt
    refine ⟨bytes.push a, ?_, by simp⟩
    simp only [decodeOnto, value_symbol, if_true, List.isEmpty_nil, true_and]
    rw [if_pos (by omega), ofNat_eq (b := a) (by omega)]
  | case3 a b n =>
    have ha := a.toNat_lt
    have hb := b.toNat_lt
    refine ⟨(bytes.push a).push b, ?_, by simp⟩
    simp only [decodeOnto, value_symbol, symbol_ne_pad, if_false, if_true, List.isEmpty_nil,
      true_and]
    rw [if_pos (by omega), ofNat_eq (b := a) (by omega), ofNat_eq (b := b) (by omega)]
  | case4 a b c rest n ih =>
    have ha := a.toNat_lt
    have hb := b.toNat_lt
    have hc := c.toNat_lt
    obtain ⟨read, hread, hbytes⟩ := ih (((bytes.push a).push b).push c)
    refine ⟨read, ?_, by simpa using hbytes⟩
    simp only [decodeOnto, value_symbol, symbol_ne_pad, if_false]
    rw [ofNat_eq (b := a) (by omega), ofNat_eq (b := b) (by omega), ofNat_eq (b := c) (by omega)]
    exact hread

theorem toList_loop (bytes : ByteArray) (i : Nat) (done : List UInt8) :
    ByteArray.toList.loop bytes i done = done.reverse ++ bytes.data.toList.drop i := by
  fun_induction ByteArray.toList.loop bytes i done with
  | case1 i done h ih =>
    have hi : i < bytes.data.toList.length := by
      rw [Array.length_toList]
      exact h
    have hget : bytes.get! i = bytes.data.toList[i] := getElem!_pos bytes.data i h
    rw [ih, List.drop_eq_getElem_cons hi, hget, List.reverse_cons, List.append_assoc]
    rfl
  | case2 i done h =>
    have hi : bytes.data.toList.length ≤ i := by
      rw [Array.length_toList]
      exact Nat.le_of_not_lt h
    rw [List.drop_of_length_le hi, List.append_nil]

theorem toList_bytes (bytes : ByteArray) : bytes.toList = bytes.data.toList := by
  rw [ByteArray.toList, toList_loop]
  rfl

/-- Written bytes are read back. -/
theorem decode_encode (bytes : ByteArray) : decode? (encode bytes) = some bytes := by
  obtain ⟨read, hread, hbytes⟩ := decodeOnto_symbols ByteArray.empty bytes.toList
  rw [decode?, encode, toList_encodeOnto]
  change decodeOnto ByteArray.empty (symbols bytes.toList) = some bytes
  rw [hread]
  congr 1
  apply ByteArray.ext
  apply Array.toList_inj.mp
  rw [hbytes, toList_bytes]
  rfl

end FleetControl.Base64

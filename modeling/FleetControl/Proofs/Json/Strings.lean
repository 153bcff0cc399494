import FleetControl.Json.Tree
import FleetControl.Json.Writer
import FleetControl.Proofs.Text.Hex
import Mathlib.Tactic.SplitIfs

/-! # Reading written strings back

A string between its quotes is read back character by character, whichever escapes were written,
and what follows the closing quote is left over. -/
namespace FleetControl

namespace Hex

theorem unit_ofUnit {n : Nat} (h : n < 0x10000) : Tree.unit? (digit (n / 4096)) (digit (n / 256))
    (digit (n / 16)) (digit n) = some n := by
  simp only [Tree.unit?, value_digit]
  congr 1
  omega

end Hex

namespace Json

attribute [local simp] Tree.readString

/-- A reading that has taken a character and goes on behind its escape. -/
def ReadBack (escape : Char → List Char) (c : Char) : Prop :=
  ∀ text rest, Tree.readString text true (escape c ++ rest) =
    Tree.readString (text.push c) true rest

theorem char_not_surrogate (c : Char) : ¬ (0xd800 ≤ c.toNat ∧ c.toNat < 0xe000) := by
  rintro ⟨hlow, hhigh⟩
  rcases c.valid with hv | ⟨hv, -⟩
  · have : c.toNat < 0xd800 := hv
    omega
  · have : 0xdfff < c.toNat := hv
    omega

theorem char_lt (c : Char) : c.toNat < 0x110000 := by
  rcases c.valid with hv | ⟨-, hv⟩
  · have : c.toNat < 0xd800 := hv
    omega
  · exact hv

theorem readBack_unit {c : Char} (h : c.toNat < 0x10000) (text : String) (rest : List Char) :
    Tree.readString text true (unitEscape c.toNat ++ rest) =
      Tree.readString (text.push c) true rest := by
  have hs := char_not_surrogate c
  have hhigh : Tree.isHigh c.toNat = false := by
    simp only [Tree.isHigh, Bool.and_eq_false_iff, decide_eq_false_iff_not]
    omega
  have hlow : Tree.isLow c.toNat = false := by
    simp only [Tree.isLow, Bool.and_eq_false_iff, decide_eq_false_iff_not]
    omega
  simp only [unitEscape, Hex.ofUnit, List.cons_append, List.nil_append]
  rw [Tree.readString]
  simp only [Hex.unit_ofUnit h, hhigh, hlow, Bool.false_eq_true, if_false, Char.ofNat_toNat]

theorem readBack_pair {c : Char} (h : 0x10000 ≤ c.toNat) (text : String) (rest : List Char) :
    Tree.readString text true (unitEscape (0xd800 + (c.toNat - 0x10000) / 0x400) ++
      unitEscape (0xdc00 + (c.toNat - 0x10000) % 0x400) ++ rest) =
      Tree.readString (text.push c) true rest := by
  have hlt := char_lt c
  let high := 0xd800 + (c.toNat - 0x10000) / 0x400
  let low := 0xdc00 + (c.toNat - 0x10000) % 0x400
  have hhigh : Tree.isHigh high = true := by
    simp only [Tree.isHigh, Bool.and_eq_true, decide_eq_true_eq, high]
    omega
  have hlow : Tree.isLow low = true := by
    simp only [Tree.isLow, Bool.and_eq_true, decide_eq_true_eq, low]
    omega
  have hpair : Tree.pair high low = c := by
    have : 0x10000 + (high - 0xd800) * 0x400 + (low - 0xdc00) = c.toNat := by
      simp only [high, low]
      omega
    rw [Tree.pair, this, Char.ofNat_toNat]
  have h₁ : high < 0x10000 := by simp only [high]; omega
  have h₂ : low < 0x10000 := by simp only [low]; omega
  change Tree.readString text true (unitEscape high ++ unitEscape low ++ rest) = _
  simp only [unitEscape, Hex.ofUnit, List.cons_append, List.nil_append]
  rw [Tree.readString]
  simp only [Hex.unit_ofUnit h₁, Hex.unit_ofUnit h₂, hhigh, hlow, if_true, hpair]

theorem readBack_units (c : Char) : ReadBack unitEscapes c := by
  intro text rest
  unfold unitEscapes
  dsimp only
  split
  · exact readBack_unit ‹_› text rest
  · exact readBack_pair (Nat.le_of_not_lt ‹_›) text rest

theorem shortEscape_escaped {c : Char} {cs : List Char} (h : shortEscape? c = some cs) :
    ∃ x, cs = ['\\', x] ∧ x ≠ 'u' ∧ Tree.escaped? x = some c := by
  unfold shortEscape? at h
  split_ifs at h <;> cases h <;> subst c <;> exact ⟨_, rfl, by decide, rfl⟩

theorem readBack_short {c : Char} {cs : List Char} (h : shortEscape? c = some cs) (text : String)
    (rest : List Char) : Tree.readString text true (cs ++ rest) =
      Tree.readString (text.push c) true rest := by
  obtain ⟨x, rfl, hu, hx⟩ := shortEscape_escaped h
  rw [List.cons_append, List.cons_append, List.nil_append, Tree.readString]
  · simp only [hx]
  · rintro a b c d rest' he
    exact absurd he hu

theorem readBack_plain {c : Char} (hn : shortEscape? c = none) (hc : ¬ c.toNat < 0x20)
    (text : String) (rest : List Char) : Tree.readString text true (c :: rest) =
      Tree.readString (text.push c) true rest := by
  have hquote : c ≠ '"' := by rintro rfl; cases hn
  have hslash : c ≠ '\\' := by rintro rfl; cases hn
  rw [Tree.readString]
  · rw [if_neg hc]
  all_goals simp_all

theorem readBack_canonical (c : Char) : ReadBack canonicalEscape c := by
  intro text rest
  unfold canonicalEscape
  cases hs : shortEscape? c with
  | some cs => exact readBack_short hs text rest
  | none =>
    dsimp only
    split
    · exact readBack_units c text rest
    · rename_i hc
      exact readBack_plain hs (fun h => hc (Or.inl h)) text rest

/-- A written string is read back up to its closing quote. -/
theorem readString_written {escape : Char → List Char} (h : ∀ c, ReadBack escape c) (text : String)
    (cs rest : List Char) : Tree.readString text true (cs.flatMap escape ++ '"' :: rest) =
      some (some (text ++ String.ofList cs), rest) := by
  induction cs generalizing text with
  | nil => simp
  | cons c cs ih =>
    rw [List.flatMap_cons, List.append_assoc, h c, ih]
    congr 3
    apply String.toList_inj.mp
    simp

/-- Behind a written string the rest is the same, and so is the string. -/
theorem string_unique {escape : Char → List Char} (h : ∀ c, ReadBack escape c)
    {cs cs' rest rest' : List Char}
    (he : cs.flatMap escape ++ '"' :: rest = cs'.flatMap escape ++ '"' :: rest') :
    cs = cs' ∧ rest = rest' := by
  have hread := readString_written h "" cs rest
  rw [he, readString_written h] at hread
  simp only [Option.some.injEq, Prod.mk.injEq] at hread
  have htext := congrArg String.toList hread.1
  simp only [String.toList_append, String.toList_ofList] at htext
  exact ⟨(List.append_cancel_left htext).symm, hread.2.symm⟩

end Json

end FleetControl

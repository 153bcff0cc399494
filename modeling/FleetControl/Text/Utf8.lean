import FleetControl.Power

/-!
# Text from bytes

Reading of UTF-8 where invalid bytes are replaced: each longest run that could begin a character
but does not continue as one becomes U+FFFD.
-/
namespace FleetControl.Utf8

/-- How many bytes follow a lead byte, and the range that the first of them must lie in. -/
def lead? (b : Nat) : Option (Nat × Nat × Nat) :=
  if 0xc2 ≤ b ∧ b ≤ 0xdf then some (1, 0x80, 0xbf)
  else if b = 0xe0 then some (2, 0xa0, 0xbf)
  else if (0xe1 ≤ b ∧ b ≤ 0xec) ∨ b = 0xee ∨ b = 0xef then some (2, 0x80, 0xbf)
  else if b = 0xed then some (2, 0x80, 0x9f)
  else if b = 0xf0 then some (3, 0x90, 0xbf)
  else if 0xf1 ≤ b ∧ b ≤ 0xf3 then some (3, 0x80, 0xbf)
  else if b = 0xf4 then some (3, 0x80, 0x8f)
  else none

/-- The character that replaces invalid bytes. -/
def replacement : Char := Char.ofNat 0xfffd

/-- A character that is begun: its bits so far, how many bytes it still needs, and the range of
the next one. -/
structure Begun where
  bits : Nat
  need : Nat
  low : Nat
  high : Nat

/-- Reads a byte with nothing begun. -/
def start (out : String) (b : Nat) : String × Option Begun :=
  if b < 0x80 then (out.push (Char.ofNat b), none)
  else
    match lead? b with
    | none => (out.push replacement, none)
    | some (n, low, high) => (out, some ⟨b % 2 ^ (6 - n), n, low, high⟩)

/-- Reads a byte. -/
def step (out : String) (begun : Option Begun) (b : Nat) : String × Option Begun :=
  match begun with
  | none => start out b
  | some g =>
    if g.low ≤ b ∧ b ≤ g.high then
      let bits := g.bits * 64 + b % 64
      if g.need ≤ 1 then (out.push (Char.ofNat bits), none)
      else (out, some ⟨bits, g.need - 1, 0x80, 0xbf⟩)
    else start (out.push replacement) b

/-- The text of some bytes, invalid ones replaced. -/
def lossy (bytes : ByteArray) : String :=
  let (out, begun) := bytes.toList.foldl (fun s b => step s.1 s.2 b.toNat) ("", none)
  match begun with
  | none => out
  | some _ => out.push replacement

end FleetControl.Utf8

import FleetControl.Power

/-!
# Hexadecimal text

Bytes as pairs of lowercase digits. `isDigest` recognises the one spelling of a digest or a
generated credential that the rest of the library accepts.
-/
namespace FleetControl.Hex

/-- The lowercase digit of a value below sixteen. -/
def digit (n : Nat) : Char := Nat.digitChar (n % 16)

/-- The value of a hexadecimal digit of either case. -/
def value? (c : Char) : Option Nat :=
  if '0' ≤ c ∧ c ≤ '9' then some (c.toNat - '0'.toNat)
  else if 'a' ≤ c ∧ c ≤ 'f' then some (c.toNat - 'a'.toNat + 10)
  else if 'A' ≤ c ∧ c ≤ 'F' then some (c.toNat - 'A'.toNat + 10)
  else none

/-- A digit in the spelling that `encode` writes. -/
def isLowerDigit (c : Char) : Bool := ('0' ≤ c && c ≤ '9') || ('a' ≤ c && c ≤ 'f')

/-- The two digits of a byte, high half first. -/
def ofByte (b : UInt8) : List Char := [digit (b.toNat / 16), digit (b.toNat % 16)]

/-- Each byte as two lowercase digits. -/
def encode (bytes : ByteArray) : String :=
  bytes.foldl (fun text b => (text.push (digit (b.toNat / 16))).push (digit (b.toNat % 16))) ""

/-- Appends the bytes that pairs of digits stand for; refuses an odd count or another character. -/
def decodeOnto (bytes : ByteArray) : List Char → Option ByteArray
  | [] => some bytes
  | [_] => none
  | a :: b :: rest =>
    match value? a, value? b with
    | some x, some y => decodeOnto (bytes.push (UInt8.ofNat (16 * x + y))) rest
    | _, _ => none

/-- The bytes that pairs of digits stand for. -/
def decode? (text : String) : Option ByteArray := decodeOnto ByteArray.empty text.toList

/-- The four lowercase digits of a 16-bit unit. -/
def ofUnit (n : Nat) : List Char :=
  [digit (n / 4096), digit (n / 256), digit (n / 16), digit n]

/-- Exactly 64 lowercase digits: the text of a 256-bit value. -/
def isDigest (text : String) : Bool :=
  text.utf8ByteSize == 64 && text.toList.all isLowerDigit

theorem value_digit_zero : value? (digit 0) = some 0 := by decide

end FleetControl.Hex

import FleetControl.Text.Hex

/-!
# Identifiers

128-bit identifiers of commands, bridge jobs and connections. They are written with hyphens in
lowercase; reading also takes the compact, braced and URN spellings in either case.
-/
namespace FleetControl

/-- A 128-bit identifier. -/
structure Uuid where
  bits : BitVec 128
  deriving DecidableEq

namespace Uuid

instance : Inhabited Uuid := ⟨⟨0⟩⟩

/-- The 32 digits, high end first. -/
def digits (id : Uuid) : List Char :=
  (List.range 32).map fun i => Hex.digit (id.bits.toNat / 16 ^ (31 - i))

/-- Groups of 8, 4, 4, 4 and 12 digits, joined by hyphens. -/
def hyphenated (ds : List Char) : List Char :=
  ds.take 8 ++ '-' :: (ds.drop 8).take 4 ++ '-' :: (ds.drop 12).take 4 ++
    '-' :: (ds.drop 16).take 4 ++ '-' :: ds.drop 20

/-- The written form. -/
def text (id : Uuid) : String := String.ofList (hyphenated id.digits)

instance : ToString Uuid := ⟨text⟩

/-- The identifier with exactly these 32 digits. -/
def ofDigits? (ds : List Char) : Option Uuid :=
  if ds.length = 32 then
    (ds.mapM Hex.value?).map fun vs => ⟨BitVec.ofNat 128 (vs.foldl (fun n v => 16 * n + v) 0)⟩
  else none

/-- The digits between hyphens at their five places, 36 characters in all. -/
def stripHyphens? (cs : List Char) : Option (List Char) :=
  if cs.length = 36 ∧ cs[8]? = some '-' ∧ cs[13]? = some '-' ∧ cs[18]? = some '-' ∧
      cs[23]? = some '-' then
    some (cs.take 8 ++ (cs.drop 9).take 4 ++ (cs.drop 14).take 4 ++ (cs.drop 19).take 4 ++
      cs.drop 24)
  else none

/-- Reads the compact, hyphenated, braced or URN spelling. -/
def ofChars? (cs : List Char) : Option Uuid :=
  if cs.length = 32 then ofDigits? cs
  else if cs.length = 36 then (stripHyphens? cs).bind ofDigits?
  else if cs.length = 38 then
    if cs.head? = some '\x7b' ∧ cs.getLast? = some '\x7d' then
      (stripHyphens? (cs.drop 1).dropLast).bind ofDigits?
    else none
  else if cs.length = 45 then
    if cs.take 9 = "urn:uuid:".toList then (stripHyphens? (cs.drop 9)).bind ofDigits?
    else none
  else none

/-- Reads any accepted spelling. -/
def parse? (s : String) : Option Uuid := ofChars? s.toList

/-- The `n`-th identifier of a family, in the shape of a random one. -/
def numbered (family n : Nat) : Uuid :=
  ⟨BitVec.ofNat 128 ((family % 2 ^ 32) * 2 ^ 96 + 4 * 2 ^ 76 + 8 * 2 ^ 60 + n % 2 ^ 60)⟩

end Uuid

end FleetControl

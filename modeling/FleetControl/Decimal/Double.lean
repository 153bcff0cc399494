import FleetControl.Power

/-!
# Binary64 numbers

A double is kept as its 64 bits, so equality is decidable and every operation is exact integer
arithmetic followed by one rounding to nearest, ties to even.
-/
namespace FleetControl

/-- A binary64 number, by its bits. -/
structure Double where
  bits : UInt64
  deriving DecidableEq

namespace Double

/-- Whether the sign bit is set. -/
def isNegative (d : Double) : Bool := d.bits.toNat ≥ 2 ^ 63

/-- The stored exponent. -/
def biased (d : Double) : Nat := d.bits.toNat / 2 ^ 52 % 2048

/-- The stored fraction. -/
def fraction (d : Double) : Nat := d.bits.toNat % 2 ^ 52

/-- Neither infinite nor a NaN. -/
def isFinite (d : Double) : Bool := d.biased < 2047

/-- The integer significand `m` of a finite magnitude `m * 2 ^ exponent`. -/
def significand (d : Double) : Nat :=
  if d.biased = 0 then d.fraction else 2 ^ 52 + d.fraction

/-- The exponent `q` of a finite magnitude `significand * 2 ^ q`. -/
def exponent (d : Double) : Int := if d.biased = 0 then -1074 else (d.biased : Int) - 1075

/-- Whether the magnitude is zero. -/
def isZero (d : Double) : Bool := d.biased = 0 && d.fraction = 0

/-- The positive zero. -/
def zero : Double := ⟨0⟩

/-- Flips the sign. -/
def negate (d : Double) : Double := ⟨d.bits ^^^ 0x8000000000000000⟩

/-- Numerator and denominator of `num / den` scaled by `2 ^ e`. -/
def scaled (num den : Nat) (e : Int) : Nat × Nat :=
  if e ≥ 0 then (num * 2 ^ e.toNat, den) else (num, den * 2 ^ (-e).toNat)

/-- The nearest integer to `num / den`; a half goes to the even neighbour. -/
def roundHalfEven (num den : Nat) : Nat :=
  let q := num / den
  let r := num % den
  if 2 * r < den then q
  else if 2 * r > den then q + 1
  else if q % 2 = 0 then q else q + 1

/-- The exponent of the last place of the double nearest to `num / den`. -/
def lastPlace (num den : Nat) : Int :=
  let guess : Int := (Nat.log2 num : Int) - (Nat.log2 den : Int) - 53
  let (n, d) := scaled num den (-guess)
  let e := if n / d ≥ 2 ^ 53 then guess + 1 else guess
  if e < -1074 then -1074 else e

/-- The nonnegative double nearest to `num / den`; too large a quotient gives infinity. -/
def ofRatio (num den : Nat) : Double :=
  if num = 0 then zero
  else
    let e := lastPlace num den
    let (n, d) := scaled num den (-e)
    let q := roundHalfEven n d
    let stored : Nat := if q < 2 ^ 52 then q else (e + 1075).toNat * 2 ^ 52 + (q - 2 ^ 52)
    if stored ≥ 2047 * 2 ^ 52 then ⟨UInt64.ofNat (2047 * 2 ^ 52)⟩ else ⟨UInt64.ofNat stored⟩

/-- The nonnegative double nearest to a natural number. -/
def ofNat (n : Nat) : Double := ofRatio n 1

/-- Numerator and denominator of a finite magnitude. -/
def ratio (d : Double) : Nat × Nat := scaled d.significand 1 d.exponent

/-- The rounded product of two magnitudes. -/
def mul (a b : Double) : Double :=
  let (n, d) := a.ratio
  let (n', d') := b.ratio
  ofRatio (n * n') (d * d')

/-- The rounded quotient of two magnitudes. -/
def div (a b : Double) : Double :=
  let (n, d) := a.ratio
  let (n', d') := b.ratio
  ofRatio (n * d') (d * n')

/-- The rounded sum of two magnitudes. -/
def add (a b : Double) : Double :=
  let (n, d) := a.ratio
  let (n', d') := b.ratio
  ofRatio (n * d' + n' * d) (d * d')

/-- Multiplies or divides a magnitude by powers of ten, each step rounded once: a power above 308
is taken in steps, and a result that is not finite is refused. -/
def scaleTen (f : Double) (e : Int) : Nat → Option Double
  | 0 => none
  | fuel + 1 =>
    if e.natAbs ≤ 308 then
      if e ≥ 0 then
        let r := mul f (ofNat (10 ^ e.toNat))
        if r.isFinite then some r else none
      else some (div f (ofNat (10 ^ (-e).toNat)))
    else if f.isZero then some f
    else if e ≥ 0 then none
    else scaleTen (div f (ofNat (10 ^ 308))) (e + 308) fuel

/-- Reads `significand * 10 ^ e`: the significand is rounded first, then the product. -/
def ofDecimal? (significand : Nat) (e : Int) : Option Double :=
  scaleTen (ofNat significand) e 16

example : ofDecimal? 15 (-1) = some ⟨0x3ff8000000000000⟩ := by decide +kernel

end Double

end FleetControl

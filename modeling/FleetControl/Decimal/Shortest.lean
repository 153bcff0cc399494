import FleetControl.Decimal.Double

/-!
# The shortest decimal that reads back

For 1, 2, … 17 digits the two neighbours of the value on that decimal grid are tested against the
interval of reals that round to it. The first grid with a hit wins; of two hits the nearer.
-/
namespace FleetControl.Shortest

open FleetControl

/-- A positive quotient of naturals. -/
structure Ratio where
  num : Nat
  den : Nat

/-- The order of two quotients. -/
def Ratio.le (a b : Ratio) : Bool := a.num * b.den ≤ b.num * a.den

/-- The strict order of two quotients. -/
def Ratio.lt (a b : Ratio) : Bool := a.num * b.den < b.num * a.den

/-- `n * 10 ^ k` as a quotient. -/
def decimal (n : Nat) (k : Int) : Ratio :=
  if k ≥ 0 then ⟨n * 10 ^ k.toNat, 1⟩ else ⟨n, 10 ^ (-k).toNat⟩

/-- The reals that round to a double, with the value itself. -/
structure Interval where
  low : Ratio
  value : Ratio
  high : Ratio
  /-- Whether the ends round to the value too. -/
  closed : Bool

/-- The interval around `m * 2 ^ q`; the lower half is narrower at a power of two. -/
def intervalOf (d : Double) : Interval :=
  let m := d.significand
  let at4 (n : Nat) : Ratio :=
    let (a, b) := Double.scaled n 4 d.exponent
    ⟨a, b⟩
  let below := if d.fraction = 0 ∧ d.biased > 1 then 4 * m - 1 else 4 * m - 2
  ⟨at4 below, at4 (4 * m), at4 (4 * m + 2), m % 2 = 0⟩

/-- Whether a real lies in the interval. -/
def Interval.has (i : Interval) (r : Ratio) : Bool :=
  if i.closed then i.low.le r && r.le i.high else i.low.lt r && r.lt i.high

/-- The largest `k` with `10 ^ k ≤ r`, searched upwards from a lower bound. -/
def orderFrom (r : Ratio) (k : Int) : Nat → Int
  | 0 => k
  | fuel + 1 => if (decimal 1 (k + 1)).le r then orderFrom r (k + 1) fuel else k

/-- The decimal order of magnitude. -/
def order (r : Ratio) : Int :=
  let bits : Int := (Nat.log2 r.num : Int) - (Nat.log2 r.den : Int)
  orderFrom r ((bits - 1) * 30103 / 100000 - 1) 6

/-- The better of the two neighbours on the grid of step `10 ^ k`, if one lies in the interval. -/
def hit? (i : Interval) (k : Int) : Option Nat :=
  let step := decimal 1 k
  let n := i.value.num * step.den / (i.value.den * step.num)
  let down := i.has (decimal n k)
  let up := i.has (decimal (n + 1) k)
  match down, up with
  | false, false => none
  | true, false => some n
  | false, true => some (n + 1)
  | true, true =>
    -- twice the value against the sum of the neighbours
    let mid := decimal (2 * n + 1) k
    let twice : Ratio := ⟨2 * i.value.num, i.value.den⟩
    if twice.lt mid then some n
    else if mid.lt twice then some (n + 1)
    else if n % 2 = 0 then some n else some (n + 1)

/-- The first grid with a hit, from `count` digits on. -/
def search (i : Interval) (top : Int) (count : Nat) : Nat → Nat × Int
  | 0 => (0, 0)
  | fuel + 1 =>
    let k := top - (count : Int) + 1
    match hit? i k with
    | some n => (n, k)
    | none => search i top (count + 1) fuel

/-- Drops trailing zeros of the digits, raising the exponent. -/
def trim (n : Nat) (k : Int) : Nat → Nat × Int
  | 0 => (n, k)
  | fuel + 1 => if n ≠ 0 ∧ n % 10 = 0 then trim (n / 10) (k + 1) fuel else (n, k)

/-- Digits `n` and exponent `k` with `n * 10 ^ k` the shortest decimal of a positive double. -/
def digits (d : Double) : Nat × Int :=
  let i := intervalOf d
  let (n, k) := search i (order i.value) 1 18
  trim n k 20

/-- Digits and point of a positive double: positional while the decimal exponent is in -5 to 15,
with at least one digit behind the point, else scientific with the sign of the exponent. -/
def layout (n : Nat) (k : Int) : String :=
  let ds := (toString n).toList
  let point : Int := (ds.length : Int) + k
  if 0 ≤ k ∧ point ≤ 16 then String.ofList (ds ++ List.replicate k.toNat '0' ++ ['.', '0'])
  else if 0 < point ∧ point ≤ 16 then
    String.ofList (ds.take point.toNat ++ '.' :: ds.drop point.toNat)
  else if -5 < point ∧ point ≤ 0 then
    String.ofList ('0' :: '.' :: List.replicate (-point).toNat '0' ++ ds)
  else
    let e := point - 1
    let mantissa := match ds with
      | [] => []
      | [c] => [c]
      | c :: rest => c :: '.' :: rest
    let sign := if e < 0 then '-' else '+'
    String.ofList (mantissa ++ 'e' :: sign :: (toString e.natAbs).toList)

/-- The text of a finite double. -/
def text (d : Double) : String :=
  let magnitude := if d.isZero then "0.0" else let (n, k) := digits d; layout n k
  if d.isNegative then "-" ++ magnitude else magnitude

end FleetControl.Shortest

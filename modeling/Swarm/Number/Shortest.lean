import Swarm.Number.Double

/-!
# Shortest digits

The fewest decimal digits that identify a double. The reals that round to a double form an
interval around it; its ends belong to it exactly when the mantissa is even. For one digit, two
digits and so on, the two neighbours of the double on the decimal grid with that many digits are
tested against the interval, in exact arithmetic on naturals. The first grid with a hit wins; of
two hits the nearer is taken, and a tie goes as the caller says.

## Main definitions

* `Binary`: a positive finite double with the width of its rounding interval
* `Decimal`: digits times a power of ten
* `Binary.readsBack`: whether a decimal rounds to the double
* `Binary.shortest`: the selection
-/

namespace Swarm.Number

/-- A positive finite double `mantissa * 2 ^ exponent`. -/
structure Binary where
  mantissa : Nat
  exponent : Int
deriving Repr

/-- The decimal number `digits * 10 ^ exponent`. -/
structure Decimal where
  digits : Nat
  exponent : Int
deriving Repr, DecidableEq

/-- Which of two equally near decimals is taken. -/
inductive Tie where
  | toEven
  | awayFromZero
deriving Repr, DecidableEq

/-- Compare `a * 10 ^ i` with `b * 2 ^ j` exactly. -/
def compareScaled (a : Nat) (i : Int) (b : Nat) (j : Int) : Ordering :=
  compare (a * Nat.pow 10 i.toNat * Nat.pow 2 (-j).toNat)
    (b * Nat.pow 2 j.toNat * Nat.pow 10 (-i).toNat)

/-- Whether the gap to the next smaller double is half the gap to the next larger one. -/
def Binary.narrowBelow (x : Binary) : Bool :=
  x.mantissa == Nat.pow 2 52 && x.exponent > -1074

/-- Whether `d` lies among the reals that round to `x`. -/
def Binary.readsBack (x : Binary) (d : Decimal) : Bool :=
  let low := if x.narrowBelow then 4 * x.mantissa - 1 else 4 * x.mantissa - 2
  let high := 4 * x.mantissa + 2
  let closed := x.mantissa % 2 == 0
  let above := compareScaled d.digits d.exponent low (x.exponent - 2)
  let below := compareScaled d.digits d.exponent high (x.exponent - 2)
  (above == .gt || closed && above == .eq) && (below == .lt || closed && below == .eq)

/-- Numerator and denominator of the double. -/
def Binary.ratio (x : Binary) : Nat × Nat :=
  (x.mantissa * Nat.pow 2 x.exponent.toNat, Nat.pow 2 (-x.exponent).toNat)

/-- Number of decimal digits of a natural. -/
def digitCount (n : Nat) : Nat :=
  (Nat.toDigits 10 n).length

/-- The least `k` with `x < 10 ^ k`. -/
def Binary.scale (x : Binary) : Int :=
  let (num, den) := x.ratio
  if den ≤ num then digitCount (num / den) else 1 - (digitCount (den / num) : Int)

/-- The better of the two neighbours of `x` on the grid `10 ^ unit`, if one of them reads
back. -/
def Binary.nearest? (x : Binary) (tie : Tie) (unit : Int) : Option Decimal :=
  let (num, den) := x.ratio
  let top := num * Nat.pow 10 (-unit).toNat
  let bottom := den * Nat.pow 10 unit.toNat
  let floor := top / bottom
  let low : Decimal := ⟨floor, unit⟩
  let high : Decimal := ⟨floor + 1, unit⟩
  match x.readsBack low, x.readsBack high with
  | false, false => none
  | true, false => some low
  | false, true => some high
  | true, true =>
    match compare (2 * (top % bottom)) bottom with
    | .lt => some low
    | .gt => some high
    | .eq =>
      match tie with
      | .awayFromZero => some high
      | .toEven => if floor % 2 == 0 then some low else some high

/-- Move the trailing zeros of the digits into the exponent. -/
def Decimal.strip : Nat → Decimal → Decimal
  | 0, d => d
  | n + 1, d =>
    if d.digits ≠ 0 ∧ d.digits % 10 = 0 then strip n ⟨d.digits / 10, d.exponent + 1⟩ else d

/-- The exact value, for a double that no grid of seventeen digits identifies. -/
def Binary.exact (x : Binary) : Decimal :=
  ⟨x.mantissa * Nat.pow 2 x.exponent.toNat * Nat.pow 5 (-x.exponent).toNat, min x.exponent 0⟩

/-- The shortest decimal that reads back as `x`, and among those the nearest. -/
def Binary.shortest (x : Binary) (tie : Tie) : Decimal :=
  let k := x.scale
  let found := (List.range 17).findSome? fun n => x.nearest? tie (k - (n + 1 : Nat))
  (found.getD x.exact).strip 400

end Swarm.Number

import Swarm.Json.Basic
import Swarm.Number.Reading

/-!
# JSON numerals

Reading of a numeral at the front of a character list. The digits are gathered into a 64-bit
significand; digits that no longer fit are dropped and only shift the power of ten. A numeral
with a fraction, an exponent or dropped digits is a real: its significand, rounded to a double,
is scaled by the power of ten, with a rounding at every scaling. A numeral out of range is well
formed but unreadable.

## Main definitions

* `readNumeral`: the number at the front of a text
* `scale`: a significand times a power of ten
-/

namespace Swarm.Json

open Number (spanDigits readExponent)

/-- The largest significand. -/
def significandMax : Nat := Nat.pow 2 64 - 1

/-- Digits gathered so far: the significand and how many digits went into it. -/
structure Gathered where
  significand : Nat
  taken : Nat
  /-- Digits that did not fit. -/
  dropped : Nat

/-- Gather digits while the significand fits; after the first one that does not, drop all. -/
def Gathered.push (g : Gathered) (d : Nat) : Gathered :=
  if g.dropped = 0 ∧ g.significand * 10 + d ≤ significandMax then
    { g with significand := g.significand * 10 + d, taken := g.taken + 1 }
  else { g with dropped := g.dropped + 1 }

/-- A power of ten up to `10 ^ 308`. -/
def powerOfTen (n : Nat) : Float :=
  Float.ofScientific 1 false n

/-- Divide by `10 ^ 308` until the rest of the power is in the range of doubles. The fuel bounds
the number of divisions; a double is zero long before it runs out. -/
def scaleDown : Nat → Float → Nat → Float
  | 0, x, _ => x
  | fuel + 1, x, power =>
    if power ≤ 308 then x / powerOfTen power
    else if x == 0 then x
    else scaleDown fuel (x / powerOfTen 308) (power - 308)

/-- `significand * 10 ^ power`; `none` if it is out of range. -/
def scale (significand : Nat) (power : Int) : Option Float :=
  let x := Float.ofNat significand
  if power < 0 then some (scaleDown 8 x power.natAbs)
  else if power ≤ 308 then
    let y := x * powerOfTen power.toNat
    if y.isInf then none else some y
  else if x == 0 then some x
  else none

/-- The fraction of a numeral, if there is one. The outer `none` is a malformed one. -/
def readFraction : List Char → Option (Option (List Nat) × List Char)
  | '.' :: rest =>
    match spanDigits rest with
    | ([], _) => none
    | (ds, tail) => some (some ds, tail)
  | cs => some (none, cs)

/-- The unsigned digits before the point: a single zero, or digits that do not start with
zero. -/
def readIntegral (cs : List Char) : Option (List Nat × List Char) :=
  match spanDigits cs with
  | ([], _) => none
  | (0 :: _ :: _, _) => none
  | (ds, tail) => some (ds, tail)

/-- The number with the given sign and parts; `none` if it is out of range. -/
def ofParts (negative : Bool) (integral : List Nat) (fraction : Option (List Nat))
    (exponent : Option Int) : Option Json :=
  let whole := integral.foldl Gathered.push ⟨0, 0, 0⟩
  if fraction.isNone && exponent.isNone && whole.dropped == 0 then
    if negative then
      if whole.significand = 0 then some (.real (-0.0))
      else if whole.significand ≤ Nat.pow 2 63 then some (.whole (-(whole.significand : Int)))
      else some (.real (-(Float.ofNat whole.significand)))
    else some (.whole whole.significand)
  else
    let all := (fraction.getD []).foldl Gathered.push ⟨whole.significand, 0, 0⟩
    let power : Int := (whole.dropped : Int) - all.taken + exponent.getD 0
    (scale all.significand power).map fun x => .real (if negative then -x else x)

/-- The number at the front of a text, and what follows it. -/
def readNumeral (cs : List Char) : Option (Json × List Char) := do
  let (negative, cs) :=
    match cs with
    | '-' :: rest => (true, rest)
    | rest => (false, rest)
  let (integral, cs) ← readIntegral cs
  let (fraction, cs) ← readFraction cs
  let (exponent, cs) ← readExponent cs
  return ((ofParts negative integral fraction exponent).getD .unreadable, cs)

end Swarm.Json

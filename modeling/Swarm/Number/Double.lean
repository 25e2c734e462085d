/-!
# Doubles as exact numbers

A double is decoded from its bits into a sign, a natural mantissa and a power of two, so that
conversions to integers and remainders are exact arithmetic on naturals.

## Main definitions

* `Double`: the decoded form
* `truncate`: the integer towards zero
* `toNatSaturating`: truncation into a range of naturals
* `remainder`: the remainder that takes the sign of the dividend
* `isWhole`, `isFinite`, `larger`, `clamp`: the tests and bounds used by the world
-/

namespace Swarm.Number

/-- What a double stands for. -/
inductive Double where
  | nan
  | infinite (negative : Bool)
  /-- The value `± mantissa * 2 ^ exponent`. -/
  | finite (negative : Bool) (mantissa : Nat) (exponent : Int)
deriving Repr, DecidableEq

/-- Decode the bits of a double. -/
def Double.ofFloat (x : Float) : Double :=
  let bits : Nat := x.toBits.toNat
  let negative := bits / Nat.pow 2 63 == 1
  let biased : Nat := bits / Nat.pow 2 52 % Nat.pow 2 11
  let fraction : Nat := bits % Nat.pow 2 52
  if biased = 2047 then
    if fraction = 0 then .infinite negative else .nan
  else if biased = 0 then .finite negative fraction (-1074)
  else .finite negative (Nat.pow 2 52 + fraction) ((biased : Int) - 1075)

/-- The double `± mantissa * 2 ^ exponent`, exact whenever that number is a double. Trailing zero
bits move from the mantissa to the exponent first, so that it fits the width of a double. -/
def Double.build (negative : Bool) (mantissa : Nat) (exponent : Int) : Float :=
  let excess := mantissa.log2 - 52
  let magnitude := (Float.ofNat (mantissa >>> excess)).scaleB (exponent + excess)
  if negative then -magnitude else magnitude

/-- The number rounded towards zero; `none` unless it is finite. -/
def truncate? (x : Float) : Option Int :=
  match Double.ofFloat x with
  | .finite negative mantissa exponent =>
    let magnitude : Nat :=
      if 0 ≤ exponent then mantissa * Nat.pow 2 exponent.toNat
      else mantissa / Nat.pow 2 (-exponent).toNat
    some (if negative then -(magnitude : Int) else magnitude)
  | _ => none

/-- Whether a double is neither infinite nor undefined. -/
def isFinite (x : Float) : Bool :=
  match Double.ofFloat x with
  | .finite .. => true
  | _ => false

/-- Whether a double is an integer. -/
def isWhole (x : Float) : Bool :=
  match Double.ofFloat x with
  | .finite _ mantissa exponent => 0 ≤ exponent || mantissa % Nat.pow 2 (-exponent).toNat == 0
  | _ => false

/-- The number rounded towards zero and moved into `[0, top]`. An undefined number counts as
zero. -/
def toNatSaturating (top : Nat) (x : Float) : Nat :=
  match Double.ofFloat x with
  | .nan => 0
  | .infinite negative => if negative then 0 else top
  | .finite .. => min ((truncate? x).getD 0).toNat top

/-- The largest 64-bit natural, where counts and draws saturate. -/
def wordMax : Nat := Nat.pow 2 64 - 1

/-- The number rounded towards zero, as a double of the same sign. -/
def truncate (x : Float) : Float :=
  if x < 0 then x.ceil else x.floor

/-- The undefined number. -/
def undefined : Float := 0.0 / 0.0

/-- What is left of `x` after taking away `y` as often as it fits, exactly; it has the sign of
`x`. -/
def remainder (x y : Float) : Float :=
  match Double.ofFloat x, Double.ofFloat y with
  | .finite negative m e, .finite _ n f =>
    if n = 0 then undefined
    else
      let unit := min e f
      let left := m * Nat.pow 2 (e - unit).toNat % (n * Nat.pow 2 (f - unit).toNat)
      Double.build negative left unit
  | .finite .., .infinite _ => x
  | _, _ => undefined

/-- The larger of two numbers; an undefined `x` gives way to `y`. -/
def larger (x y : Float) : Float :=
  if x ≥ y then x else y

/-- `x` moved into `[low, high]`; an undefined number stays. -/
def clamp (low high x : Float) : Float :=
  if x < low then low else if x > high then high else x

end Swarm.Number

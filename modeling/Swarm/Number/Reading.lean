/-!
# Reading of numbers

Decimal digits at the front of a text, and the double nearest to a written decimal.

## Main definitions

* `spanDigits`: the digits at the front of a text
* `readExponent`: an exponent part
* `ofText?`: the double that a whole text denotes
-/

namespace Swarm.Number

/-- The value of a decimal digit. -/
def digit? (c : Char) : Option Nat :=
  if '0' ≤ c ∧ c ≤ '9' then some (c.toNat - '0'.toNat) else none

/-- The digits at the front of a text and what follows them. -/
def spanDigits (cs : List Char) : List Nat × List Char :=
  match cs with
  | [] => ([], [])
  | c :: rest =>
    match digit? c with
    | none => ([], c :: rest)
    | some d =>
      let (ds, tail) := spanDigits rest
      (d :: ds, tail)

/-- The number with the given digits, the most significant first. -/
def ofDigits (ds : List Nat) : Nat :=
  ds.foldl (fun n d => n * 10 + d) 0

/-- The exponent part of a number, if there is one. The outer `none` is a malformed one. -/
def readExponent : List Char → Option (Option Int × List Char)
  | c :: rest =>
    if c == 'e' || c == 'E' then
      let (negative, rest) :=
        match rest with
        | '+' :: tail => (false, tail)
        | '-' :: tail => (true, tail)
        | tail => (false, tail)
      match spanDigits rest with
      | ([], _) => none
      | (ds, tail) =>
        let power := ofDigits ds
        some (some (if negative then -(power : Int) else power), tail)
    else some (none, c :: rest)
  | [] => some (none, [])

/-- The double nearest to `digits * 10 ^ power`. Powers that are out of reach for the number of
digits are cut off first. -/
def nearest (digits : List Nat) (power : Int) : Float :=
  let magnitude : Int := digits.length + power
  let value := ofDigits digits
  if value = 0 || magnitude < -330 then 0
  else if 310 + (digits.length : Int) < magnitude then 1 / 0
  else Float.ofScientific value (power < 0) power.natAbs

/-- The double that an unsigned decimal denotes; digits may be missing on one side of the
point. -/
def readDecimal (cs : List Char) : Option Float :=
  let (whole, rest) := spanDigits cs
  let (fraction, rest) :=
    match rest with
    | '.' :: rest => spanDigits rest
    | rest => ([], rest)
  if whole.isEmpty && fraction.isEmpty then none
  else
    match readExponent rest with
    | some (power, []) => some (nearest (whole ++ fraction) (power.getD 0 - fraction.length))
    | _ => none

/-- The double that a text denotes: a decimal, or the name of what is no number, with an optional
sign. -/
def ofText? (s : String) : Option Float :=
  let (negative, cs) :=
    match s.toList with
    | '-' :: rest => (true, rest)
    | '+' :: rest => (false, rest)
    | cs => (false, cs)
  let magnitude :=
    match (String.ofList cs).toLower with
    | "nan" => some (0 / 0)
    | "inf" => some (1 / 0)
    | "infinity" => some (1 / 0)
    | _ => readDecimal cs
  magnitude.map fun x => if negative then -x else x

end Swarm.Number

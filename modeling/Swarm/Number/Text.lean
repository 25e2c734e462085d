import Swarm.Number.Shortest

/-!
# Text of numbers

A double is written with its shortest digits. How they are laid out is a `Style`: which
magnitudes are written positionally, whether a whole number keeps a decimal point, how ties
between equally near digits go and what stands for the values that are no numbers.

## Main definitions

* `Style`: the decisions of one written form
* `Style.render`: the text of a double
* `plain`: the form used in messages and model output
* `interchange`: the form used in documents
-/

namespace Swarm.Number

/-- How a double is written. -/
structure Style where
  /-- Magnitudes from `10 ^ from` … -/
  plainFrom : Int
  /-- … and below `10 ^ below` are written without an exponent. -/
  plainBelow : Int
  /-- Whether a whole number ends in a point and a zero. -/
  keepPoint : Bool
  /-- Choice between equally near digits. -/
  tie : Tie
  /-- Text of the undefined number. -/
  nan : String
  /-- Text of positive infinity. -/
  infinity : String
  /-- Text of negative infinity. -/
  minusInfinity : String

/-- Text with a decimal point after the first `point` digits. -/
def positional (keepPoint : Bool) (digits : String) (point : Int) : String :=
  let length : Int := digits.length
  if point ≤ 0 then "0." ++ String.ofList (List.replicate (-point).toNat '0') ++ digits
  else if length ≤ point then
    digits ++ String.ofList (List.replicate (point - length).toNat '0')
      ++ (if keepPoint then ".0" else "")
  else
    let cs := digits.toList
    String.ofList (cs.take point.toNat) ++ "." ++ String.ofList (cs.drop point.toNat)

/-- Text with one digit before the point and a signed exponent. -/
def scientific (digits : String) (point : Int) : String :=
  let cs := digits.toList
  let lead := String.ofList (cs.take 1)
  let rest := cs.drop 1
  let power := point - 1
  lead ++ (if rest.isEmpty then "" else "." ++ String.ofList rest)
    ++ (if power < 0 then "e-" else "e+") ++ toString power.natAbs

/-- Text of a positive decimal. -/
def Style.layout (style : Style) (d : Decimal) : String :=
  let digits := toString d.digits
  let point := (digits.length : Int) + d.exponent
  if style.plainFrom < point && point ≤ style.plainBelow then
    positional style.keepPoint digits point
  else scientific digits point

/-- Text of a double. -/
def Style.render (style : Style) (x : Float) : String :=
  match Double.ofFloat x with
  | .nan => style.nan
  | .infinite negative => if negative then style.minusInfinity else style.infinity
  | .finite negative mantissa exponent =>
    (if negative then "-" else "") ++
      if mantissa = 0 then (if style.keepPoint then "0.0" else "0")
      else style.layout (Binary.shortest ⟨mantissa, exponent⟩ style.tie)

/-- Messages and model output: never an exponent, and a whole number has no point. -/
def plain : Style where
  plainFrom := -400
  plainBelow := 400
  keepPoint := false
  tie := .awayFromZero
  nan := "NaN"
  infinity := "inf"
  minusInfinity := "-inf"

/-- Documents: positional from `10 ^ -5` up to below `10 ^ 16`, always with a point; what is no
number is written as a null. -/
def interchange : Style where
  plainFrom := -5
  plainBelow := 16
  keepPoint := true
  tie := .toEven
  nan := "null"
  infinity := "null"
  minusInfinity := "null"

/-- The text of a double in messages. -/
def toText (x : Float) : String :=
  plain.render x

end Swarm.Number

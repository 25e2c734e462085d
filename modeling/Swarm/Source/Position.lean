import Swarm.Text.Blank

/-!
# Source positions

The line and column of a token, written `line:column`.

## Main definitions

* `Position`, `Position.text`
* `Position.ofText`: reading a position; a text without a column has column zero
* `ReadError`: why a number could not be read
-/

namespace Swarm

/-- A line and a column, both below `2 ^ 32`. -/
structure Position where
  line : Nat
  column : Nat
deriving Repr, DecidableEq, Inhabited

namespace Position

/-- The position of tokens without one. -/
def zero : Position := ⟨0, 0⟩

/-- The text of a position. -/
def text (p : Position) : String :=
  toString p.line ++ ":" ++ toString p.column

/-- Why a line or column number could not be read. -/
inductive ReadError where
  | empty
  | invalidDigit
  | tooLarge
deriving Repr, DecidableEq

/-- The message of a failed reading. -/
def ReadError.message : ReadError → String
  | .empty => "cannot parse integer from empty string"
  | .invalidDigit => "invalid digit found in string"
  | .tooLarge => "number too large to fit in target type"

/-- The largest line or column number. -/
def top : Nat := Nat.pow 2 32 - 1

/-- Append the digits `cs` to the number read so far. -/
def readDigits (value : Nat) : List Char → Except ReadError Nat
  | [] => .ok value
  | c :: rest =>
    if '0' ≤ c ∧ c ≤ '9' then
      let value := value * 10 + (c.toNat - '0'.toNat)
      if top < value then .error .tooLarge else readDigits value rest
    else .error .invalidDigit

/-- A number, with an optional plus sign. -/
def readNumber (cs : List Char) : Except ReadError Nat :=
  match cs with
  | [] => .error .empty
  | ['+'] => .error .invalidDigit
  | '+' :: rest => readDigits 0 rest
  | cs => readDigits 0 cs

/-- Read a position. Blanks around either number are ignored, and the line is read first. -/
def ofText (s : String) : Except ReadError Position :=
  let (line, column) := (Text.splitAtFirst ':' s.toList).getD (s.toList, ['0'])
  match readNumber (Text.trim line) with
  | .error e => .error e
  | .ok line =>
    match readNumber (Text.trim column) with
    | .error e => .error e
    | .ok column => .ok ⟨line, column⟩

end Position

end Swarm

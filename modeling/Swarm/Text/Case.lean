import Swarm.Text.CaseTable

/-!
# Letter case

Full case mapping of texts, where one character may become several, and the comparison of texts
up to the case of the basic Latin letters.

## Main definitions

* `toUpper`, `toLower`: full mapping of a text
* `eqFolding`: equality up to the case of `A` … `Z`

## Design notes

Two notions of case live side by side because names are compared in two ways: procedure names
are keyed by their full lower case while a program is assembled, and folded on basic Latin
letters only when a procedure or a variable is looked up.
-/

namespace Swarm.Text

/-- Map a character by the first expansion or run that lists it. -/
def mapCase (expansions : List (Nat × List Nat)) (runs : List Run) (c : Char) : List Char :=
  match expansions.find? (fun e => e.1 == c.toNat) with
  | some (_, codes) => codes.map Char.ofNat
  | none =>
    match runs.find? (fun r => r.contains c.toNat) with
    | some r => [Char.ofNat ((c.toNat : Int) + r.shift).toNat]
    | none => [c]

/-- The upper case of a character. -/
def upperChar (c : Char) : List Char :=
  mapCase upperExpansions upperRuns c

/-- The lower case of a character, read on its own. -/
def lowerChar (c : Char) : List Char :=
  mapCase lowerExpansions lowerRuns c

/-- Whether some range of the list holds the code point of `c`. -/
def inRanges (ranges : List (Nat × Nat)) (c : Char) : Bool :=
  ranges.any fun r => r.1 ≤ c.toNat && c.toNat ≤ r.2

/-- Whether the first character that is not case-ignorable is cased. -/
def meetsCased (cs : List Char) : Bool :=
  match cs.dropWhile (inRanges ignorableRanges) with
  | [] => false
  | c :: _ => inRanges casedRanges c

/-- Capital sigma, the one letter whose lower case depends on its neighbours. -/
def capitalSigma : Char := 'Σ'

/-- Lower-case the characters `cs` that follow `before`, given last first. A capital sigma that
ends a word takes its final form. -/
def lowerAfter (before : List Char) : List Char → List Char
  | [] => []
  | c :: rest =>
    let mapped :=
      if c == capitalSigma then
        if meetsCased before && !meetsCased rest then ['ς'] else ['σ']
      else lowerChar c
    mapped ++ lowerAfter (c :: before) rest

/-- The upper case of a text. -/
def toUpper (s : String) : String :=
  String.ofList (s.toList.flatMap upperChar)

/-- The lower case of a text. -/
def toLower (s : String) : String :=
  String.ofList (lowerAfter [] s.toList)

/-- Equality up to the case of the basic Latin letters. -/
def eqFolding (s t : String) : Bool :=
  s.toList.map Char.toLower == t.toList.map Char.toLower

end Swarm.Text

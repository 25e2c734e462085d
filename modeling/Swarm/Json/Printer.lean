import Swarm.Json.Basic
import Swarm.Number.Text

/-!
# Writing JSON

Compact texts, and texts with one entry or item a line. Characters are written as they are; only
quotes, backslashes and control characters are escaped. A real that is no number is written as a
null.

## Main definitions

* `Json.compress`: the compact text
* `Json.pretty`: the indented text
-/

namespace Swarm.Json

/-- A hexadecimal digit in lower case. -/
def hexDigit (n : Nat) : Char :=
  if n < 10 then Char.ofNat ('0'.toNat + n) else Char.ofNat ('a'.toNat + (n - 10))

/-- A character as it stands in a quoted string. -/
def escapeChar (c : Char) : List Char :=
  if c == '"' then ['\\', '"']
  else if c == '\\' then ['\\', '\\']
  else if c.toNat ≥ 0x20 then [c]
  else if c.toNat = 8 then ['\\', 'b']
  else if c.toNat = 9 then ['\\', 't']
  else if c.toNat = 10 then ['\\', 'n']
  else if c.toNat = 12 then ['\\', 'f']
  else if c.toNat = 13 then ['\\', 'r']
  else ['\\', 'u', '0', '0', hexDigit (c.toNat / 16), hexDigit (c.toNat % 16)]

/-- A text in quotes. -/
def quote (s : String) : String :=
  String.ofList ('"' :: s.toList.flatMap escapeChar ++ ['"'])

/-- The text of a scalar; empty for arrays and objects. -/
def scalarText : Json → String
  | .null => "null"
  | .bool b => if b then "true" else "false"
  | .whole z => toString z
  | .real x => Number.interchange.render x
  | .string s => quote s
  | .array _ => ""
  | .object _ => ""
  | .unreadable => "null"

mutual

/-- The text without blanks. -/
def compress : Json → String
  | .array items => "[" ++ ",".intercalate (compressItems items) ++ "]"
  | .object entries => "\x7b" ++ ",".intercalate (compressEntries entries) ++ "\x7d"
  | .null => "null"
  | .bool b => scalarText (.bool b)
  | .whole z => scalarText (.whole z)
  | .real x => scalarText (.real x)
  | .string s => scalarText (.string s)
  | .unreadable => "null"

/-- The texts of items. -/
def compressItems : List Json → List String
  | [] => []
  | item :: rest => compress item :: compressItems rest

/-- The texts of entries. -/
def compressEntries : List (String × Json) → List String
  | [] => []
  | (key, value) :: rest => (quote key ++ ":" ++ compress value) :: compressEntries rest

end

/-- A new line at a nesting depth, two blanks a level. -/
def newline (depth : Nat) : String :=
  "\n" ++ String.ofList (List.replicate (2 * depth) ' ')

mutual

/-- The text with one item or entry a line, nested at `depth`. -/
def prettyAt (depth : Nat) : Json → String
  | .array [] => "[]"
  | .array (item :: rest) =>
    "[" ++ ",".intercalate (prettyItems (depth + 1) (item :: rest)) ++ newline depth ++ "]"
  | .object [] => "\x7b\x7d"
  | .object (entry :: rest) =>
    "\x7b" ++ ",".intercalate (prettyEntries (depth + 1) (entry :: rest)) ++ newline depth ++ "\x7d"
  | .null => "null"
  | .bool b => scalarText (.bool b)
  | .whole z => scalarText (.whole z)
  | .real x => scalarText (.real x)
  | .string s => scalarText (.string s)
  | .unreadable => "null"

/-- The texts of items, each on a line of its own. -/
def prettyItems (depth : Nat) : List Json → List String
  | [] => []
  | item :: rest => (newline depth ++ prettyAt depth item) :: prettyItems depth rest

/-- The texts of entries, each on a line of its own. -/
def prettyEntries (depth : Nat) : List (String × Json) → List String
  | [] => []
  | (key, value) :: rest =>
    (newline depth ++ quote key ++ ": " ++ prettyAt depth value) :: prettyEntries depth rest

end

/-- The indented text. -/
def pretty (json : Json) : String :=
  prettyAt 0 json

end Swarm.Json

/-!
# JSON strings

Reading of a quoted string at the front of a character list. An escape may name half of a
surrogate pair; if its partner does not follow, the string is well formed but stands for no text.

## Main definitions

* `readString`: the rest of a string after its opening quote
-/

namespace Swarm.Json

/-- The value of a hexadecimal digit. -/
def hexDigit? (c : Char) : Option Nat :=
  if '0' ≤ c ∧ c ≤ '9' then some (c.toNat - '0'.toNat)
  else if 'a' ≤ c ∧ c ≤ 'f' then some (c.toNat - 'a'.toNat + 10)
  else if 'A' ≤ c ∧ c ≤ 'F' then some (c.toNat - 'A'.toNat + 10)
  else none

/-- Four hexadecimal digits. -/
def readUnit : List Char → Option (Nat × List Char)
  | a :: b :: c :: d :: rest => do
    let a ← hexDigit? a
    let b ← hexDigit? b
    let c ← hexDigit? c
    let d ← hexDigit? d
    return (((a * 16 + b) * 16 + c) * 16 + d, rest)
  | _ => none

/-- An escape for the second half of a surrogate pair. -/
def readLowSurrogate? : List Char → Option (Nat × List Char)
  | '\\' :: 'u' :: rest =>
    match readUnit rest with
    | some (unit, rest) =>
      if 0xDC00 ≤ unit ∧ unit < 0xE000 then some (unit, rest) else none
    | none => none
  | _ => none

/-- The character of a `\u` escape, which may take two of them. The inner `none` is half a
surrogate pair. -/
def readUnitEscape (cs : List Char) : Option (Option Char × List Char) := do
  let (unit, rest) ← readUnit cs
  if 0xD800 ≤ unit ∧ unit < 0xDC00 then
    match readLowSurrogate? rest with
    | some (low, rest) =>
      return (some (Char.ofNat (0x10000 + (unit - 0xD800) * 0x400 + (low - 0xDC00))), rest)
    | none => return (none, rest)
  else if 0xDC00 ≤ unit ∧ unit < 0xE000 then return (none, rest)
  else return (some (Char.ofNat unit), rest)

/-- The character after a backslash. The inner `none` is half a surrogate pair. -/
def readEscape : List Char → Option (Option Char × List Char)
  | [] => none
  | c :: rest =>
    if c == 'u' then readUnitEscape rest
    else if c == '"' || c == '\\' || c == '/' then some (some c, rest)
    else if c == 'b' then some (some (Char.ofNat 8), rest)
    else if c == 'f' then some (some (Char.ofNat 12), rest)
    else if c == 'n' then some (some '\n', rest)
    else if c == 'r' then some (some '\r', rest)
    else if c == 't' then some (some '\t', rest)
    else none

/-- The rest of a string after its opening quote; `read` holds the characters so far, last first,
and `sound` tells whether all of them could be read. The inner `none` is a string with half a
surrogate pair. -/
def readString : (fuel : Nat) → (sound : Bool) → (read : List Char) → List Char →
    Option (Option String × List Char)
  | 0, _, _, _ => none
  | _ + 1, _, _, [] => none
  | fuel + 1, sound, read, c :: rest =>
    if c == '"' then some (if sound then some (String.ofList read.reverse) else none, rest)
    else if c == '\\' then
      match readEscape rest with
      | none => none
      | some (none, rest) => readString fuel false read rest
      | some (some c, rest) => readString fuel sound (c :: read) rest
    else if c.toNat < 0x20 then none
    else readString fuel sound (c :: read) rest

end Swarm.Json

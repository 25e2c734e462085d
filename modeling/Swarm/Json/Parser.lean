import Swarm.Json.Numeral
import Swarm.Json.Quoted

/-!
# Reading JSON

A total reader of JSON texts. Every nested call is made on a shorter text, so the length of the
text bounds the recursion.

Arrays and objects are read down to a bound on their nesting. Those below it are checked but not
read; this is done by one loop that keeps the brackets that are still open, so that they may nest
as deep as the text goes.

## Main definitions

* `Json.skip`: checking a value without reading it
* `Json.parse?`: the tree of a text, if it is a JSON document
-/

namespace Swarm.Json

/-- Blanks between tokens. -/
def isSpace (c : Char) : Bool :=
  c == ' ' || c == '\n' || c == '\t' || c == '\r'

/-- Drop the blanks at the front. -/
def skipSpace (cs : List Char) : List Char :=
  cs.dropWhile isSpace

/-- Drop an expected keyword. -/
def expect (word : List Char) (cs : List Char) : Option (List Char) :=
  if word.isPrefixOf cs then some (cs.drop word.length) else none

/-- A value that is neither an array nor an object. -/
def readScalar (fuel : Nat) : List Char → Option (Json × List Char)
  | [] => none
  | c :: rest =>
    if c == '"' then
      (readString fuel true [] rest).map fun (s, rest) => ((s.map Json.string).getD .unreadable, rest)
    else if c == 't' then (expect ['r', 'u', 'e'] rest).map fun rest => (.bool true, rest)
    else if c == 'f' then (expect ['a', 'l', 's', 'e'] rest).map fun rest => (.bool false, rest)
    else if c == 'n' then (expect ['u', 'l', 'l'] rest).map fun rest => (.null, rest)
    else readNumeral (c :: rest)

/-- A key and the colon after it. The inner `none` is a key with half a surrogate pair. -/
def readKey (fuel : Nat) (cs : List Char) : Option (Option String × List Char) :=
  match skipSpace cs with
  | '"' :: rest =>
    match readString fuel true [] rest with
    | none => none
    | some (key, rest) => (expect [':'] (skipSpace rest)).map fun rest => (key, rest)
  | _ => none

/-- A bracket that is still open. -/
inductive Bracket where
  | array
  | object
deriving DecidableEq

/-- The character that closes a bracket. -/
def Bracket.closing : Bracket → Char
  | array => ']'
  | object => '\x7d'

/-- What the text has to go on with. -/
inductive Awaited where
  /-- A value. -/
  | value
  /-- After a value: a comma, or the end of what the value stands in. -/
  | sequel

/-- Check a value, and the rest of the arrays and objects it stands in. What comes after the last
of them is given back. -/
def skip : (fuel : Nat) → Awaited → (unclosed : List Bracket) → List Char → Option (List Char)
  | 0, _, _, _ => none
  | _ + 1, .sequel, [], cs => some cs
  | fuel + 1, .sequel, b :: outer, cs =>
    match skipSpace cs with
    | [] => none
    | c :: rest =>
      if c == b.closing then skip fuel .sequel outer rest
      else if c == ',' then
        match b with
        | .array => skip fuel .value (b :: outer) rest
        | .object =>
          match readKey fuel rest with
          | none => none
          | some (_, rest) => skip fuel .value (b :: outer) rest
      else none
  | fuel + 1, .value, unclosed, cs =>
    match skipSpace cs with
    | [] => none
    | c :: rest =>
      if c == '[' then
        match skipSpace rest with
        | ']' :: tail => skip fuel .sequel unclosed tail
        | tail => skip fuel .value (.array :: unclosed) tail
      else if c == '\x7b' then
        match skipSpace rest with
        | '\x7d' :: tail => skip fuel .sequel unclosed tail
        | tail =>
          match readKey fuel tail with
          | none => none
          | some (_, tail) => skip fuel .value (.object :: unclosed) tail
      else
        match readScalar fuel (c :: rest) with
        | none => none
        | some (_, rest) => skip fuel .sequel unclosed rest

/-- The object with the given entries, unless one of the keys could not be read. -/
def ofKeyed (entries : List (Option String × Json)) : Json :=
  match entries.mapM fun (key, value) => key.map fun key => (key, value) with
  | some entries => .object entries
  | none => .unreadable

mutual

/-- A value; `depth` levels of nesting are left. -/
def readValue : (fuel depth : Nat) → List Char → Option (Json × List Char)
  | 0, _, _ => none
  | fuel + 1, depth, cs =>
    match skipSpace cs with
    | [] => none
    | c :: rest =>
      if c == '[' then
        match depth with
        | 0 => (skip fuel .value [] (c :: rest)).map fun rest => (.unreadable, rest)
        | depth + 1 =>
          match skipSpace rest with
          | ']' :: tail => some (.array [], tail)
          | tail => readItems fuel depth [] tail
      else if c == '\x7b' then
        match depth with
        | 0 => (skip fuel .value [] (c :: rest)).map fun rest => (.unreadable, rest)
        | depth + 1 =>
          match skipSpace rest with
          | '\x7d' :: tail => some (.object [], tail)
          | tail => readEntries fuel depth [] tail
      else readScalar fuel (c :: rest)

/-- The items of a non-empty array up to its closing bracket; `read` holds the items so far, last
first. -/
def readItems : (fuel depth : Nat) → (read : List Json) → List Char → Option (Json × List Char)
  | 0, _, _, _ => none
  | fuel + 1, depth, read, cs =>
    match readValue fuel depth cs with
    | none => none
    | some (item, rest) =>
      match skipSpace rest with
      | [] => none
      | c :: rest =>
        if c == ']' then some (.array (item :: read).reverse, rest)
        else if c == ',' then readItems fuel depth (item :: read) rest
        else none

/-- The entries of a non-empty object up to its closing brace; `read` holds the entries so far,
last first. -/
def readEntries : (fuel depth : Nat) → (read : List (Option String × Json)) → List Char →
    Option (Json × List Char)
  | 0, _, _, _ => none
  | fuel + 1, depth, read, cs =>
    match readKey fuel cs with
    | none => none
    | some (key, rest) =>
      match readValue fuel depth rest with
      | none => none
      | some (value, rest) =>
        match skipSpace rest with
        | [] => none
        | c :: rest =>
          if c == '\x7d' then some (ofKeyed ((key, value) :: read).reverse, rest)
          else if c == ',' then readEntries fuel depth ((key, value) :: read) rest
          else none

end

/-- How deep the arrays and objects that are read may nest. -/
def maxDepth : Nat := 127

/-- The tree of a text that is one JSON document, with nothing but blanks around it. -/
def parse? (text : String) : Option Json :=
  let cs := text.toList
  match readValue (2 * cs.length + 2) maxDepth cs with
  | none => none
  | some (json, rest) => if (skipSpace rest).isEmpty then some json else none

end Swarm.Json

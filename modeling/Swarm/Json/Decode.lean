import Swarm.Json.Basic

/-!
# Decoding JSON

Readings of JSON trees as plain data. A reading either succeeds or gives `none`; why it fails is
not recorded.

A record is read from an object, in which unknown keys are passed over and a known key may stand
only once, or from an array of its fields in order.

## Main definitions

* `Json.nat?`, `Json.float?`, `Json.string?`, `Json.bool?`: scalars
* `Json.listOf?`: arrays
* `Json.entire?`: readings that take in even the parts they do not use
* `Entries.find?`, `Entries.get?`, `Entries.getD?`: fields of an object
* `Json.fields?`: the fields of a record, from an object or an array
-/

namespace Swarm

namespace Json

/-- A natural below `2 ^ 64`. -/
def nat? : Json → Option Nat
  | .whole z => if 0 ≤ z ∧ z.toNat < Nat.pow 2 64 then some z.toNat else none
  | _ => none

/-- A natural below `2 ^ 32`. -/
def nat32? : Json → Option Nat
  | .whole z => if 0 ≤ z ∧ z.toNat < Nat.pow 2 32 then some z.toNat else none
  | _ => none

/-- A number, whole or not. -/
def float? : Json → Option Float
  | .whole z => some (Float.ofInt z)
  | .real x => some x
  | _ => none

/-- A string. -/
def string? : Json → Option String
  | .string s => some s
  | _ => none

/-- A truth value. -/
def bool? : Json → Option Bool
  | .bool b => some b
  | _ => none

/-- An array of things that `read` reads. -/
def listOf? {α : Type} (read : Json → Option α) : Json → Option (List α)
  | .array items => items.mapM read
  | _ => none

/-- Nothing for a null, and otherwise what `read` reads. -/
def nullable? {α : Type} (read : Json → Option α) : Json → Option (Option α)
  | .null => some none
  | json => (read json).map some

/-- Two things in an array. -/
def pairOf? {α β : Type} (first : Json → Option α) (second : Json → Option β) :
    Json → Option (α × β)
  | .array [a, b] => do return (← first a, ← second b)
  | _ => none

/-- Read a tree all parts of which can be read, also those that `read` passes over. -/
def entire? {α : Type} (read : Json → Option α) (json : Json) : Option α :=
  if json.isReadable then read json else none

/-- Whether a tree is a null. -/
def isNull : Json → Bool
  | .null => true
  | _ => false

/-- Whether a tree is a null or an object without entries. -/
def isVoid : Json → Bool
  | .null => true
  | .object [] => true
  | _ => false

/-- One of several names. It is written as a string, or as the only key of an object whose value
says nothing, which `blank` decides. -/
def nameOf? {α : Type} (blank : Json → Bool) (read : String → Option α) : Json → Option α
  | .string s => read s
  | .object [(s, value)] => if blank value then read s else none
  | _ => none

end Json

/-- The entries of an object, or of a record read from an array. -/
abbrev Entries (α : Type) := List (String × α)

namespace Entries

variable {α : Type}

/-- The value under a key, if there is one. The outer `none` is a repeated key. -/
def find? (entries : Entries α) (key : String) : Option (Option α) :=
  match entries.filter fun e => e.1 == key with
  | [] => some none
  | [(_, value)] => some (some value)
  | _ => none

/-- The value under a key that must be there. -/
def get? (entries : Entries α) (key : String) : Option α :=
  (entries.find? key).join

/-- What `read` reads under a key, or a default if the key is missing. -/
def getD? {β : Type} (entries : Entries α) (key : String) (read : α → Option β) (default : β) :
    Option β :=
  match entries.find? key with
  | none => none
  | some none => some default
  | some (some value) => read value

end Entries

namespace Json

/-- The fields of a record: the entries of an object, or the items of an array named by `keys` in
order. An array may not be longer than the record. -/
def fields? (keys : List String) : Json → Option (Entries Json)
  | .object entries => some entries
  | .array items => if items.length ≤ keys.length then some (keys.zip items) else none
  | _ => none

/-- Tag and further fields of a tagged record. In an object the tag stands under `key`; in an
array it is the first item and the further items are given back unnamed. -/
inductive Tagged where
  | object (tag : Json) (entries : Entries Json)
  | array (tag : Json) (items : List Json)

/-- Split a tagged record. -/
def tagged? (key : String) : Json → Option Tagged
  | .object entries => do
    let tag ← Entries.get? entries key
    return .object tag (entries.filter fun e => e.1 != key)
  | .array (tag :: items) => some (.array tag items)
  | _ => none

/-- The fields of a variant with the given keys. An array has exactly as many items. -/
def Tagged.fields? (t : Tagged) (keys : List String) : Option (Entries Json) :=
  match t with
  | .object _ entries => some entries
  | .array _ items => if items.length = keys.length then some (keys.zip items) else none

end Json

end Swarm

/-!
# JSON trees

The tree of a JSON document. Objects keep their entries in written order and keep repeated keys,
because a document that repeats a known key is refused. Whole numbers and reals are kept apart,
because a count is read from a whole number only.

A text can be well formed and still have parts that no tree stands for. They are kept as
`unreadable`: a reading may pass over them, but may not read them.

## Main definitions

* `Json`: the tree
* `Json.isReadable`: whether every part of a tree can be read
* `Json.sorted`: the document with every object in key order
-/

namespace Swarm

/-- A JSON document. -/
inductive Json where
  | null
  | bool (b : Bool)
  /-- A number written without fraction and exponent, in the range of 64 bits. -/
  | whole (z : Int)
  /-- Any other number. -/
  | real (x : Float)
  | string (s : String)
  | array (items : List Json)
  | object (entries : List (String × Json))
  /-- A number out of range, a string or a key with half a surrogate pair, or an array or object
  that is nested too deep. -/
  | unreadable
deriving Inhabited

namespace Json

/-- A whole number from a natural. -/
def natural (n : Nat) : Json := .whole n

mutual

/-- Whether every part of a tree can be read. -/
def isReadable : Json → Bool
  | .array items => itemsReadable items
  | .object entries => entriesReadable entries
  | .unreadable => false
  | _ => true

/-- Whether every part of every item can be read. -/
def itemsReadable : List Json → Bool
  | [] => true
  | item :: rest => isReadable item && itemsReadable rest

/-- Whether every part of every entry can be read. -/
def entriesReadable : List (String × Json) → Bool
  | [] => true
  | (_, value) :: rest => isReadable value && entriesReadable rest

end

/-- Put an entry into entries sorted by key, replacing the entry with the same key. -/
def insertSorted (key : String) (value : Json) : List (String × Json) → List (String × Json)
  | [] => [(key, value)]
  | (k, v) :: rest =>
    if key < k then (key, value) :: (k, v) :: rest
    else if key == k then (key, value) :: rest
    else (k, v) :: insertSorted key value rest

mutual

/-- The document with every object in key order; the last entry of a key wins. -/
def sorted : Json → Json
  | .array items => .array (sortedItems items)
  | .object entries => .object (sortedEntries [] entries)
  | json => json

/-- The items, each sorted. -/
def sortedItems : List Json → List Json
  | [] => []
  | item :: rest => sorted item :: sortedItems rest

/-- Sorted entries with more entries put into them. -/
def sortedEntries (done : List (String × Json)) : List (String × Json) → List (String × Json)
  | [] => done
  | (key, value) :: rest => sortedEntries (insertSorted key (sorted value) done) rest

end

end Json

end Swarm

import Swarm.World.Basic

/-!
# World descriptions

A world is built from a description: its extent, the variables declared besides the built-in
ones, the turtles and links that exist from the start, and the seed of its main stream.

## Main definitions

* `WorldSpec`
* `World.build`: the observer and the patches
* `World.ofSpec`: the whole world, with its main stream
-/

namespace Swarm

open Swarm.Random (Stream)

/-- The description of a world. -/
structure WorldSpec where
  globals : List Variable
  turtlesOwn : List Variable
  patchesOwn : List Variable
  linksOwn : List Variable
  width : Nat
  height : Nat
  /-- Number of turtles at the start. -/
  turtles : Nat
  /-- Links at the start, as pairs of turtle numbers. -/
  links : List (Nat × Nat)
  seed : Nat

/-- The extent of a world that does not say otherwise. -/
def defaultExtent : Nat := 3

/-- The description that says nothing. -/
def WorldSpec.default : WorldSpec where
  globals := []
  turtlesOwn := []
  patchesOwn := []
  linksOwn := []
  width := defaultExtent
  height := defaultExtent
  turtles := 0
  links := []
  seed := 0

/-- The domain of a coordinate along `size` grid lines. -/
def coordinateDomain (size : Nat) : Domain :=
  .range (-0.5) (Float.ofNat size - 0.5)

/-- The built-in variables of turtles. -/
def turtleVariables (width height : Nat) : List Variable :=
  [.ofDomain "xcor" (coordinateDomain width), .ofDomain "ycor" (coordinateDomain height),
    .ofDomain "who" .number, .ofDomain "color" .color, .ofDomain "heading" (.range 0 360)]

/-- The built-in variables of patches. -/
def patchVariables : List Variable :=
  [.ofDomain "pxcor" .number, .ofDomain "pycor" .number,
    (Variable.ofDomain "plabel" .any).withInitial (.string ""), .ofDomain "pcolor" .color]

/-- The built-in variables of links. -/
def linkVariables : List Variable :=
  [(Variable.ofDomain "end1" (.agent .turtle)).withInitial .nobody,
    (Variable.ofDomain "end2" (.agent .turtle)).withInitial .nobody,
    (Variable.ofDomain "color" .color).withInitial (.number 5)]

/-- The variables of each kind: the built-in ones, then the declared ones. -/
def WorldSpec.tables (spec : WorldSpec) : PerKind (Array Variable) where
  observer := spec.globals.toArray
  turtle := (turtleVariables spec.width spec.height ++ spec.turtlesOwn).toArray
  patch := (patchVariables ++ spec.patchesOwn).toArray
  link := (linkVariables ++ spec.linksOwn).toArray

namespace World

/-- The record of the patch with a number. -/
def patchRecord (blank : Record) (width id : Nat) : Record :=
  { blank with
    values := (blank.values.modify xSlot fun _ => .number (Float.ofNat (id % width))).modify ySlot
      fun _ => .number (Float.ofNat (id / width)) }

/-- The world of a description before any turtle is born. -/
def build (spec : WorldSpec) : World :=
  let bare : World :=
    { tables := spec.tables
      records := ⟨#[], #[], #[], #[]⟩
      width := spec.width
      height := spec.height
      springs := true }
  let blank := bare.fresh .patch
  let patches := (List.range (spec.width * spec.height)).map (patchRecord blank spec.width)
  { bare with records := ⟨#[bare.fresh .observer], #[], patches.toArray, #[]⟩ }

/-- Link pairs of turtles one after another. -/
def linkPairs (w : World) : List (Nat × Nat) → Except Fault World
  | [] => .ok w
  | (a, b) :: rest => do
    let (_, w) ← w.createLink (.turtle a) (.turtle b)
    w.linkPairs rest

/-- The world of a description and its main stream, from which the turtles at the start were
drawn. -/
def ofSpec (spec : WorldSpec) : Except Fault (World × Stream) := do
  if spec.width = 0 ∨ spec.height = 0 then throw (Fault.ofCause .emptyWorld)
  let (_, w, s) := (build spec).createTurtles spec.turtles (Stream.ofSeed (UInt64.ofNat spec.seed))
  return (← w.linkPairs spec.links, s)

end World

end Swarm

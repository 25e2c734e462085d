import Swarm.World.Basic

/-!
# Spring layout

Turtles joined by links attract or repel each other like the ends of springs, and all turtles of
a node set repel each other. The moves are computed from the positions before the layout and then
applied in order, each kept inside the grid.

## Main definitions

* `Springs`: the constants of a layout
* `World.springMoves`, `World.repulsionMoves`: the moves
* `World.layoutSpring`: one round of layout
-/

namespace Swarm

open Swarm.Random (Stream)

/-- The constants of a layout. -/
structure Springs where
  constant : Float
  length : Float
  repulsion : Float

/-- A displacement of an agent. -/
structure Move where
  agent : AgentRef
  dx : Float
  dy : Float

/-- Computations that draw from a stream and may fail; what was drawn before a failure stays
drawn. -/
abbrev Draw := EStateM Fault Stream

namespace Draw

/-- A check that draws nothing. -/
def ofExcept {α : Type} (x : Except Fault α) : Draw α :=
  match x with
  | .ok a => pure a
  | .error f => throw f

/-- A draw that cannot fail. -/
def ofStream {α : Type} (f : Stream → α × Stream) : Draw α :=
  fun s => let (a, s) := f s; .ok a s

end Draw

/-- A full turn. -/
def fullTurn : Float := 6.283185307179586

/-- A direction and its length. -/
structure Offset where
  dx : Float
  dy : Float
  distance : Float

/-- The way between two positions; a random direction of length one if they coincide. -/
def offset (p q : Float × Float) : Draw Offset := do
  let dx := q.1 - p.1
  let dy := q.2 - p.2
  let distance := (dx * dx + dy * dy).sqrt
  if distance == 0 then
    let turn ← Draw.ofStream Stream.unit
    let angle := turn * fullTurn
    return ⟨angle.cos, angle.sin, 1⟩
  else return ⟨dx, dy, distance⟩

namespace World

/-- The two ends of a live link, if both are agents. Only an agent with a slot for each of them
has ends. -/
def ends? (w : World) (link : AgentRef) : Except Fault (Option (AgentRef × AgentRef)) := do
  let r ← w.live link
  if r.values.size ≤ secondEndSlot then throw (noSlot link.kind secondEndSlot)
  match r.values[firstEndSlot]?, r.values[secondEndSlot]? with
  | some (.agent a), some (.agent b) => return some (a, b)
  | _, _ => return none

/-- The moves of the springs `links` between nodes. Links that leave the node set are ignored. -/
def springMoves (w : World) (nodes : AgentSet) (springs : Springs) :
    List AgentRef → Draw (List Move)
  | [] => pure []
  | link :: rest => do
    match ← Draw.ofExcept (w.ends? link) with
    | none => springMoves w nodes springs rest
    | some (a, b) =>
      if nodes.agents.contains a && nodes.agents.contains b then
        let p ← Draw.ofExcept (w.position a)
        let q ← Draw.ofExcept (w.position b)
        let o ← offset p q
        let force := springs.constant * (o.distance - springs.length) / 2
        let moves ← springMoves w nodes springs rest
        return ⟨a, force * o.dx / o.distance, force * o.dy / o.distance⟩
          :: ⟨b, -force * o.dx / o.distance, -force * o.dy / o.distance⟩ :: moves
      else springMoves w nodes springs rest

/-- Distances are at least a tenth when repulsion is computed. -/
def leastSquare : Float := 0.01

/-- The moves by which `a` and each of the others repel each other. -/
def repulsionOf (w : World) (springs : Springs) (a : AgentRef) :
    List AgentRef → Except Fault (List Move)
  | [] => .ok []
  | b :: rest => do
    let p ← w.position a
    let q ← w.position b
    let dx := q.1 - p.1
    let dy := q.2 - p.2
    let square := Number.larger (dx * dx + dy * dy) leastSquare
    let push := springs.repulsion / square
    let distance := square.sqrt
    let moves ← repulsionOf w springs a rest
    return ⟨a, -push * dx / distance, -push * dy / distance⟩
      :: ⟨b, push * dx / distance, push * dy / distance⟩ :: moves

/-- The moves by which all pairs of the members repel each other. -/
def repulsionMoves (w : World) (springs : Springs) : List AgentRef → Except Fault (List Move)
  | [] => .ok []
  | a :: rest => do
    let moves ← w.repulsionOf springs a rest
    return moves ++ (← w.repulsionMoves springs rest)

/-- A coordinate kept within half a unit of the grid lines `0`, …, `size - 1`. -/
def keepInside (size : Nat) (x : Float) : Float :=
  Number.clamp (-0.5) (Float.ofNat size - 0.5) x

/-- Move an agent, keeping it inside the grid. -/
def shift (w : World) (m : Move) : World :=
  w.modifyRecord m.agent fun r =>
    let x := keepInside w.width (r.coordinate xSlot + m.dx)
    let y := keepInside w.height (r.coordinate ySlot + m.dy)
    { r with
      values := (r.values.modify xSlot fun _ => .number x).modify ySlot fun _ => .number y }

/-- The agents of a list of moves, each once, in order of their first move. -/
def movedAgents (moves : List Move) : List AgentRef :=
  moves.foldl (fun seen m => if seen.contains m.agent then seen else seen ++ [m.agent]) []

/-- One round of layout: the slots it wrote, and the world after it. Every check is made before
the first move. -/
def layoutSpring (w : World) (nodes links : AgentSet) (springs : Springs) :
    Draw (List (AgentRef × Nat) × World) := do
  if !w.springs then throw (Fault.ofCause .noSprings)
  let pulls ← w.springMoves nodes springs links.agents
  let pushes ← Draw.ofExcept (w.repulsionMoves springs nodes.agents)
  let moves := pulls ++ pushes
  let written := (movedAgents moves).flatMap fun a => [(a, xSlot), (a, ySlot)]
  return (written, moves.foldl World.shift w)

end World

end Swarm

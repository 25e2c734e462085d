import Swarm.World.Domain

/-!
# The world

The registry of all agents: a table of variables for each kind and a record of values for each
agent. Records are never removed; an agent that died keeps its record and refuses every access.

Patches form a grid of `width` columns and `height` rows, numbered row by row. Turtles keep their
coordinates in their first two variables, links keep their two ends there.

## Main definitions

* `World`, `Record`
* `World.isAlive`, `World.live`: liveness
* `World.getVariable`, `World.setVariable`: checked access to variables
* `World.agents`: the live agents of a kind
* `World.patchHere`: the patch under a turtle
* `World.createTurtles`, `World.createLink`, `World.kill`: birth and death

## Design notes

A write is split into `World.accept`, which makes all checks and changes nothing, and
`World.store`, which cannot fail. A write therefore happens as a whole or not at all.
-/

namespace Swarm

open Swarm.Random (Stream)

/-- The values of an agent's variables, and whether it lives. -/
structure Record where
  values : Array Value
  alive : Bool
deriving Inhabited

/-- The number in a slot, or zero. -/
def Record.coordinate (r : Record) (slot : Nat) : Float :=
  match r.values[slot]? with
  | some (.number x) => x
  | _ => 0

/-- Whether a slot of a record refers to an agent. -/
def Record.refersTo (r : Record) (slot : Nat) (a : AgentRef) : Bool :=
  match r.values[slot]? with
  | some (.agent b) => b == a
  | _ => false

/-- All agents and their variables. -/
structure World where
  /-- The variables of each kind, by slot. -/
  tables : PerKind (Array Variable)
  /-- The records of each kind, by number. -/
  records : PerKind (Array Record)
  width : Nat
  height : Nat
  /-- Whether the world can lay out springs. -/
  springs : Bool

/-- The slot of a turtle's horizontal coordinate. -/
def xSlot : Nat := 0

/-- The slot of a turtle's vertical coordinate. -/
def ySlot : Nat := 1

/-- The slot of a turtle's number. -/
def whoSlot : Nat := 2

/-- The slot of a turtle's color. -/
def colorSlot : Nat := 3

/-- The slot of a turtle's heading. -/
def headingSlot : Nat := 4

/-- The slot of a link's first end. -/
def firstEndSlot : Nat := 0

/-- The slot of a link's second end. -/
def secondEndSlot : Nat := 1

namespace World

/-- The variables of a kind. -/
def table (w : World) (kind : AgentKind) : Array Variable :=
  w.tables.get kind

/-- The name of a variable, or its slot if the table does not have it. -/
def variableName (w : World) (kind : AgentKind) (slot : Nat) : String :=
  match (w.table kind)[slot]? with
  | some v => v.name
  | none => toString slot

/-- The slot of the first variable with a name, up to the case of basic Latin letters. -/
def variableIndex? (w : World) (kind : AgentKind) (name : String) : Option Nat :=
  (w.table kind).findIdx? fun v => Text.eqFolding v.name name

/-- The record of an agent. -/
def record? (w : World) (a : AgentRef) : Option Record :=
  (w.records.get a.kind)[a.id]?

/-- Whether the agent exists and has not died. -/
def isAlive (w : World) (a : AgentRef) : Bool :=
  match w.record? a with
  | some r => r.alive
  | none => false

/-- The record of an agent that must be alive. -/
def live (w : World) (a : AgentRef) : Except Fault Record :=
  match w.record? a with
  | none => .error (.ofCause (.noSuchAgent a))
  | some r => if r.alive then .ok r else .error (.ofCause (.agentDead a.text))

/-- A slot that the table of a kind does not have. -/
def noSlot (kind : AgentKind) (slot : Nat) : Fault :=
  .ofDefect (.variableSlot kind slot)

/-- The value of an agent's variable. -/
def getVariable (w : World) (a : AgentRef) (slot : Nat) : Except Fault Value := do
  let r ← w.live a
  match r.values[slot]? with
  | some v => .ok v
  | none => .error (noSlot a.kind slot)

/-- Check a write and give the value to store. The slot is checked first, then that it may be
written, then the agent, then the domain. -/
def accept (w : World) (a : AgentRef) (slot : Nat) (v : Value) : Except Fault Value :=
  match (w.table a.kind)[slot]? with
  | none => .error (noSlot a.kind slot)
  | some declared =>
    if a.kind = .turtle ∧ slot = whoSlot then .error (.ofCause .fixedNumber)
    else
      match w.live a with
      | .error f => .error f
      | .ok _ => declared.domain.stored declared.name v

/-- Change the record of an agent. -/
def modifyRecord (w : World) (a : AgentRef) (f : Record → Record) : World :=
  { w with records := w.records.modify a.kind fun rs => rs.modify a.id f }

@[simp]
theorem tables_modifyRecord (w : World) (a : AgentRef) (f : Record → Record) :
    (w.modifyRecord a f).tables = w.tables :=
  rfl

theorem record?_modifyRecord_self (w : World) (a : AgentRef) (f : Record → Record) :
    (w.modifyRecord a f).record? a = (w.record? a).map f := by
  simp [record?, modifyRecord, Array.getElem?_modify]

theorem record?_modifyRecord_of_ne (w : World) {a b : AgentRef} (f : Record → Record)
    (h : b ≠ a) : (w.modifyRecord a f).record? b = w.record? b := by
  by_cases hk : b.kind = a.kind
  · have hi : a.id ≠ b.id := fun hi => h (by cases a; cases b; simp_all)
    simp [record?, modifyRecord, hk, Array.getElem?_modify, hi]
  · simp only [record?, modifyRecord, PerKind.get_modify_of_ne _ _ hk]

/-- Store a value without checks. -/
def store (w : World) (a : AgentRef) (slot : Nat) (v : Value) : World :=
  w.modifyRecord a fun r => { r with values := r.values.modify slot fun _ => v }

/-- Write a variable. -/
def setVariable (w : World) (a : AgentRef) (slot : Nat) (v : Value) : Except Fault World := do
  let v ← w.accept a slot v
  return w.store a slot v

/-- Numbers of the live records of a list whose first record has number `n`. -/
def liveFrom : Nat → List Record → List Nat
  | _, [] => []
  | n, r :: rest => if r.alive then n :: liveFrom (n + 1) rest else liveFrom (n + 1) rest

/-- The live agents of a kind, by number. There is one observer. -/
def agents (w : World) (kind : AgentKind) : AgentSet :=
  match kind with
  | .observer => .ofAgent .observer
  | kind => ⟨kind, (liveFrom 0 (w.records.get kind).toList).map fun id => ⟨kind, id⟩, false⟩

/-- The coordinates of a live agent. Only an agent with a slot for each of them has a position. -/
def position (w : World) (a : AgentRef) : Except Fault (Float × Float) := do
  let r ← w.live a
  if r.values.size ≤ ySlot then throw (noSlot a.kind ySlot)
  return (r.coordinate xSlot, r.coordinate ySlot)

/-- The grid line nearest to a coordinate, among the lines `0`, …, `size - 1`. -/
def gridLine (size : Nat) (x : Float) : Nat :=
  min (Number.toNatSaturating Number.wordMax (Number.larger x.round 0)) (size - 1)

/-- The patch that a turtle stands on. -/
def patchHere (w : World) (turtle : AgentRef) : Except Fault AgentRef := do
  let (x, y) ← w.position turtle
  return .patch (gridLine w.height y * w.width + gridLine w.width x)

/-- The record of a new agent. -/
def fresh (w : World) (kind : AgentKind) : Record :=
  ⟨(w.table kind).map Variable.initial, true⟩

/-- Append a record; its number is the count of records before. -/
def append (w : World) (kind : AgentKind) (r : Record) : World :=
  { w with records := w.records.modify kind fun rs => rs.push r }

/-- Colors of new turtles are `5`, `15`, …, `135`. -/
def colorOfDraw (n : Nat) : Float :=
  5 + 10 * Float.ofNat n

/-- Create a turtle with a random color and heading. -/
def createTurtle (w : World) (s : Stream) : World × Stream :=
  let id := w.records.turtle.size
  let (color, s) := s.below 14
  let (heading, s) := s.below 360
  let r := w.fresh .turtle
  let values := r.values.modify whoSlot (fun _ => .number (Float.ofNat id))
    |>.modify colorSlot (fun _ => .number (colorOfDraw color))
    |>.modify headingSlot (fun _ => .number (Float.ofNat heading))
  (w.append .turtle { r with values := values }, s)

/-- Create turtles one after another. -/
def growTurtles : Nat → World → Stream → World × Stream
  | 0, w, s => (w, s)
  | n + 1, w, s =>
    let (w, s) := w.createTurtle s
    growTurtles n w s

/-- Create turtles. The result lists them in order of creation, and is visited in that order. -/
def createTurtles (w : World) (count : Nat) (s : Stream) : AgentSet × World × Stream :=
  let first := w.records.turtle.size
  let (w, s) := growTurtles count w s
  (⟨.turtle, (List.range' first count).map AgentRef.turtle, true⟩, w, s)

/-- Whether an agent can be an end of a link. -/
def canLink (w : World) (a : AgentRef) : Bool :=
  a.kind = .turtle && w.isAlive a

/-- Link two live turtles. -/
def createLink (w : World) (first second : AgentRef) : Except Fault (AgentRef × World) :=
  if !w.canLink first then .error (.ofCause (.cannotLink first))
  else if !w.canLink second then .error (.ofCause (.cannotLink second))
  else
    let id := w.records.link.size
    let r := w.fresh .link
    let values := r.values.modify firstEndSlot (fun _ => .agent first)
      |>.modify secondEndSlot (fun _ => .agent second)
    .ok (.link id, w.append .link { r with values := values })

/-- Whether an agent may be killed now. -/
def mortal (w : World) (a : AgentRef) : Except Fault Unit :=
  match a.kind with
  | .observer => .error (.ofCause .observerDeath)
  | .patch => .error (.ofCause .patchDeath)
  | _ => (w.live a).map fun _ => ()

/-- Let the links that end in an agent die. -/
def dropLinks (w : World) (a : AgentRef) : World :=
  { w with
    records := w.records.modify .link fun rs =>
      rs.map fun r =>
        if r.refersTo firstEndSlot a || r.refersTo secondEndSlot a then
          { r with alive := false }
        else r }

/-- Let an agent die; the links that end in a turtle die with it. -/
def remove (w : World) (a : AgentRef) : World :=
  let w := w.modifyRecord a fun r => { r with alive := false }
  if a.kind = .turtle then w.dropLinks a else w

/-- Kill an agent. -/
def kill (w : World) (a : AgentRef) : Except Fault World := do
  w.mortal a
  return w.remove a

end World

end Swarm

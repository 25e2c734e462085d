import Swarm.Machine.Report

/-!
# The machine

The state of one agent that runs code, and the computations on it.

Streams live in a store and are referred to by `StreamRef`, so that a job can share the main
stream, have one of its own, or use another one for a while. Notices record what observers of a
run are told.

## Main definitions

* `Streams`, `StreamRef`: the store of streams
* `Notice`: a variable that was written, or a line of output
* `HaltFlag`: what readings of the halt flag find
* `Simulation`: what all agents of a run share
* `Cursor`: an agent's pending work; `Context`: the same while the agent runs
* `Machine`: a simulation with one running agent
* `Exec`: computations that change the machine and may stop; what was changed before stays changed

## Design notes

A run may go on for ever, so runs are bounded by fuel. Running out of it is a `Stop` of its own,
apart from faults, and no construct of the language can catch it.
-/

namespace Swarm

open Swarm.Random (Stream)

/-- A reference to a stream. -/
structure StreamRef where
  index : Nat
deriving Repr, DecidableEq, Inhabited

/-- The store of streams. -/
structure Streams where
  store : Array Stream

namespace Streams

/-- The main stream of a world. -/
def main : StreamRef := ⟨0⟩

/-- The store that holds only a main stream. -/
def ofMain (s : Stream) : Streams := ⟨#[s]⟩

/-- A stream of the store. -/
def get (ss : Streams) (r : StreamRef) : Stream :=
  ss.store.getD r.index default

/-- Replace a stream. -/
def set (ss : Streams) (r : StreamRef) (s : Stream) : Streams :=
  ⟨ss.store.modify r.index fun _ => s⟩

theorem get_set_self {ss : Streams} {r : StreamRef} (s : Stream) (h : r.index < ss.store.size) :
    (ss.set r s).get r = s := by
  simp [get, set, h, Array.getElem_modify]

theorem get_set_of_ne (ss : Streams) {r q : StreamRef} (s : Stream) (h : q ≠ r) :
    (ss.set r s).get q = ss.get q := by
  have hi : r.index ≠ q.index := fun e => h (by cases q; cases r; simp_all)
  simp [get, set, Array.getElem?_modify, hi]

/-- Stores of the same size that agree on what they hold are equal. -/
theorem eq_of_get_eq {ss ss' : Streams} (hsize : ss'.store.size = ss.store.size)
    (hget : ∀ q : StreamRef, q.index < ss.store.size → ss'.get q = ss.get q) : ss' = ss := by
  obtain ⟨xs⟩ := ss
  obtain ⟨ys⟩ := ss'
  congr 1
  refine Array.ext hsize fun k hk hk' => ?_
  have hq := hget ⟨k⟩ hk'
  simpa [get, hk, hk'] using hq

/-- Writing back what is there changes nothing. -/
theorem set_get_self (ss : Streams) (r : StreamRef) : ss.set r (ss.get r) = ss := by
  refine eq_of_get_eq (by simp [set]) fun q hq => ?_
  by_cases h : q = r
  · subst h
    exact get_set_self _ hq
  · exact get_set_of_ne ss _ h

/-- Add a stream. -/
def add (ss : Streams) (s : Stream) : StreamRef × Streams :=
  (⟨ss.store.size⟩, ⟨ss.store.push s⟩)

theorem get_add_self (ss : Streams) (s : Stream) : (ss.add s).2.get (ss.add s).1 = s := by
  simp [get, add]

theorem get_add_of_lt {ss : Streams} {r : StreamRef} (s : Stream) (h : r.index < ss.store.size) :
    (ss.add s).2.get r = ss.get r := by
  simp [get, add, Array.getElem?_push, Nat.ne_of_lt h]

/-- Add a copy of a stream. -/
def addCopy (ss : Streams) (r : StreamRef) : StreamRef × Streams :=
  ss.add (ss.get r)

/-- Keep the first `n` streams. -/
def truncate (ss : Streams) (n : Nat) : Streams :=
  ⟨ss.store.take n⟩

theorem get_truncate_of_lt {ss : Streams} {r : StreamRef} {n : Nat} (h : r.index < n) :
    (ss.truncate n).get r = ss.get r := by
  by_cases hr : r.index < ss.store.size
  · have hm : r.index < min n ss.store.size := by omega
    simp [get, truncate, hm, hr]
  · have hout : ss.store.size ≤ r.index := by omega
    have htake : (ss.store.take n).size ≤ r.index := by
      rw [Array.take_eq_extract, Array.size_extract]
      omega
    simp only [get, truncate, Array.getD_eq_getD_getElem?, Array.getElem?_eq_none htake,
      Array.getElem?_eq_none hout]

end Streams

/-- What observers of a run are told. -/
inductive Notice where
  /-- A variable was written. -/
  | changed (agent : AgentRef) (slot : Nat) (value : Value)
  /-- A line was printed. -/
  | output (text : String)

/-- The halt flag as it will be found. It is shared with others, who may raise and clear it while a
run goes on, so that each reading may differ from the one before. Bounded runs read the flag
finitely often: `upcoming` can be as long as any of them needs. -/
structure HaltFlag where
  /-- What the next readings find, in order. -/
  upcoming : List Bool
  /-- What every reading after those finds. -/
  thereafter : Bool
deriving Repr, DecidableEq

namespace HaltFlag

/-- A flag that nobody touches. -/
def steady (raised : Bool) : HaltFlag := ⟨[], raised⟩

/-- Whether the next reading finds the flag raised. -/
def isRaised (h : HaltFlag) : Bool :=
  h.upcoming.headD h.thereafter

/-- The flag after a reading. -/
def later (h : HaltFlag) : HaltFlag :=
  ⟨h.upcoming.tail, h.thereafter⟩

@[simp]
theorem isRaised_steady (raised : Bool) : (steady raised).isRaised = raised :=
  rfl

@[simp]
theorem later_steady (raised : Bool) : (steady raised).later = steady raised :=
  rfl

end HaltFlag

/-- What all agents of a run share. -/
structure Simulation where
  world : World
  streams : Streams
  /-- Notices in order. -/
  notices : Array Notice
  halt : HaltFlag

/-- Bounds on a run. -/
structure Limits where
  /-- Frames of an agent. -/
  callDepth : Nat
  /-- Nested jobs inside each other. -/
  nesting : Nat
  /-- Steps of a job. -/
  steps : Nat
deriving Repr, DecidableEq

/-- The bounds of a run that does not say otherwise. -/
def Limits.default : Limits := ⟨defaultCallDepth, 64, 100000⟩

/-- What does not change during a step. -/
structure Environment where
  program : Program
  limits : Limits

/-- Pending work of an agent. -/
structure Cursor where
  agent : AgentRef
  ip : Nat
  frames : CallStack
  /-- The depth at which the agent's block ends. -/
  baseDepth : Nat
  /-- The message of the fault caught last. -/
  errorMessage : Option String

/-- An agent that runs code. -/
structure Context extends Cursor where
  /-- The stream that the agent draws from. -/
  stream : StreamRef
  /-- The value of the argument evaluated last. -/
  lastReported : Value
  /-- Whether the agent reached the end of its block. -/
  finished : Bool

namespace Context

/-- Take up pending work. -/
def resume (c : Cursor) (stream : StreamRef) : Context :=
  { toCursor := c, stream := stream, lastReported := .nobody, finished := false }

/-- The place of the running procedure. -/
def procedure (c : Context) : Nat := c.frames.top.procedure

/-- Whether a return would end the agent's block. -/
def atBase (c : Context) : Bool :=
  c.frames.depth ≤ c.baseDepth

end Context

/-- A simulation with one running agent. -/
structure Machine extends Simulation where
  /-- Nested jobs around the running agent. -/
  nesting : Nat
  context : Context

/-- Why a computation stopped early. -/
inductive Stop where
  | fault (f : Fault)
  /-- The fuel ran out. -/
  | exhausted

/-- Computations on the machine. -/
abbrev Exec := EStateM Stop Machine

namespace Exec

variable {α : Type}

/-- Stop with a fault. -/
def fail (f : Fault) : Exec α :=
  throw (.fault f)

/-- A check that leaves the machine as it is. -/
def ofExcept (x : Except Fault α) : Exec α :=
  match x with
  | .ok a => pure a
  | .error f => fail f

/-- Run a computation and hand over how it ended. -/
def attempt (x : Exec α) : Exec (Except Stop α) :=
  fun m =>
    match x m with
    | .ok a m => .ok (.ok a) m
    | .error e m => .ok (.error e) m

/-- End as another computation did. -/
def resumeWith (r : Except Stop α) : Exec α :=
  match r with
  | .ok a => pure a
  | .error e => throw e

/-- Transform the fault of a failing computation, given the machine as it failed. -/
def mapFault (change : Machine → Fault → Fault) (x : Exec α) : Exec α :=
  fun m =>
    match x m with
    | .error (.fault f) m => .error (.fault (change m f)) m
    | r => r

/-- The running agent's state. -/
def context : Exec Context := do
  return (← get).context

/-- Change the running agent's state. -/
def modifyContext (f : Context → Context) : Exec Unit :=
  modify fun m => { m with context := f m.context }

/-- Go on at an instruction. -/
def goto (ip : Nat) : Exec Unit :=
  modifyContext fun c => { c with ip := ip }

/-- End the running agent's block. -/
def finish : Exec Unit :=
  modifyContext fun c => { c with finished := true }

/-- Draw from a stream. -/
def drawFrom (r : StreamRef) (d : Draw α) : Exec α :=
  fun m =>
    match d (m.streams.get r) with
    | .ok a s => .ok a { m with streams := m.streams.set r s }
    | .error f s => .error (.fault f) { m with streams := m.streams.set r s }

/-- Draw from the stream of the running agent. -/
def draw (d : Draw α) : Exec α := do
  drawFrom (← context).stream d

/-- Tell observers. -/
def notify (n : Notice) : Exec Unit :=
  modify fun m => { m with notices := m.notices.push n }

end Exec

/-- What the running agent sees. -/
def Machine.view (env : Environment) (m : Machine) : View where
  program := env.program
  world := m.world
  agent := m.context.agent
  frame := m.context.frames.top
  errorMessage := m.context.errorMessage

/-- The value of an expression for the running agent. -/
def Exec.report (env : Environment) (e : Expr) : Exec Value := do
  let m ← get
  Exec.draw (e.report (m.view env))

/-- The value of an argument, which becomes the one reported last. -/
def Exec.evaluate (env : Environment) (e : Expr) : Exec Value := do
  let v ← Exec.report env e
  Exec.modifyContext fun c => { c with lastReported := v }
  return v

/-- The value of the argument at a place. -/
def Exec.evaluateAt (env : Environment) (args : List Expr) (index : Nat) : Exec Value :=
  match args[index]? with
  | some e => Exec.evaluate env e
  | none => Exec.fail (.ofDefect (.argumentMissing index))

/-- The number that the argument at a place evaluates to. -/
def Exec.numberAt (env : Environment) (args : List Expr) (index : Nat) (primitive : String) :
    Exec Float := do
  Exec.ofExcept (Argument.number primitive (← Exec.evaluateAt env args index))

/-- The agent set that the argument at a place evaluates to. -/
def Exec.agentsetAt (env : Environment) (args : List Expr) (index : Nat) (primitive : String) :
    Exec AgentSet := do
  Exec.ofExcept (Argument.agentset primitive (← Exec.evaluateAt env args index))

/-- The value of a local. -/
def Exec.getLocal (slot : Nat) : Exec Value := do
  Exec.ofExcept ((← Exec.context).frames.top.get slot)

/-- Assign a local. -/
def Exec.setLocal (slot : Nat) (v : Value) : Exec Unit := do
  let c ← Exec.context
  let f ← Exec.ofExcept (c.frames.top.set slot v)
  Exec.modifyContext fun c => { c with frames := c.frames.setTop f }

/-- Write a variable and tell observers what was stored. -/
def Exec.writeVariable (a : AgentRef) (slot : Nat) (v : Value) : Exec Unit := do
  let stored ← Exec.ofExcept ((← get).world.accept a slot v)
  modify fun m => { m with world := m.world.store a slot stored }
  Exec.notify (.changed a slot stored)

/-- Write a variable of a simulation and tell observers what was stored. -/
def Simulation.writeVariable (sim : Simulation) (a : AgentRef) (slot : Nat) (v : Value) :
    Except Fault Simulation := do
  let stored ← sim.world.accept a slot v
  return { sim with
    world := sim.world.store a slot stored
    notices := sim.notices.push (.changed a slot stored) }

end Swarm
